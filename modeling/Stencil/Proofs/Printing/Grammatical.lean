import Stencil.Proofs.Printing.Faithful
import Stencil.Proofs.Syntax.Subtrees
/-!
# Trees that the grammar reads, and trees that can be spelt

`Grammatical` is what the grammar makes sure of in every tree that it reads, and `Restorable` what is
left for the text of a tree to be read as that tree: its numbers and names can be written down, and
nothing in its text changes how what stands behind it is read. A part for which both hold is faithful
(`faithful_of_restorable`).

`Spellable` is a simpler condition. A tree that can be spelt has no reserved words for properties, so
that behind each of them a slash divides (`faithful_of_grammatical`).
-/

set_option autoImplicit false

namespace Stencil.Print

open Stencil.Lexing (IsNameText)
open Stencil.Text (isName)
open Stencil.Number
open Stencil.Syntax

/-! ## What the grammar makes sure of -/

/-- A name that is no reserved word. -/
def IsPlainWord (name : String) : Prop := wordKind name = .name name

/-- What holds of an expression that was read. -/
def GrammaticalExpr : Expr → Prop
  | .name _ name => IsPlainWord name
  | .regexp _ pattern flags => IsFineRegexp pattern flags
  | .postfixOp _ op _ => op.isUpdate = true
  | .assign _ op _ _ => ∀ symbol, op = some symbol → symbol.isCompound = true
  | _ => True

/-- What holds of a function that was read. -/
def GrammaticalFunction : Function → Prop
  | .mk name params body =>
    (∀ n ∈ name, IsPlainWord n) ∧ (∀ n ∈ params, IsPlainWord n) ∧ scopedStmts .ofFunction body

/-- What holds of a statement that was read. -/
def GrammaticalStmt : Stmt → Prop
  | .var _ defs => defs ≠ []
  | .const _ defs => defs ≠ []
  | .ifElse _ _ thenBranch (some _) => thenBranch.opensElse = false
  | .forIn _ (.var defs) _ _ => ∃ d, defs = [d]
  | .tryCatch _ _ handler finalizer => handler.isSome = true ∨ finalizer.isSome = true
  | .defun _ fn => IsDeclaration fn
  | .break _ label => ∀ name ∈ label, IsPlainWord name
  | .continue _ label => ∀ name ∈ label, IsPlainWord name
  | .labelled _ label _ => IsPlainWord label
  | _ => True

/-- What holds of a chunk that was read. -/
def GrammaticalChunk : Chunk → Prop
  | .html _ text => IsFineText text
  | .each _ (some names) _ _ => names ≠ [] ∧ ∀ n ∈ names, IsPlainWord n
  | .var _ defs => defs ≠ []
  | _ => True

/-- What holds of a part of a tree that was read. -/
def Grammatical : Part → Prop
  | .expr e => GrammaticalExpr e
  | .function fn => GrammaticalFunction fn
  | .stmt s => GrammaticalStmt s
  | .varDef (.mk name _) => IsPlainWord name
  | .head head => FaithfulHead head
  | .handler (.mk name _) => IsPlainWord name
  | .chunk c => GrammaticalChunk c
  | _ => True

/-! ## What is left -/

/-- The condition on the leaves of an expression. -/
def SpellableExpr : Expr → Prop
  | .num _ value => Literal.value? (numberText value).toList = some value
  | .name _ name => IsNameText name.toList
  | .dot _ _ property => IsNameText property.toList ∧ isReserved property = false
  | _ => True

/-- The condition on the names of a function. -/
def SpellableFunction : Function → Prop
  | .mk name params _ => (∀ n ∈ name, IsNameText n.toList) ∧ ∀ n ∈ params, IsNameText n.toList

/-- The condition on the labels of a statement. -/
def SpellableStmt : Stmt → Prop
  | .break _ label => ∀ name ∈ label, IsNameText name.toList
  | .continue _ label => ∀ name ∈ label, IsNameText name.toList
  | .labelled _ label _ => IsNameText label.toList
  | _ => True

/-- The condition on a part of a script. -/
def Spellable : Part → Prop
  | .expr e => SpellableExpr e
  | .property p => FaithfulProperty p
  | .function fn => SpellableFunction fn
  | .stmt s => SpellableStmt s
  | .varDef (.mk name _) => IsNameText name.toList
  | .handler (.mk name _) => IsNameText name.toList
  | .chunk c => FaithfulChunk c
  | _ => True

/-- A test that is enough for a part of a script without numbers: its names are plain. -/
def isPlainlySpelt : Part → Bool
  | .expr (.num _ _) => false
  | .expr (.name _ name) => isName name.toList
  | .expr (.dot _ _ property) => isName property.toList && !isReserved property
  | .property (.getter key (.mk name _ _)) => isName key.toList && name.isNone
  | .property (.setter key (.mk name _ _)) => isName key.toList && name.isNone
  | .function (.mk name params _) =>
    name.all (isName ·.toList) && params.all (isName ·.toList)
  | .stmt (.break _ label) => label.all (isName ·.toList)
  | .stmt (.continue _ label) => label.all (isName ·.toList)
  | .stmt (.labelled _ label _) => isName label.toList
  | .varDef (.mk name _) => isName name.toList
  | .handler (.mk name _) => isName name.toList
  | .chunk _ => false
  | _ => true

theorem spellable_of_isPlainlySpelt {part : Part} (plain : isPlainlySpelt part = true) :
    Spellable part := by
  have optional {label : Option String} (all : label.all (isName ·.toList) = true) :
      ∀ name ∈ label, IsNameText name.toList := by
    rintro name rfl
    exact .inl all
  cases part with
  | expr e =>
    cases e with
    | num => cases plain
    | name => exact .inl plain
    | dot s target property =>
      obtain ⟨named, unreserved⟩ := (Bool.and_eq_true _ _).mp plain
      exact ⟨.inl named, by simpa using unreserved⟩
    | _ => trivial
  | property p =>
    cases p with
    | init => trivial
    | getter key fn | setter key fn =>
      obtain ⟨name, params, body⟩ := fn
      obtain ⟨named, unnamed⟩ := (Bool.and_eq_true _ _).mp plain
      exact ⟨.inl named, by simpa using unnamed⟩
  | function fn =>
    obtain ⟨name, params, body⟩ := fn
    obtain ⟨named, listed⟩ := (Bool.and_eq_true _ _).mp plain
    exact ⟨optional named, fun n inside => .inl (List.all_eq_true.1 listed n inside)⟩
  | stmt s =>
    cases s with
    | «break» | «continue» => exact optional plain
    | labelled => exact .inl plain
    | _ => trivial
  | varDef d =>
    obtain ⟨name, value⟩ := d
    exact .inl plain
  | handler h =>
    obtain ⟨name, body⟩ := h
    exact .inl plain
  | chunk c => cases plain
  | head | switchCase | elseIf => trivial

/-! ## What the text of a tree depends on -/

/-- The condition on an expression: its number comes back from its digits, its names are spelt as
names, and nothing is divided that ends in a word behind which a regular expression begins. -/
def RestorableExpr : Expr → Prop
  | .num _ value => Literal.value? (numberText value).toList = some value
  | .name _ name => IsNameText name.toList
  | .dot _ _ property => IsNameText property.toList
  | .binary _ op left _ =>
    op = .div → endsHot (binaryLevel + op.precedence) left = false
  | .assign _ op target _ => op = some .div → endsHot binaryLevel target = false
  | _ => True

/-- The condition on a chunk: names are spelt as names, and where a list in parentheses might stand
no other code begins with a parenthesis. -/
def RestorableChunk : Chunk → Prop
  | .include _ none name => ¬beginsWithParenthesis (ofExpr name)
  | .each _ none collection _ => beginsWithParenthesis (ofExpr collection) → IsRegexp collection
  | .each _ (some names) _ _ => ∀ n ∈ names, IsNameText n.toList
  | _ => True

/-- The condition under which a part of a grammatical tree can be told from its text. -/
def Restorable : Part → Prop
  | .expr e => RestorableExpr e
  | .property p => FaithfulProperty p
  | .function fn => SpellableFunction fn
  | .stmt s => SpellableStmt s
  | .varDef (.mk name _) => IsNameText name.toList
  | .handler (.mk name _) => IsNameText name.toList
  | .chunk c => RestorableChunk c
  | _ => True

/-- A chunk that was read is faithful if it can be told from its text. -/
theorem faithfulChunk_of_restorable {c : Chunk} (read : GrammaticalChunk c)
    (restorable : RestorableChunk c) : FaithfulChunk c := by
  cases c with
  | html s text => exact read
  | «include» s args name =>
    cases args with
    | none => exact restorable
    | some args => trivial
  | each s bindings collection body =>
    cases bindings with
    | none => exact restorable
    | some names => exact ⟨read.1, fun n listed => ⟨restorable n listed, read.2 n listed⟩⟩
  | var s defs => exact read
  | _ => trivial

/-- A part that was read is faithful if it can be told from its text. -/
theorem faithful_of_restorable {part : Part} (read : Grammatical part)
    (restorable : Restorable part) : Faithful part := by
  cases part with
  | expr e =>
    cases e with
    | num | string | atom | array | object | dot | sub | call | new | prefixOp | binary
    | conditional | seq | function => exact restorable
    | name s name => exact ⟨restorable, read⟩
    | assign s op target value =>
      exact fun symbol same => ⟨read symbol same, fun divides => restorable (divides ▸ same)⟩
    | regexp | postfixOp => exact read
  | property p => exact restorable
  | function fn =>
    obtain ⟨name, params, body⟩ := fn
    exact ⟨fun n named => ⟨restorable.1 n named, read.1 n named⟩,
      fun n listed => ⟨restorable.2 n listed, read.2.1 n listed⟩, read.2.2⟩
  | stmt s =>
    cases s with
    | «break» s label => exact fun name named => ⟨restorable name named, read name named⟩
    | «continue» s label => exact fun name named => ⟨restorable name named, read name named⟩
    | labelled s label body => exact ⟨restorable, read⟩
    | ifElse s condition thenBranch elseBranch =>
      cases elseBranch with
      | none => trivial
      | some branch => exact read
    | forIn s head object body =>
      cases head with
      | var defs => exact read
      | expr value => trivial
    | _ => exact read
  | varDef d =>
    obtain ⟨name, value⟩ := d
    exact ⟨restorable, read⟩
  | head h => exact read
  | switchCase branch => trivial
  | handler h =>
    obtain ⟨name, body⟩ := h
    exact ⟨restorable, read⟩
  | chunk c => exact faithfulChunk_of_restorable read restorable
  | elseIf branch => trivial

/-! ## Trees without reserved words for properties -/

/-- Behind a word that is not reserved a slash divides. -/
theorem isHot_of_unreserved {word : String} (unreserved : isReserved word = false) :
    isHot word = false := by
  unfold isReserved at unreserved
  rw [Bool.or_eq_false_iff] at unreserved
  unfold isHot wordKind
  rw [unreserved.2, if_neg (by simp)]
  cases known : Keyword.ofSpelling? word with
  | some keyword => simp [known] at unreserved
  | none =>
    dsimp only
    split
    · rfl
    · rfl

/-- Behind an expression without reserved words for properties a slash divides. -/
theorem endsHot_of_spellable {e : Expr} (spellable : Everywhere Spellable e.parts) (least : Nat) :
    endsHot least e = false := by
  fun_induction endsHot least e with
  | case1 least s target property =>
    rw [isHot_of_unreserved ((everywhere_cons _ _).1 spellable).1.2, Bool.and_false]
  | case2 least s op operand ih => simp_all
  | case3 least s op left right ih => simp_all
  | case4 least s test yes no ih => simp_all
  | case5 least s op target value ih => simp_all
  | case6 least s first rest ih => simp_all
  | case7 => rfl

/-- A chunk that is faithful can be told from its text. -/
theorem restorableChunk_of_faithful {c : Chunk} (faithful : FaithfulChunk c) : RestorableChunk c := by
  cases c with
  | «include» s args name =>
    cases args with
    | none => exact faithful
    | some args => trivial
  | each s bindings collection body =>
    cases bindings with
    | none => exact faithful
    | some names => exact fun n listed => (faithful.2 n listed).1
  | _ => trivial

/-- A part that can be spelt can be told from its text, if all that is below it can be spelt. -/
theorem restorable_of_spellable {part : Part} (spellable : Spellable part)
    (below : Everywhere Spellable part.parts) : Restorable part := by
  cases part with
  | expr e =>
    cases e with
    | binary s op left right =>
      exact fun _ => endsHot_of_spellable (by simp_all [Part.parts]) _
    | assign s op target value =>
      exact fun _ => endsHot_of_spellable (by simp_all [Part.parts]) _
    | dot s target property => exact spellable.1
    | _ => exact spellable
  | varDef d =>
    obtain ⟨name, value⟩ := d
    exact spellable
  | handler h =>
    obtain ⟨name, body⟩ := h
    exact spellable
  | chunk c => exact restorableChunk_of_faithful spellable
  | _ => exact spellable

/-- A tree that is grammatical and can be spelt is faithful. -/
theorem faithful_of_grammatical {parts : List Part} (closed : Closed parts)
    (grammatical : Everywhere Grammatical parts) (spellable : Everywhere Spellable parts) :
    Everywhere Faithful parts := fun part listed =>
  faithful_of_restorable (grammatical part listed)
    (restorable_of_spellable (spellable part listed) (closed.everywhere spellable listed))

end Stencil.Print
