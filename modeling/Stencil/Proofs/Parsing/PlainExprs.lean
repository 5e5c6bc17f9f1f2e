import Stencil.Proofs.Parsing.Scripts
import Stencil.Proofs.Parsing.Spanless
import Stencil.Proofs.Printing.Grammatical
/-!
# Plain expressions read back

An expression is plain when it carries no spans and is built from literals, names and operators
only: no regular expression, no function, no accessor. The canonical text of a plain expression,
with parentheses only where operands bind too weakly, is read back as exactly that expression
(`plain_read_back`), as long as its numbers come back from their digits.
-/

set_option autoImplicit false

namespace Stencil.Print

open Stencil.Lexing (IsNameText)
open Stencil.Number
open Stencil.Syntax
open Stencil.Text (isName)

/-! ## Plain trees -/

/-- What stands in a plain expression, apart from spans. -/
def PlainExpr : Expr → Prop
  | .num _ value => value.isNaN = false ∧ Style.isNegative value = false
  | .name _ name =>
    isName name.toList = true ∧ isReserved name = false ∧ Atom.ofSpelling? name = none
  | .dot _ _ property => isName property.toList = true ∧ isReserved property = false
  | .postfixOp _ op _ => op.isUpdate = true
  | .assign _ op _ _ => ∀ symbol, op = some symbol → symbol.isCompound = true
  | .regexp .. | .function .. => False
  | _ => True

/-- The condition on a part of a plain expression: there are only expressions without spans, and
properties with a value. -/
def Plain : Part → Prop
  | .expr e => e.span = none ∧ PlainExpr e
  | .property (.init _ _) => True
  | _ => False

/-- The number of a part comes back from its digits. -/
def NumberReturns : Part → Prop
  | .expr (.num _ value) => Literal.value? (numberText value).toList = some value
  | _ => True

/-! ## What follows for the text -/

/-- A word that is neither reserved nor a constant is read as a name. -/
theorem wordKind_plain {word : String} (unreserved : isReserved word = false)
    (noAtom : Atom.ofSpelling? word = none) : wordKind word = .name word := by
  unfold isReserved at unreserved
  rw [Bool.or_eq_false_iff] at unreserved
  unfold wordKind
  rw [unreserved.2, if_neg (by simp)]
  cases known : Keyword.ofSpelling? word with
  | some keyword => simp [known] at unreserved
  | none => simp [noAtom]

theorem grammatical_of_plainExpr {e : Expr} (plain : PlainExpr e) : GrammaticalExpr e := by
  cases e with
  | name s name => exact wordKind_plain plain.2.1 plain.2.2
  | regexp s pattern flags => exact plain.elim
  | postfixOp s op operand => exact plain
  | assign s op target value => exact plain
  | _ => trivial

theorem spellable_of_plainExpr {e : Expr} (plain : PlainExpr e) (number : NumberReturns (.expr e)) :
    SpellableExpr e := by
  cases e with
  | num s value => exact number
  | name s name => exact .inl plain.1
  | dot s target property => exact ⟨.inl plain.1, plain.2⟩
  | _ => trivial

theorem grammatical_of_plain {part : Part} (plain : Plain part) : Grammatical part := by
  cases part with
  | expr e => exact grammatical_of_plainExpr plain.2
  | property p => trivial
  | _ => exact plain.elim

theorem spellable_of_plain {part : Part} (plain : Plain part) (number : NumberReturns part) :
    Spellable part := by
  cases part with
  | expr e => exact spellable_of_plainExpr plain.2 number
  | property p =>
    cases p with
    | init key value => trivial
    | _ => exact plain.elim
  | _ => exact plain.elim

/-- A plain expression is faithful: its text reads back. -/
theorem faithful_of_plain {e : Expr} (plain : Everywhere Plain e.parts)
    (numbers : Everywhere NumberReturns e.parts) : Everywhere Faithful e.parts :=
  faithful_of_grammatical e.closed_parts
    (fun part listed => grammatical_of_plain (plain part listed))
    fun part listed => spellable_of_plain (plain part listed) (numbers part listed)

/-- A part of a plain expression has no span. -/
theorem bare_of_plain {part : Part} (plain : Plain part) : Part.Bare part := by
  cases part with
  | expr e => exact plain.1
  | property p => rfl
  | _ => exact plain.elim

end Stencil.Print

namespace Stencil

open Stencil.Grammar
open Stencil.Lexing
open Stencil.Print
open Stencil.Number
open Stencil.Syntax

/-! ## Reading back -/

/-- Parenthesisation is right for every plain expression: its canonical text is read back as exactly
that expression. -/
theorem plain_read_back {e : Expr} (plain : Everywhere Plain e.parts)
    (numbers : Everywhere NumberReturns e.parts) :
    parseExpression ⟨false, false⟩ (ofExpr e) = .ok e := by
  obtain ⟨result, parsed, same⟩ :=
    parseExpression_printed (o := ⟨false, false⟩) rfl e (faithful_of_plain plain numbers)
  have bare : Everywhere Part.Bare e.parts := fun part listed => bare_of_plain (plain part listed)
  rw [Expr.eraseSpans_of_bare bare, expression_eraseSpans_of_read parsed] at same
  rw [parsed, same]

/-- A call below `new`, signs that would fuse, an infinite number, an assignment as operand, a key
that needs quotes and a constant as property. -/
theorem plain_read_back_crowded :
    ∃ e : Expr, e = .seq none
        (.new none (.dot none (.call none (.name none "f") []) "true")
          [.num none Number.Decimal.infinity])
        (.binary none .sub
          (.assign none (some .unsignedShiftRight) (.name none "a") (.num none 1.5))
          (.prefixOp none .neg (.prefixOp none .decrement
            (.object none [.init "b c" (.array none [])])))) ∧
      ofExpr e = "new (f().true)(1e999), (a >>>= 1.5) - - --\x7b\"b c\": []\x7d" ∧
        parseExpression ⟨false, false⟩ (ofExpr e) = .ok e := by
  have infinity : Literal.value? (numberText Decimal.infinity).toList = some Decimal.infinity := by
    decide +kernel
  have fraction : Literal.value? (numberText 1.5).toList = some 1.5 := by decide +kernel
  have signs : Decimal.infinity.isNaN = false ∧ Style.isNegative Decimal.infinity = false ∧
      (1.5 : Float).isNaN = false ∧ Style.isNegative 1.5 = false := by decide +kernel
  refine ⟨_, rfl, by decide +kernel, plain_read_back ?_ ?_⟩
  · simp [partsOfExprs, partsOfProperties, Plain, PlainExpr, Expr.span, signs]
    decide +kernel
  · simp [partsOfExprs, partsOfProperties, NumberReturns, infinity, fraction]

end Stencil
