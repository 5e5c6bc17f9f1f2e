import Stencil.Print.Source
import Stencil.Proofs.Lexing.Spelling
import Stencil.Proofs.Syntax.Parts
import Stencil.Proofs.Syntax.Scoping
/-!
# Trees whose text reads back

The conditions under which the canonical text of a tree is read as that tree: its numbers and names
can be spelt, its operators stand where the grammar has them, no `else` finds another `if` than its
own, and every jump has a target. Each condition is on one part of the tree.
-/

set_option autoImplicit false

namespace Stencil.Print

open Stencil.Lexing (IsNameText IsSpelling IsPattern)
open Stencil.Number
open Stencil.Syntax
open Stencil.Text

/-- A name that is read as a name. -/
def IsFineName (name : String) : Prop :=
  IsNameText name.toList ∧ wordKind name = .name name

/-- Whether a slash behind the word is taken for the beginning of a regular expression. -/
def isHot (word : String) : Bool := (wordKind word).precedesExpression

/-- Whether the text of an expression ends in a property behind which a slash would not divide. -/
def endsHot (least : Nat) : Expr → Bool
  | .dot _ _ property => !(memberLevel < least) && isHot property
  | .prefixOp _ _ operand => !(prefixLevel < least) && endsHot prefixLevel operand
  | .binary _ op _ right =>
    !(binaryLevel + op.precedence < least) && endsHot (binaryLevel + op.precedence + 1) right
  | .conditional _ _ _ no => !(conditionalLevel < least) && endsHot assignmentLevel no
  | .assign _ _ _ value => !(assignmentLevel < least) && endsHot assignmentLevel value
  | .seq _ _ rest => !(sequenceLevel < least) && endsHot sequenceLevel rest
  | _ => false

/-- A regular expression that is read back from its text. -/
structure IsFineRegexp (pattern flags : String) : Prop where
  proper : IsPattern pattern.toList
  nonempty : pattern ≠ ""
  star : pattern.toList.head? ≠ some '*'
  spelling : IsSpelling flags.toList
  unbroken : ∀ c ∈ pattern.toList, isForeignBreak c = false

/-- The condition on an expression. -/
def FaithfulExpr : Expr → Prop
  | .num _ value => Literal.value? (numberText value).toList = some value
  | .name _ name => IsFineName name
  | .regexp _ pattern flags => IsFineRegexp pattern flags
  | .dot _ _ property => IsNameText property.toList
  | .postfixOp _ op _ => op.isUpdate = true
  | .binary _ op left _ =>
    op = .div → endsHot (binaryLevel + op.precedence) left = false
  | .assign _ op target _ =>
    ∀ symbol, op = some symbol → symbol.isCompound = true ∧
      (symbol = .div → endsHot binaryLevel target = false)
  | _ => True

/-- The condition on an accessor: its function has no name of its own. -/
def FaithfulAccessor (key : String) : Function → Prop
  | .mk name _ _ => IsNameText key.toList ∧ name = none

/-- The condition on a property. -/
def FaithfulProperty : Property → Prop
  | .init _ _ => True
  | .getter key fn => FaithfulAccessor key fn
  | .setter key fn => FaithfulAccessor key fn

/-- The condition on a function. -/
def FaithfulFunction : Function → Prop
  | .mk name params body =>
    (∀ n ∈ name, IsFineName n) ∧ (∀ n ∈ params, IsFineName n) ∧ scopedStmts .ofFunction body

/-- The condition on the head of a loop. -/
def FaithfulHead : ForHead → Prop
  | .var defs => defs ≠ []
  | .expr _ => True

/-- The condition on a declaration of a function: it has a name. -/
def IsDeclaration : Function → Prop
  | .mk name _ _ => name.isSome = true

/-- The condition on a statement. -/
def FaithfulStmt : Stmt → Prop
  | .var _ defs => defs ≠ []
  | .const _ defs => defs ≠ []
  | .ifElse _ _ thenBranch (some _) => thenBranch.opensElse = false
  | .forIn _ (.var defs) _ _ => ∃ d, defs = [d]
  | .tryCatch _ _ handler finalizer => handler.isSome = true ∨ finalizer.isSome = true
  | .defun _ fn => IsDeclaration fn
  | .break _ label => ∀ name ∈ label, IsFineName name
  | .continue _ label => ∀ name ∈ label, IsFineName name
  | .labelled _ label _ => IsFineName label
  | _ => True

/-- Whether text can stand in a template: it can stand in a verbatim block. -/
structure IsFineText (text : String) : Prop where
  unbroken : ∀ c ∈ text.toList, isForeignBreak c = false
  unclosed : findPattern "\x7b\x7b/verbatim\x7d\x7d".toList text.toList = none

/-- Whether printed code begins with an opening parenthesis. -/
def beginsWithParenthesis (text : String) : Prop := text.toList.head? = some '('

/-- Whether an expression is a regular expression. -/
def IsRegexp : Expr → Prop
  | .regexp .. => True
  | _ => False

/-- The condition on a chunk. -/
def FaithfulChunk : Chunk → Prop
  | .html _ text => IsFineText text
  | .include _ none name => ¬beginsWithParenthesis (ofExpr name)
  | .each _ none collection _ => beginsWithParenthesis (ofExpr collection) → IsRegexp collection
  | .each _ (some names) _ _ => names ≠ [] ∧ ∀ n ∈ names, IsFineName n
  | .var _ defs => defs ≠ []
  | _ => True

/-- The condition on a part of a tree. -/
def Faithful : Part → Prop
  | .expr e => FaithfulExpr e
  | .property p => FaithfulProperty p
  | .function fn => FaithfulFunction fn
  | .stmt s => FaithfulStmt s
  | .varDef (.mk name _) => IsFineName name
  | .head head => FaithfulHead head
  | .switchCase _ => True
  | .handler (.mk name _) => IsFineName name
  | .chunk c => FaithfulChunk c
  | .elseIf _ => True

end Stencil.Print
