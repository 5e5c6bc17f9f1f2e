import Stencil.Proofs.Parsing.Levels
/-!
# Expressions at their places

The first tokens of printed expressions, and how an expression that is read at its own level is read
at every place it is printed for: bare where it binds tightly enough, else in parentheses.
-/

set_option autoImplicit false

namespace Stencil.Grammar

open Stencil.Lexing (Face)
open Stencil.Print
open Stencil.Syntax
open Stencil.Text (Position)

/-! ## First tokens -/

/-- Whether an expression may begin with the token. -/
def startsExpression : TokenKind → Bool
  | .num _ | .string _ | .name _ | .atom _ | .regexp .. | .keyword .function => true
  | .operator symbol => (UnaryOp.before? symbol).isSome || symbol = "new"
  | .punctuation c => c = '(' || c = '[' || c = '\x7b'
  | _ => false

/-- The tokens begin as an expression does, and not as a labelled statement. -/
def Opens (faces : List Face) : Prop :=
  ∃ x more, faces = x :: more ∧ startsExpression x.kind = true ∧
    ∀ name, x.kind = .name name → ∀ y ∈ more.head?, y.kind ≠ .punctuation ':'

/-- Tokens that begin as an expression, with others behind that do not begin with a colon. -/
theorem Opens.append {faces : List Face} (opens : Opens faces) {y : Face} (more : List Face)
    (other : y.kind ≠ .punctuation ':') : Opens (faces ++ y :: more) := by
  obtain ⟨x, tail, rfl, starts, apart⟩ := opens
  refine ⟨x, tail ++ y :: more, rfl, starts, fun name kind z first => ?_⟩
  cases tail with
  | nil =>
    obtain rfl := Option.some.inj first
    exact other
  | cons w tail => exact apart name kind z first

/-- Tokens that begin with one that is no name. -/
theorem opens_of {x : Face} {more : List Face} (starts : startsExpression x.kind = true)
    (noName : ∀ name, x.kind ≠ .name name) : Opens (x :: more) :=
  ⟨x, more, rfl, starts, fun name kind => absurd kind (noName name)⟩

/-- Tokens in parentheses. -/
theorem opens_enclosed (faces : List Face) : Opens (enclosed faces) :=
  opens_of rfl (by simp [mark])

/-- A single token. -/
theorem opens_single {x : Face} (starts : startsExpression x.kind = true) : Opens [x] :=
  ⟨x, [], rfl, starts, fun _ _ _ first => absurd first (by simp)⟩

/-- Tokens that are put in parentheses at some places. -/
theorem Opens.guarded {faces : List Face} (opens : Opens faces) (least actual : Nat) :
    Opens (guardedFaces least actual faces) := by
  unfold guardedFaces
  split
  · exact opens_enclosed faces
  · exact opens

/-- The tokens of an expression begin as an expression does. -/
theorem exprFaces_opens : ∀ (e : Expr) (least : Nat), Opens (exprFaces least e)
  | .num .., _ => (opens_single rfl).guarded _ _
  | .string .., _ => (opens_single rfl).guarded _ _
  | .name .., _ => (opens_single rfl).guarded _ _
  | .atom .., _ => (opens_single rfl).guarded _ _
  | .regexp .., _ => (opens_enclosed _).guarded _ _
  | .array .., _ => (opens_of rfl (by simp [mark])).guarded _ _
  | .object .., _ => (opens_of rfl (by simp [mark])).guarded _ _
  | .function _ (.mk none ..), _ => (opens_of rfl (by simp [keyword])).guarded _ _
  | .function _ (.mk (some _) ..), _ => (opens_of rfl (by simp [keyword])).guarded _ _
  | .dot _ target _, _ => by
    refine Opens.guarded (Opens.append ?_ _ (by simp [mark])) _ _
    split
    · exact opens_enclosed _
    · exact exprFaces_opens target _
  | .sub _ target _, _ => ((exprFaces_opens target _).append _ (by simp [mark])).guarded _ _
  | .call _ callee _, _ => ((exprFaces_opens callee _).append _ (by simp [mark])).guarded _ _
  | .new .., _ => (opens_of rfl (by simp [operator])).guarded _ _
  | .prefixOp _ op _, _ => by
    refine (opens_of ?_ (by simp [operator])).guarded _ _
    simp [operator, startsExpression, UnaryOp.before?_spelling]
  | .postfixOp _ _ operand, _ => ((exprFaces_opens operand _).append _ (by simp)).guarded _ _
  | .binary _ _ left _, _ => ((exprFaces_opens left _).append _ (by simp [operator])).guarded _ _
  | .conditional _ test _ _, _ =>
    ((exprFaces_opens test _).append _ (by simp [operator])).guarded _ _
  | .assign _ _ target _, _ => ((exprFaces_opens target _).append _ (by simp [operator])).guarded _ _
  | .seq _ first _, _ => ((exprFaces_opens first _).append _ (by simp [mark])).guarded _ _

/-- Before an expression the current token is none with which no expression begins. -/
theorem expr_apart {e : Expr} {least : Nat} {rest : List Face} {c : Cursor}
    (shows : c.Shows (exprFaces least e ++ rest)) {kind : TokenKind}
    (noStart : startsExpression kind = false) : c.token.kind ≠ kind := by
  obtain ⟨x, more, same, starts, -⟩ := exprFaces_opens e least
  rw [same] at shows
  intro here
  rw [← shows.kind, here, noStart] at starts
  exact absurd starts (by decide)

/-- Tokens that begin an operand, with others behind. -/
theorem BeginsOperand.append {faces : List Face} (begins : BeginsOperand faces)
    (more : List Face) : BeginsOperand (faces ++ more) := by
  obtain ⟨x, tail, rfl, plain⟩ := begins
  exact ⟨x, tail ++ more, rfl, plain⟩

/-- Tokens in parentheses begin an operand. -/
theorem beginsOperand_enclosed (faces : List Face) : BeginsOperand (enclosed faces) :=
  ⟨_, _, rfl, rfl⟩

/-- Tokens that are put in parentheses at some places. -/
theorem BeginsOperand.guarded {faces : List Face} {least actual : Nat}
    (begins : least ≤ actual → BeginsOperand faces) :
    BeginsOperand (guardedFaces least actual faces) := by
  unfold guardedFaces
  split
  · exact beginsOperand_enclosed faces
  · rename_i strong
    exact begins (Nat.le_of_not_lt strong)

/-- The tokens of an operand of a member access begin with no operator that has an operand. -/
theorem exprFaces_beginsOperand :
    ∀ (e : Expr) (least : Nat), postfixLevel ≤ least → BeginsOperand (exprFaces least e)
  | .num .., _, _ => .guarded fun _ => ⟨_, _, rfl, rfl⟩
  | .string .., _, _ => .guarded fun _ => ⟨_, _, rfl, rfl⟩
  | .name .., _, _ => .guarded fun _ => ⟨_, _, rfl, rfl⟩
  | .atom .., _, _ => .guarded fun _ => ⟨_, _, rfl, rfl⟩
  | .regexp .., _, _ => .guarded fun _ => ⟨_, _, rfl, rfl⟩
  | .array .., _, _ => .guarded fun _ => ⟨_, _, rfl, rfl⟩
  | .object .., _, _ => .guarded fun _ => ⟨_, _, rfl, rfl⟩
  | .function _ (.mk none ..), _, _ => .guarded fun _ => ⟨_, _, rfl, rfl⟩
  | .function _ (.mk (some _) ..), _, _ => .guarded fun _ => ⟨_, _, rfl, rfl⟩
  | .dot _ target _, _, _ => .guarded fun _ => by
    refine BeginsOperand.append ?_ _
    split
    · exact beginsOperand_enclosed _
    · exact exprFaces_beginsOperand target _ (by decide)
  | .sub _ target _, _, _ => .guarded fun _ =>
    (exprFaces_beginsOperand target _ (by decide)).append _
  | .call _ callee _, _, _ => .guarded fun _ =>
    (exprFaces_beginsOperand callee _ (by decide)).append _
  | .new .., _, _ => .guarded fun _ => ⟨_, _, rfl, by decide⟩
  | .prefixOp .., _, strong => .guarded fun weak =>
    absurd (Nat.le_trans strong weak) (by decide)
  | .postfixOp _ _ operand, _, _ => .guarded fun _ =>
    (exprFaces_beginsOperand operand _ (by decide)).append _
  | .binary _ op _ _, _, strong => .guarded fun weak => by
    have bounds := op.precedence_bounds
    have : postfixLevel ≤ binaryLevel + op.precedence := Nat.le_trans strong weak
    simp only [postfixLevel, binaryLevel] at this
    omega
  | .conditional .., _, strong => .guarded fun weak =>
    absurd (Nat.le_trans strong weak) (by decide)
  | .assign .., _, strong => .guarded fun weak => absurd (Nat.le_trans strong weak) (by decide)
  | .seq .., _, strong => .guarded fun weak => absurd (Nat.le_trans strong weak) (by decide)

/-- The tokens of an expression at a place are those at the weakest place, in parentheses where it
binds more weakly than its place asks for. -/
theorem exprFaces_eq (least : Nat) (e : Expr) :
    exprFaces least e = guardedFaces least (strength e) (exprFaces sequenceLevel e) := by
  cases e with
  | seq => rfl
  | _ => simp [guardedFaces, strength, sequenceLevel]

/-- An expression that binds tightly enough stands bare. -/
theorem exprFaces_bare {least : Nat} {e : Expr} (strong : least ≤ strength e) :
    exprFaces least e = exprFaces sequenceLevel e := by
  rw [exprFaces_eq, guardedFaces, if_neg (Nat.not_lt.2 strong)]

/-- An expression that binds too weakly stands in parentheses. -/
theorem exprFaces_paren {least : Nat} {e : Expr} (weak : strength e < least) :
    exprFaces least e = enclosed (exprFaces sequenceLevel e) := by
  rw [exprFaces_eq, guardedFaces, if_pos weak]

/-! ## Reading at every place -/

/-- The expression is read back wherever it is printed. -/
structure Readable (o : Options) (e : Expr) : Prop where
  sequence : ReadsSequence o (containsIn e) (exprFaces sequenceLevel e) e
  assignment : ReadsAssignment o (containsIn e) (exprFaces assignmentLevel e) e
  operators (least : Nat) (place : binaryLevel ≤ least) (weak : least < postfixLevel) :
    ReadsOperators o (containsIn e) least (exprFaces least e) e
  unary : ReadsUnary o (exprFaces prefixLevel e) e
  member (calls : Bool) (plain : calls = false → hasCall e = false) :
    ReadsMember o calls (exprFaces memberLevel e) e

section

variable {o : Options} {bareIn : Bool} {e : Expr}

/-- The tokens of an expression are not empty. -/
theorem exprFaces_ne_nil (least : Nat) (e : Expr) : exprFaces least e ≠ [] := by
  obtain ⟨x, more, same, -⟩ := exprFaces_opens e least
  simp [same]

/-- The strengths of places, as numbers. -/
theorem levels : sequenceLevel = 0 ∧ assignmentLevel = 1 ∧ conditionalLevel = 2 ∧ binaryLevel = 3 ∧
    prefixLevel = 14 ∧ postfixLevel = 15 ∧ memberLevel = 16 := ⟨rfl, rfl, rfl, rfl, rfl, rfl, rfl⟩

/-- An operand is an operand of unary operators. -/
theorem ReadsSequence.unary (reads : ReadsSequence o (containsIn e) (exprFaces sequenceLevel e) e) :
    ReadsUnary o (Print.enclosed (exprFaces sequenceLevel e)) e :=
  (reads.enclosed true).unary (beginsOperand_enclosed _)

/-- In parentheses an expression is read as an operand of binary operators. -/
theorem ReadsSequence.operators (reads : ReadsSequence o (containsIn e) (exprFaces sequenceLevel e) e)
    {least : Nat} (weak : least < postfixLevel) :
    ReadsOperators o bareIn least (Print.enclosed (exprFaces sequenceLevel e)) e :=
  reads.unary.operators (by simp [Print.enclosed]) weak

/-- A sequence stands bare at the weakest places only. -/
theorem Readable.ofSequence (bare : ReadsSequence o (containsIn e) (exprFaces sequenceLevel e) e)
    (weak : strength e < assignmentLevel) : Readable o e where
  sequence := bare
  assignment := by
    rw [exprFaces_paren weak]
    exact (bare.operators (by decide)).conditional.assignment
  operators least place below := by
    rw [exprFaces_paren (by simp only [levels] at *; omega)]
    exact bare.operators below
  unary := by
    rw [exprFaces_paren (by simp only [levels] at *; omega)]
    exact bare.unary
  member calls _ := by
    rw [exprFaces_paren (by simp only [levels] at *; omega)]
    exact bare.enclosed calls

/-- An assignment, or what binds tighter, that is no operand of binary operators. -/
theorem Readable.ofAssignment (bare : ReadsAssignment o (containsIn e) (exprFaces sequenceLevel e) e)
    (strong : assignmentLevel ≤ strength e) (weak : strength e < binaryLevel) : Readable o e where
  sequence := bare.sequence
  assignment := by
    rw [exprFaces_bare strong]
    exact bare
  operators least place below := by
    rw [exprFaces_paren (Nat.lt_of_lt_of_le weak place)]
    exact bare.sequence.operators below
  unary := by
    rw [exprFaces_paren (by simp only [levels] at *; omega)]
    exact bare.sequence.unary
  member calls _ := by
    rw [exprFaces_paren (by simp only [levels] at *; omega)]
    exact bare.sequence.enclosed calls

/-- An expression with a binary operator. -/
theorem Readable.ofOperators
    (bare : ∀ least, binaryLevel ≤ least → least ≤ strength e →
      ReadsOperators o (containsIn e) least (exprFaces sequenceLevel e) e)
    (strong : binaryLevel ≤ strength e) (weak : strength e < prefixLevel) : Readable o e := by
  have sequence := (bare _ (Nat.le_refl _) strong).conditional.assignment.sequence
  refine
    { sequence, assignment := ?_, operators := fun least place below => ?_, unary := ?_,
      member := fun calls _ => ?_ }
  · rw [exprFaces_bare (by simp only [levels] at *; omega)]
    exact (bare _ (Nat.le_refl _) strong).conditional.assignment
  · by_cases inside : least ≤ strength e
    · rw [exprFaces_bare inside]
      exact bare least place inside
    · rw [exprFaces_paren (Nat.lt_of_not_le inside)]
      exact sequence.operators below
  · rw [exprFaces_paren weak]
    exact sequence.unary
  · rw [exprFaces_paren (by simp only [levels] at *; omega)]
    exact sequence.enclosed calls

/-- An expression with an operator before or behind its operand. -/
theorem Readable.ofUnary (bare : ReadsUnary o (exprFaces sequenceLevel e) e)
    (strong : prefixLevel ≤ strength e) (weak : strength e < memberLevel) : Readable o e := by
  have operators (least : Nat) (below : least < postfixLevel) :
      ReadsOperators o (containsIn e) least (exprFaces sequenceLevel e) e :=
    bare.operators (exprFaces_ne_nil _ _) below
  have assignment := (operators binaryLevel (by decide)).conditional.assignment
  refine
    { sequence := assignment.sequence, assignment := ?_, operators := fun least _ below => ?_,
      unary := ?_, member := fun calls _ => ?_ }
  · rw [exprFaces_bare (by simp only [levels] at *; omega)]
    exact assignment
  · rw [exprFaces_bare (by simp only [levels] at *; omega)]
    exact operators least below
  · rw [exprFaces_bare strong]
    exact bare
  · rw [exprFaces_paren weak]
    exact assignment.sequence.enclosed calls

/-- An operand without operators. -/
theorem Readable.ofMember
    (bare : ∀ calls, (calls = false → hasCall e = false) →
      ReadsMember o calls (exprFaces sequenceLevel e) e)
    (strong : memberLevel ≤ strength e) : Readable o e := by
  have begins : BeginsOperand (exprFaces sequenceLevel e) := by
    rw [← exprFaces_bare strong]
    exact exprFaces_beginsOperand e _ (by decide)
  have unary := (bare true (by simp)).unary begins
  have operators (least : Nat) (below : least < postfixLevel) :
      ReadsOperators o (containsIn e) least (exprFaces sequenceLevel e) e :=
    unary.operators (exprFaces_ne_nil _ _) below
  have assignment := (operators binaryLevel (by decide)).conditional.assignment
  refine
    { sequence := assignment.sequence, assignment := ?_, operators := fun least _ below => ?_,
      unary := ?_, member := fun calls plain => ?_ }
  · rw [exprFaces_bare (by simp only [levels] at *; omega)]
    exact assignment
  · rw [exprFaces_bare (by simp only [levels] at *; omega)]
    exact operators least below
  · rw [exprFaces_bare (by simp only [levels] at *; omega)]
    exact unary
  · rw [exprFaces_bare strong]
    exact bare calls plain

end

end Stencil.Grammar
