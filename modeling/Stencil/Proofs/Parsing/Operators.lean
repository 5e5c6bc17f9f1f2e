import Stencil.Proofs.Parsing.Functions
/-!
# Reading operators

Expressions with unary and binary operators, conditional expressions, assignments and sequences are
read back, given that their operands are. A binary operator is followed through the climbing of
precedences: its left operand is read with the bound of the whole, its right one with the precedence
of the operator itself.
-/

set_option autoImplicit false

namespace Stencil.Grammar

open Stencil.Lexing (Face)
open Stencil.Print
open Stencil.Syntax
open Stencil.Text (Position Span)

section

variable {o : Options} {rest : List Face} {x : Face} {c : Cursor} {e : Expr}

/-! ## Unary operators -/

/-- Parsing that is not strict takes every expression for assignable. -/
theorem isAssignable_lenient (e : Expr) : Parser.isAssignable false e = true := by
  cases e <;> rfl

/-- Parsing that is not strict accepts every update. -/
theorem ends_checkUpdate (lenient : o.strict = false) (op : UnaryOp) (operand : Expr)
    {good : Unit → Cursor → Prop} {bad : Failure → Prop} :
    Ends (Parser.checkUpdate op operand) o c good bad ↔ good () c := by
  simp only [Parser.checkUpdate, ends_bind, ends_read, lenient, isAssignable_lenient, Bool.not_true,
    Bool.and_false, Bool.false_eq_true, if_false, ends_pure]

/-- Operators before an operand. -/
theorem reads_prefixOp (lenient : o.strict = false) (span : Option Span) (op : UnaryOp)
    (operand : Expr) (ih : ExprReads o operand) : ExprReads o (.prefixOp span op operand) := by
  intro faithful
  rw [Expr.parts, everywhere_cons] at faithful
  refine .ofUnary ?_ (Nat.le_refl _) (show prefixLevel < memberLevel by decide)
  intro n noIn rest c room follows shows
  have same : exprFaces sequenceLevel (.prefixOp span op operand)
      = operator op.spelling :: exprFaces prefixLevel operand := rfl
  rw [same, List.cons_append] at shows
  rw [same, List.length_cons] at room
  obtain ⟨n, rfl⟩ := Nat.exists_eq_succ_of_ne_zero (n := n) (by omega)
  have kind : c.token.kind = .operator op.spelling := shows.kind
  have before : Parser.operatorBefore c.token.kind = some op := by
    rw [kind, Parser.operatorBefore, UnaryOp.before?_spelling]
  rw [unary_eq]
  simp only [prefixed, ends_bind, ends_startOfToken, ends_currentKind, before, upTo_unary,
    ends_checkUpdate lenient, ends_spanFrom, ends_pure]
  refine advance_shown (by simp [exprFaces_ne_nil]) shows fun c shows => ?_
  refine ((ih faithful.2).unary n noIn rest c (by omega) follows shows).mono ?_ fun _ bad => bad
  rintro result behind ⟨erased, shows⟩
  exact ⟨by simp only [Expr.eraseSpans, erased], shows⟩

/-- Operators behind an operand. -/
theorem reads_postfixOp (lenient : o.strict = false) (span : Option Span) (op : UnaryOp)
    (operand : Expr) (ih : ExprReads o operand) : ExprReads o (.postfixOp span op operand) := by
  intro faithful
  rw [Expr.parts, everywhere_cons] at faithful
  have update : op.isUpdate = true := faithful.1
  have table : ∀ op ∈ UnaryOp.all, op.isUpdate = true → UnaryOp.behind? op.spelling = some op := by
    decide
  have known := table op (by cases op <;> decide) update
  refine .ofUnary ?_ (show prefixLevel ≤ postfixLevel by decide)
    (show postfixLevel < memberLevel by decide)
  intro n noIn rest c room follows shows
  have same : exprFaces sequenceLevel (.postfixOp span op operand)
      = exprFaces memberLevel operand ++ [{ kind := .operator op.spelling, joined := true }] := rfl
  rw [same, List.append_assoc] at shows
  rw [same, List.length_append] at room
  have plain : Parser.operatorBefore c.token.kind = none := by
    obtain ⟨y, more, begins, plain⟩ := exprFaces_beginsOperand operand memberLevel (by decide)
    rw [begins] at shows
    rw [shows.kind, plain]
  simp only [unary_eq, ends_bind, ends_startOfToken, ends_currentKind, plain]
  refine (ih faithful.2).member true (by simp) n _ c _ (by omega) (by simp) shows
    fun k start result behind enough read => ?_
  have weak : Follows noIn memberLevel
      ([{ kind := .operator op.spelling, joined := true }] ++ rest) := by
    refine follows_of_some (b := postfixLevel) ?_ (by decide)
    simp [binds, bindsOperator, known]
  refine (subscripts_end weak enough read).mono ?_ fun _ bad => bad
  rintro result behind ⟨erased, shows⟩
  obtain ⟨y, more, rfl⟩ := List.exists_cons_of_ne_nil follows.ne_nil
  refine loop_shown shows fun k enough => ?_
  obtain ⟨k, rfl⟩ := Nat.exists_eq_succ_of_ne_zero (n := k)
    (by simp only [List.length_append, List.length_cons] at enough; omega)
  have kind : behind.token.kind = .operator op.spelling := shows.kind
  have near : behind.token.afterBreak = false := shows.1.joined rfl
  have operator_ : Parser.operatorBehind behind.token = some op := by
    rw [Parser.operatorBehind, kind]
    simp [near, known]
  rw [ends_loopWithin]
  simp only [postfixStep, ends_bind, ends_current, operator_, ends_checkUpdate lenient,
    ends_spanFrom, ends_pure]
  refine advance_shown (by simp) shows fun c shows => ?_
  refine updates_end follows ?_ ⟨by simp only [Expr.eraseSpans, erased], shows⟩
  simp only [List.length_append, List.length_cons] at enough ⊢
  omega

/-! ## Binary operators -/

/-- An operator that binds tighter than the bound is read with its right operand, and the whole is the
left operand of what follows. -/
theorem ends_operators {rules : Rules} {left : Expr} {start : Position} {bound : Nat} {noIn : Bool}
    {op : BinaryOp} (known : Parser.binaryOperator noIn c.token.kind = some op)
    (strong : ¬op.precedence ≤ bound) {good : Expr → Cursor → Prop} {bad : Failure → Prop} :
    Ends (Parser.operators rules left start bound noIn) o c good bad ↔
      Ends Parser.advance o c (fun _ behind =>
        Ends (do
          rules.operators (← Parser.unary rules true) behind.token.span.start op.precedence noIn) o
          behind (fun right behind =>
            Ends (rules.operators (.binary (spanAt o behind start) op left right) start bound noIn) o
              behind good bad) bad) bad := by
  simp only [Parser.operators, ends_bind, ends_currentKind, known, if_neg strong, ends_startOfToken,
    ends_spanFrom]

/-- Binary operators. -/
theorem reads_binary (span : Option Span) (op : BinaryOp) (left right : Expr)
    (ih : ExprReads o left) (ih' : ExprReads o right) : ExprReads o (.binary span op left right) := by
  intro faithful
  rw [Expr.parts, everywhere_cons, everywhere_append] at faithful
  have bounds := op.precedence_bounds
  have level : strength (.binary span op left right) = binaryLevel + op.precedence := rfl
  refine .ofOperators (fun least place inside => ?_) (by rw [level]; omega)
    (by rw [level]; simp only [levels]; omega)
  intro n m bound noIn start rest c good room room' weak allowed follows shows then_
  rw [level] at inside
  have same : exprFaces sequenceLevel (.binary span op left right)
      = exprFaces (binaryLevel + op.precedence) left ++
        operator op.spelling :: exprFaces (binaryLevel + op.precedence + 1) right := rfl
  rw [same] at shows room room' then_
  simp only [List.append_assoc, List.cons_append] at shows
  simp only [List.length_append, List.length_cons] at room room' then_
  have notIn : noIn = true → op ≠ .in ∧ containsIn left = false ∧ containsIn right = false := by
    intro noIn
    simpa [containsIn, and_assoc] using allowed noIn
  have known : Parser.binaryOperator noIn (.operator op.spelling) = some op := by
    have other : (noIn && op.spelling = "in") = false := by
      cases noIn with
      | false => rfl
      | true =>
        have table : ∀ op ∈ BinaryOp.all, op ≠ .in → op.spelling ≠ "in" := by decide
        simpa using table op op.mem_all (notIn rfl).1
    rw [Parser.binaryOperator, other, BinaryOp.ofSpelling?_spelling]
    rfl
  have strong : ¬op.precedence ≤ bound := by
    rcases weak with weak | rfl <;> omega
  refine (ih faithful.2.1).operators _ (by omega) (by simp only [levels]; omega) n m bound noIn start _
    c good (by omega) (by omega) ?_ (fun noIn => (notIn noIn).2.1)
    (follows_of_some (binds_binary known) (by omega)) shows ?_
  · rcases weak with weak | rfl
    · exact .inl (by omega)
    · exact .inr rfl
  · rintro k result behind enough ⟨left_, shows⟩
    obtain ⟨k, rfl⟩ := Nat.exists_eq_succ_of_ne_zero (n := k) (by omega)
    have here : Parser.binaryOperator noIn behind.token.kind = some op := by
      rw [shows.kind]
      exact known
    rw [ends_operators here strong, upTo_operators]
    refine advance_shown (by simp [exprFaces_ne_nil]) shows fun c shows => ?_
    refine (ih' faithful.2.2).operators (binaryLevel + op.precedence + 1) (by omega)
      (by simp only [levels]; omega) (k + 1) k op.precedence noIn _ rest c _
      (by omega) (by omega) (.inl (by omega)) (fun noIn => (notIn noIn).2.2)
      (follows.mono (by omega)) shows ?_
    intro k' result' behind' _ read
    refine (operators_end (follows.mono (by omega)) read).mono ?_ fun _ bad => bad
    rintro right behind ⟨right_, shows⟩
    refine then_ k _ behind (by omega) ⟨?_, shows⟩
    simp only [Expr.eraseSpans, left_, right_]

/-! ## Conditional expressions, assignments and sequences -/

/-- Conditional expressions. -/
theorem reads_conditional (span : Option Span) (test yes no : Expr) (ih : ExprReads o test)
    (ih' : ExprReads o yes) (ih'' : ExprReads o no) :
    ExprReads o (.conditional span test yes no) := by
  intro faithful
  rw [Expr.parts, everywhere_cons, everywhere_append, everywhere_append] at faithful
  obtain ⟨-, ⟨first, second⟩, third⟩ := faithful
  refine .ofAssignment ?_ (show assignmentLevel ≤ conditionalLevel by decide)
    (show conditionalLevel < binaryLevel by decide)
  intro n noIn rest c room allowed follows shows
  have same : exprFaces sequenceLevel (.conditional span test yes no)
      = exprFaces binaryLevel test ++ operator "?" ::
        (exprFaces assignmentLevel yes ++ mark ':' :: exprFaces assignmentLevel no) := rfl
  rw [same] at shows room
  simp only [List.append_assoc, List.cons_append] at shows
  simp only [List.length_append, List.length_cons] at room
  obtain ⟨n, rfl⟩ := Nat.exists_eq_succ_of_ne_zero (n := n) (by omega)
  have notIn : noIn = true → containsIn test = false ∧ containsIn no = false := by
    intro noIn
    have both := allowed noIn
    simp only [containsIn, Bool.or_eq_false_iff] at both
    exact ⟨both.1.1, both.2⟩
  refine assignment_end follows ?_
  rw [conditional_eq, ends_bind, ends_startOfToken, ends_bind]
  refine (ih first).operators binaryLevel (Nat.le_refl _) (by decide) (n + 1) (n + 1) 0 noIn _ _ c _
    (by omega) (by omega) (.inr rfl) (fun noIn => (notIn noIn).1)
    (follows_of_some (b := conditionalLevel) (by cases noIn <;> rfl) (by decide)) shows ?_
  intro k result behind _ read
  refine (operators_end (follows_of_some (b := conditionalLevel) (by cases noIn <;> rfl) (by decide))
    read).mono ?_ fun _ bad => bad
  rintro test_ behind ⟨testSame, shows⟩
  have kind : behind.token.kind = .operator "?" := shows.kind
  simp only [conditionalRest, ends_bind, ends_atOperator, Token.isOperator, kind, decide_true, if_true,
    upTo_expression, ends_spanFrom, ends_pure]
  refine advance_shown (by simp [exprFaces_ne_nil]) shows fun c shows => ?_
  refine ((ih' second).assignment.expression (by omega) (by simp) (follows_of_none rfl) shows).mono ?_
    fun _ bad => bad
  rintro yes_ behind ⟨yesSame, shows⟩
  refine expectPunctuation_shown (by simp [exprFaces_ne_nil]) shows rfl fun c shows => ?_
  refine ((ih'' third).assignment.expression (by omega) (fun noIn => (notIn noIn).2) follows
    shows).mono ?_ fun _ bad => bad
  rintro no_ behind ⟨noSame, shows⟩
  exact ⟨by simp only [Expr.eraseSpans, testSame, yesSame, noSame], shows⟩

/-- The symbol of an assignment. -/
def assignmentSymbol : Option BinaryOp → String
  | none => "="
  | some op => op.spelling ++ "="

/-- An assignment is read back from its symbol. -/
theorem assignmentOperator_symbol {op : Option BinaryOp}
    (compound : ∀ symbol, op = some symbol → symbol.isCompound = true) :
    Parser.assignmentOperator (.operator (assignmentSymbol op)) = some op := by
  cases op with
  | none => rfl
  | some op =>
    have table : ∀ op ∈ BinaryOp.all, op.isCompound = true →
        Parser.assignmentOperator (.operator (op.spelling ++ "=")) = some (some op) := by
      decide
    exact table op op.mem_all (compound op rfl)

/-- Assignments. -/
theorem reads_assign (lenient : o.strict = false) (span : Option Span) (op : Option BinaryOp)
    (target value : Expr) (ih : ExprReads o target) (ih' : ExprReads o value) :
    ExprReads o (.assign span op target value) := by
  intro faithful
  rw [Expr.parts, everywhere_cons, everywhere_append] at faithful
  obtain ⟨compound, first, second⟩ := faithful
  have known : Parser.assignmentOperator (.operator (assignmentSymbol op)) = some op :=
    assignmentOperator_symbol fun symbol same => (compound symbol same).1
  refine .ofAssignment ?_ (Nat.le_refl _) (show assignmentLevel < binaryLevel by decide)
  intro n noIn rest c room allowed follows shows
  have same : exprFaces sequenceLevel (.assign span op target value)
      = exprFaces binaryLevel target ++
        operator (assignmentSymbol op) :: exprFaces assignmentLevel value := by
    cases op <;> rfl
  rw [same] at shows room
  simp only [List.append_assoc, List.cons_append] at shows
  simp only [List.length_append, List.length_cons] at room
  obtain ⟨n, rfl⟩ := Nat.exists_eq_succ_of_ne_zero (n := n) (by omega)
  have notIn : noIn = true → containsIn target = false ∧ containsIn value = false := by
    intro noIn
    simpa [containsIn] using allowed noIn
  have target_ : ReadsConditional o (containsIn target) (exprFaces binaryLevel target) target :=
    ((ih first).operators binaryLevel (Nat.le_refl _) (by decide)).conditional
  simp only [Parser.assignment, ends_bind, ends_startOfToken, ends_currentKind]
  refine (target_ (n + 1) noIn _ c (by omega) (fun noIn => (notIn noIn).1)
    (follows_of_some (binds_assignment known) (by decide)) shows).mono ?_ fun _ bad => bad
  rintro result behind ⟨targetSame, shows⟩
  have kind : behind.token.kind = .operator (assignmentSymbol op) := shows.kind
  simp only [kind, known, ends_bind, ends_read, lenient, isAssignable_lenient, Bool.not_true,
    Bool.false_eq_true, if_false, upTo_assignment, ends_spanFrom, ends_pure]
  refine advance_shown (by simp [exprFaces_ne_nil]) shows fun c shows => ?_
  refine ((ih' second).assignment n noIn rest c (by omega) (fun noIn => (notIn noIn).2) follows
    shows).mono ?_ fun _ bad => bad
  rintro value_ behind ⟨valueSame, shows⟩
  exact ⟨by simp only [Expr.eraseSpans, targetSame, valueSame], shows⟩

/-- Sequences. -/
theorem reads_seq (span : Option Span) (first more : Expr) (ih : ExprReads o first)
    (ih' : ExprReads o more) : ExprReads o (.seq span first more) := by
  intro faithful
  rw [Expr.parts, everywhere_cons, everywhere_append] at faithful
  refine .ofSequence ?_ (show sequenceLevel < assignmentLevel by decide)
  intro n noIn rest c room allowed follows shows
  have same : exprFaces sequenceLevel (.seq span first more)
      = exprFaces assignmentLevel first ++ mark ',' :: exprFaces sequenceLevel more := rfl
  rw [same] at shows room
  simp only [List.append_assoc, List.cons_append] at shows
  simp only [List.length_append, List.length_cons] at room
  obtain ⟨n, rfl⟩ := Nat.exists_eq_succ_of_ne_zero (n := n) (by omega)
  have notIn : noIn = true → containsIn first = false ∧ containsIn more = false := by
    intro noIn
    simpa [containsIn] using allowed noIn
  simp only [Parser.expression, ends_bind, ends_startOfToken, ends_atPunctuation]
  refine ((ih faithful.2.1).assignment (n + 1) noIn _ c (by omega) (fun noIn => (notIn noIn).1)
    (follows_of_some (b := sequenceLevel) rfl (by decide)) shows).mono ?_ fun _ bad => bad
  rintro result behind ⟨firstSame, shows⟩
  have kind : behind.token.kind = .punctuation ',' := shows.kind
  simp only [Token.isPunctuation, kind, decide_true, Bool.and_true, if_true, ends_bind,
    upTo_expression, ends_spanFrom, ends_pure]
  refine advance_shown (by simp [exprFaces_ne_nil]) shows fun c shows => ?_
  refine ((ih' faithful.2.2).sequence n noIn rest c (by omega) (fun noIn => (notIn noIn).2) follows
    shows).mono ?_ fun _ bad => bad
  rintro more_ behind ⟨moreSame, shows⟩
  exact ⟨by simp only [Expr.eraseSpans, firstSame, moreSame], shows⟩

end

end Stencil.Grammar
