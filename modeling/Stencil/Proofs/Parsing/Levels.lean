import Stencil.Proofs.Parsing.Shown
import Stencil.Print.Source
import Stencil.Proofs.Printing.Faces
import Stencil.Syntax.Erase
/-!
# The levels of the expression grammar

What it means that tokens are read as an expression by the rule for each level of the grammar, up to
the spans. Operands come with a continuation: what stands behind them is read by the loop over member
accesses, or by the loop over binary operators, which the operand was read for. An expression that is
read at one level is read at every weaker one, and in parentheses at every level.

A token continues the expression before it with some strength. An expression that is read for a
place ends before every token that binds more weakly than the place asks for.
-/

set_option autoImplicit false

/-! ## What follows an expression -/

namespace Stencil.Grammar

open Stencil.Lexing (Face)
open Stencil.Print
open Stencil.Syntax

/-- The strength with which an operator continues the expression before it. -/
def bindsOperator (noIn : Bool) (symbol : String) : Option Nat :=
  if (UnaryOp.behind? symbol).isSome then some postfixLevel
  else
    match Parser.binaryOperator noIn (.operator symbol) with
    | some op => some (binaryLevel + op.precedence)
    | none =>
      if symbol = "?" then some conditionalLevel
      else if (Parser.assignmentOperator (.operator symbol)).isSome then some assignmentLevel
      else none

/-- The strength with which a token continues the expression before it. -/
def binds (noIn : Bool) : TokenKind → Option Nat
  | .punctuation c =>
    if c = '.' || c = '[' || c = '(' then some memberLevel
    else if c = ',' then some sequenceLevel
    else none
  | .operator symbol => bindsOperator noIn symbol
  | _ => none

/-- The tokens begin with one that continues no expression at a place of the given strength. -/
def Follows (noIn : Bool) (least : Nat) (rest : List Face) : Prop :=
  ∃ x more, rest = x :: more ∧ ∀ b, binds noIn x.kind = some b → b < least

section Follows

variable {noIn : Bool} {least : Nat} {rest : List Face}

/-- A place that asks for more. -/
theorem Follows.mono {greater : Nat} (follows : Follows noIn least rest)
    (le : least ≤ greater) : Follows noIn greater rest := by
  obtain ⟨x, more, rfl, weak⟩ := follows
  exact ⟨x, more, rfl, fun b known => Nat.lt_of_lt_of_le (weak b known) le⟩

/-- Something follows. -/
theorem Follows.ne_nil (follows : Follows noIn least rest) : rest ≠ [] := by
  obtain ⟨x, more, rfl, -⟩ := follows
  simp

/-- A token that continues nothing. -/
theorem follows_of_none {x : Face} {more : List Face} (other : binds noIn x.kind = none) :
    Follows noIn least (x :: more) :=
  ⟨x, more, rfl, fun b known => absurd known (by simp [other])⟩

/-- A token that continues only expressions at weaker places. -/
theorem follows_of_some {x : Face} {more : List Face} {b : Nat} (known : binds noIn x.kind = some b)
    (weak : b < least) : Follows noIn least (x :: more) :=
  ⟨x, more, rfl, fun b' known' => by
    rw [known] at known'
    exact Option.some.inj known' ▸ weak⟩

end Follows

end Stencil.Grammar

namespace Stencil.Grammar

open Stencil.Lexing (Face)
open Stencil.Print
open Stencil.Syntax
open Stencil.Text (Position)

/-! ## Rules by depth -/

@[simp] theorem upTo_expression (n : Nat) :
    (Rules.upTo (n + 1)).expression = Parser.expression (Rules.upTo n) := rfl

@[simp] theorem upTo_assignment (n : Nat) :
    (Rules.upTo (n + 1)).assignment = Parser.assignment (Rules.upTo n) := rfl

@[simp] theorem upTo_operators (n : Nat) :
    (Rules.upTo (n + 1)).operators = Parser.operators (Rules.upTo n) := rfl

@[simp] theorem upTo_unary (n : Nat) :
    (Rules.upTo (n + 1)).unary = Parser.unary (Rules.upTo n) := rfl

@[simp] theorem upTo_primary (n : Nat) :
    (Rules.upTo (n + 1)).primary = Parser.primary (Rules.upTo n) := rfl

@[simp] theorem upTo_statement (n : Nat) :
    (Rules.upTo (n + 1)).statement = Parser.statement (Rules.upTo n) := rfl

@[simp] theorem upTo_chunk (n : Nat) : (Rules.upTo (n + 1)).chunk = Parser.chunk (Rules.upTo n) := rfl

/-! ## Steps of loops -/

/-- One member access or call behind an operand. -/
def subscriptStep (rules : Rules) (start : Position) (calls : Bool) (operand : Expr) :
    Parser (Expr ⊕ Expr) := do
  if ← Parser.atPunctuation '.' then
    Parser.advance
    let name ← Parser.anyName
    return .inl (.dot (← Parser.spanFrom start) operand name)
  else if ← Parser.atPunctuation '[' then
    Parser.advance
    let index ← rules.expression true false
    Parser.expectPunctuation ']'
    return .inl (.sub (← Parser.spanFrom start) operand index)
  else if calls && (← Parser.atPunctuation '(') then
    Parser.advance
    let args ← Parser.expressionList rules ')' false false
    return .inl (.call (← Parser.spanFrom start) operand args)
  else return .inr operand

/-- Member accesses and calls are read step by step. -/
theorem subscripts_eq (rules : Rules) (operand : Expr) (start : Position) (calls : Bool) :
    Parser.subscripts rules operand start calls
      = Parser.loop (subscriptStep rules start calls) operand := rfl

/-- A `new` expression from behind the operator, without what stands behind its arguments. -/
def newOperand (rules : Rules) (start : Position) : Parser Expr := do
  let callee ← rules.primary false
  let args ←
    if ← Parser.atPunctuation '(' then do
      Parser.advance
      Parser.expressionList rules ')' false false
    else pure []
  return .new (← Parser.spanFrom start) callee args

/-- Behind a `new` expression stand member accesses and calls. -/
theorem newExpression_eq (rules : Rules) (start : Position) :
    Parser.newExpression rules start = (do
      let operand ← newOperand rules start
      Parser.subscripts rules operand start true) := by
  unfold Parser.newExpression newOperand
  simp only [bind_assoc, pure_bind]
  refine bind_congr fun callee => bind_congr fun opened => ?_
  split <;> simp only [bind_assoc, pure_bind]

/-- An operand without the member accesses and calls behind it. -/
def bareOperand (rules : Rules) (start : Position) : Parser Expr := do
  if ← Parser.atOperator "new" then
    Parser.advance
    newOperand rules start
  else if ← Parser.atPunctuation '(' then
    Parser.advance
    let inner ← rules.expression true false
    Parser.expectPunctuation ')'
    return inner
  else Parser.atom rules start

/-- One update behind an operand. -/
def postfixStep (start : Position) (operand : Expr) : Parser (Expr ⊕ Expr) := do
  match Parser.operatorBehind (← Parser.current) with
  | some op =>
    Parser.advance
    Parser.checkUpdate op operand
    return .inl (.postfixOp (← Parser.spanFrom start) op operand)
  | none => return .inr operand

/-- A unary operator with its operand. -/
def prefixed (rules : Rules) (calls : Bool) (start : Position) (op : UnaryOp) : Parser Expr := do
  Parser.advance
  let operand ← rules.unary calls
  Parser.checkUpdate op operand
  return .prefixOp (← Parser.spanFrom start) op operand

/-- An operand with the operators before and behind it. -/
theorem unary_eq (rules : Rules) (calls : Bool) :
    Parser.unary rules calls = (do
      let start ← Parser.startOfToken
      match Parser.operatorBefore (← Parser.currentKind) with
      | some op => prefixed rules calls start op
      | none => Parser.loop (postfixStep start) (← Parser.primary rules calls)) := rfl

/-- The right operand of a binary operator, from before the operator. -/
def rightOperand (rules : Rules) (op : BinaryOp) (noIn : Bool) : Parser Expr := do
  Parser.advance
  let start ← Parser.startOfToken
  let operand ← Parser.unary rules true
  rules.operators operand start op.precedence noIn

/-- A binary operator joins the left operand and its right one, and others may stand behind. -/
theorem operators_eq (rules : Rules) (left : Expr) (start : Position) (bound : Nat) (noIn : Bool) :
    Parser.operators rules left start bound noIn = (do
      match Parser.binaryOperator noIn (← Parser.currentKind) with
      | none => return left
      | some op =>
        if op.precedence ≤ bound then return left
        else
          let right ← rightOperand rules op noIn
          rules.operators (.binary (← Parser.spanFrom start) op left right) start bound noIn) := by
  unfold Parser.operators rightOperand
  simp only [bind_assoc] <;> rfl

/-- What is read behind the first operand of a conditional expression. -/
def conditionalRest (rules : Rules) (noIn : Bool) (start : Position) (test : Expr) : Parser Expr := do
  if ← Parser.atOperator "?" then
    Parser.advance
    let yes ← rules.expression false false
    Parser.expectPunctuation ':'
    let no ← rules.expression false noIn
    return .conditional (← Parser.spanFrom start) test yes no
  else return test

/-- A conditional expression begins with binary operators. -/
theorem conditional_eq (rules : Rules) (noIn : Bool) :
    Parser.conditional rules noIn = (do
      let start ← Parser.startOfToken
      let test ← (do Parser.operators rules (← Parser.unary rules true) start 0 noIn)
      conditionalRest rules noIn start test) := by
  simp only [bind_assoc]
  rfl

/-- What is read behind the target of an assignment. -/
def assignmentRest (rules : Rules) (noIn : Bool) (start : Position) (target : Expr) :
    Parser Expr := do
  match Parser.assignmentOperator (← Parser.currentKind) with
  | none => return target
  | some op =>
    if !Parser.isAssignable (← read).strict target then Parser.faultHere .badAssignment
    Parser.advance
    let value ← rules.assignment noIn
    return .assign (← Parser.spanFrom start) op target value

/-- An assignment begins with its target. -/
theorem assignment_eq (rules : Rules) (noIn : Bool) :
    Parser.assignment rules noIn = (do
      let start ← Parser.startOfToken
      let target ← Parser.conditional rules noIn
      assignmentRest rules noIn start target) := rfl

/-- What is read behind the first expression of a sequence. -/
def sequenceRest (rules : Rules) (commas noIn : Bool) (start : Position) (first : Expr) :
    Parser Expr := do
  if commas && (← Parser.atPunctuation ',') then
    Parser.advance
    let rest ← rules.expression true noIn
    return .seq (← Parser.spanFrom start) first rest
  else return first

/-- A sequence begins with its first expression. -/
theorem expression_eq (rules : Rules) (commas noIn : Bool) :
    Parser.expression rules commas noIn = (do
      let start ← Parser.startOfToken
      let first ← Parser.assignment rules noIn
      sequenceRest rules commas noIn start first) := rfl

/-! ## Reading an expression -/

/-- The result is the expression up to its spans, and the rest of the tokens is left. -/
def Read (e : Expr) (rest : List Face) (result : Expr) (behind : Cursor) : Prop :=
  result.eraseSpans = e.eraseSpans ∧ behind.Shows rest

/-- The tokens are read as an expression that may be a sequence. The flag tells whether a bare `in`
stands among them. -/
def ReadsSequence (o : Options) (bareIn : Bool) (faces : List Face) (e : Expr) : Prop :=
  ∀ n noIn rest c, faces.length ≤ n → (noIn = true → bareIn = false) →
    Follows noIn sequenceLevel rest → c.Shows (faces ++ rest) →
    Ends (Parser.expression (.upTo n) true noIn) o c (Read e rest) Never

/-- The tokens are read as an assignment, or as what binds tighter. -/
def ReadsAssignment (o : Options) (bareIn : Bool) (faces : List Face) (e : Expr) : Prop :=
  ∀ n noIn rest c, faces.length ≤ n → (noIn = true → bareIn = false) →
    Follows noIn assignmentLevel rest → c.Shows (faces ++ rest) →
    Ends (Parser.assignment (.upTo n) noIn) o c (Read e rest) Never

/-- The tokens are read as a conditional expression, or as what binds tighter. -/
def ReadsConditional (o : Options) (bareIn : Bool) (faces : List Face) (e : Expr) : Prop :=
  ∀ n noIn rest c, faces.length ≤ n → (noIn = true → bareIn = false) →
    Follows noIn conditionalLevel rest → c.Shows (faces ++ rest) →
    Ends (Parser.conditional (.upTo n) noIn) o c (Read e rest) Never

/-- The tokens are read as an operand and the binary operators behind it, at a place of the given
strength. Further operators may follow, which are read as after the whole. -/
def ReadsOperators (o : Options) (bareIn : Bool) (least : Nat) (faces : List Face) (e : Expr) :
    Prop :=
  ∀ n m bound noIn start rest c good, faces.length ≤ n → faces.length ≤ m + 1 →
    (binaryLevel + bound < least ∨ bound = 0) → (noIn = true → bareIn = false) →
    Follows noIn (least + 1) rest → c.Shows (faces ++ rest) →
    (∀ k result behind, m + 1 ≤ k + faces.length → Read e rest result behind →
      Ends (Parser.operators (.upTo k) result start bound noIn) o behind good Never) →
    Ends (do Parser.operators (.upTo m) (← Parser.unary (.upTo n) true) start bound noIn) o c good
      Never

/-- The tokens are read as an operand with its unary operators. -/
def ReadsUnary (o : Options) (faces : List Face) (e : Expr) : Prop :=
  ∀ n noIn rest c, faces.length ≤ n → Follows noIn postfixLevel rest →
    c.Shows (faces ++ rest) → Ends (Parser.unary (.upTo n) true) o c (Read e rest) Never

/-- The tokens are read as an operand without operators. Member accesses may follow, which are read
as after the whole. -/
def ReadsMember (o : Options) (calls : Bool) (faces : List Face) (e : Expr) : Prop :=
  ∀ n rest c good, faces.length ≤ n → rest ≠ [] → c.Shows (faces ++ rest) →
    (∀ k start result behind, rest.length ≤ k → Read e rest result behind →
      Ends (Parser.loopWithin (subscriptStep (.upTo n) start calls) k result) o behind good Never) →
    Ends (Parser.primary (.upTo n) calls) o c good Never

/-! ## Ends of loops -/

section

variable {o : Options} {c : Cursor} {noIn : Bool} {rest : List Face} {e result : Expr}

/-- What a token that follows is not. -/
theorem Follows.other {least : Nat} (follows : Follows noIn least rest) (kind : TokenKind)
    (shows : c.Shows rest) {b : Nat} (known : binds noIn kind = some b) (strong : least ≤ b) :
    c.token.kind ≠ kind := by
  obtain ⟨x, more, rfl, weak⟩ := follows
  rw [shows.kind]
  rintro rfl
  exact absurd (weak b known) (by omega)

/-- A token that is not of the given kind is not the given punctuation. -/
theorem isPunctuation_of_ne {token : Token} {char : Char} (other : token.kind ≠ .punctuation char) :
    token.isPunctuation char = false := by
  unfold Token.isPunctuation
  split
  · rename_i kind
    rw [kind] at other
    simpa using other
  · rfl

/-- A token that is not of the given kind is not the given operator. -/
theorem isOperator_of_ne {token : Token} {symbol : String}
    (other : token.kind ≠ .operator symbol) : token.isOperator symbol = false := by
  unfold Token.isOperator
  split
  · rename_i kind
    rw [kind] at other
    simpa using other
  · rfl

/-- A token that is not of the given kind is not the given keyword. -/
theorem isKeyword_of_ne {token : Token} {k : Keyword} (other : token.kind ≠ .keyword k) :
    token.isKeyword k = false := by
  unfold Token.isKeyword
  split
  · rename_i kind
    rw [kind] at other
    simpa using other
  · rfl

/-- The loop over member accesses ends before what does not continue an operand. -/
theorem subscripts_end {rules : Rules} {start : Position} {calls : Bool} {k : Nat}
    (follows : Follows noIn memberLevel rest) (room : rest.length ≤ k)
    (read : Read e rest result c) :
    Ends (Parser.loopWithin (subscriptStep rules start calls) k result) o c (Read e rest) Never := by
  have some_ := List.length_pos_iff.2 follows.ne_nil
  obtain ⟨k, rfl⟩ := Nat.exists_eq_succ_of_ne_zero (n := k) (by omega)
  have point := isPunctuation_of_ne (follows.other (.punctuation '.') read.2 rfl (Nat.le_refl _))
  have bracket := isPunctuation_of_ne (follows.other (.punctuation '[') read.2 rfl (Nat.le_refl _))
  have paren := isPunctuation_of_ne (follows.other (.punctuation '(') read.2 rfl (Nat.le_refl _))
  rw [ends_loopWithin]
  simp only [subscriptStep, ends_bind, ends_atPunctuation, point, bracket, paren, Bool.and_false,
    Bool.false_eq_true, if_false, ends_pure]
  exact read

/-- No update follows. -/
theorem operatorBehind_none (follows : Follows noIn postfixLevel rest) (shows : c.Shows rest) :
    Parser.operatorBehind c.token = none := by
  unfold Parser.operatorBehind
  split
  · rename_i symbol kind
    split
    · rfl
    · cases update : UnaryOp.behind? symbol with
      | none => rfl
      | some op =>
        have known : binds noIn (.operator symbol) = some postfixLevel := by
          rw [binds, bindsOperator, update]
          rfl
        exact absurd kind (follows.other _ shows known (Nat.le_refl _))
  · rfl

/-- The loop over updates ends before what is none. -/
theorem updates_end {start : Position} {k : Nat} (follows : Follows noIn postfixLevel rest)
    (room : rest.length ≤ k) (read : Read e rest result c) :
    Ends (Parser.loopWithin (postfixStep start) k result) o c (Read e rest) Never := by
  have some_ := List.length_pos_iff.2 follows.ne_nil
  obtain ⟨k, rfl⟩ := Nat.exists_eq_succ_of_ne_zero (n := k) (by omega)
  rw [ends_loopWithin]
  simp only [postfixStep, ends_bind, ends_current, operatorBehind_none follows read.2, ends_pure]
  exact read

/-- Which binary operator a token may be. -/
theorem binaryOperator_eq_some {kind : TokenKind} {op : BinaryOp}
    (known : Parser.binaryOperator noIn kind = some op) :
    kind = .operator op.spelling ∧ (noIn = true → op ≠ .in) := by
  unfold Parser.binaryOperator at known
  split at known
  · rename_i symbol
    split at known
    · exact absurd known (by simp)
    · rename_i allowed
      have spelt := List.find?_some known
      simp only [decide_eq_true_eq] at spelt
      refine ⟨by rw [spelt], ?_⟩
      rintro rfl rfl
      exact allowed (by rw [← spelt]; rfl)
  · exact absurd known (by simp)

/-- No binary operator updates. -/
theorem behind?_binary (op : BinaryOp) : UnaryOp.behind? op.spelling = none := by
  cases op <;> decide

/-- A binary operator continues expressions with its own strength. -/
theorem binds_binary {kind : TokenKind} {op : BinaryOp}
    (known : Parser.binaryOperator noIn kind = some op) :
    binds noIn kind = some (binaryLevel + op.precedence) := by
  obtain ⟨rfl, -⟩ := binaryOperator_eq_some known
  rw [binds, bindsOperator, behind?_binary, known]
  rfl

/-- The binary operators end before what is none of them, or binds more weakly. -/
theorem operators_end {rules : Rules} {start : Position} {bound : Nat}
    (follows : Follows noIn (binaryLevel + bound + 1) rest) (read : Read e rest result c) :
    Ends (Parser.operators rules result start bound noIn) o c (Read e rest) Never := by
  simp only [Parser.operators, ends_bind, ends_currentKind]
  split
  · exact read
  · rename_i op known
    have weak : op.precedence ≤ bound := Nat.le_of_not_lt fun strong =>
      follows.other _ read.2 (binds_binary known) (by omega) rfl
    simp only [if_pos weak, ends_pure]
    exact read

end

/-! ## From level to level -/

/-- Whether a token begins an operand without operators before it. -/
def BeginsOperand (faces : List Face) : Prop :=
  ∃ x more, faces = x :: more ∧ Parser.operatorBefore x.kind = none

section

variable {o : Options} {bareIn : Bool} {faces : List Face} {e : Expr}

/-- An operand without operators is an operand. -/
theorem ReadsMember.unary (reads : ReadsMember o true faces e) (begins : BeginsOperand faces) :
    ReadsUnary o faces e := by
  intro n noIn rest c room follows shows
  obtain ⟨x, more, rfl, plain⟩ := begins
  have none_ : Parser.operatorBefore c.token.kind = none := by rw [shows.kind, plain]
  simp only [unary_eq, ends_bind, ends_startOfToken, ends_currentKind, none_]
  refine reads n rest c _ room follows.ne_nil shows fun k start result behind enough read => ?_
  refine (subscripts_end (follows.mono (by decide)) enough read).mono ?_ fun _ bad => bad
  intro result behind read
  exact loop_shown read.2 fun k enough => updates_end follows enough read

/-- An operand is read with the binary operators behind it. -/
theorem ReadsUnary.operators (reads : ReadsUnary o faces e) (some_ : faces ≠ []) {least : Nat}
    (weak : least < postfixLevel) : ReadsOperators o bareIn least faces e := by
  intro n m bound noIn start rest c good room _ _ _ follows shows then_
  have width := List.length_pos_iff.2 some_
  rw [ends_bind]
  refine (reads n noIn rest c room (follows.mono weak) shows).mono ?_ fun _ bad => bad
  intro result behind read
  exact then_ m result behind (by omega) read

/-- Binary operators are read up to where a conditional expression ends. -/
theorem ReadsOperators.conditional (reads : ReadsOperators o bareIn binaryLevel faces e) :
    ReadsConditional o bareIn faces e := by
  intro n noIn rest c room allowed follows shows
  rw [conditional_eq, ends_bind, ends_startOfToken, ends_bind]
  refine reads n n 0 noIn _ rest c _ room (Nat.le_succ_of_le room) (.inr rfl) allowed
    (follows.mono (by decide)) shows ?_
  intro k result behind _ read
  refine (operators_end (follows.mono (by decide)) read).mono ?_ fun _ bad => bad
  intro result behind read
  have other := isOperator_of_ne
    (follows.other (.operator "?") read.2 (by cases noIn <;> rfl) (Nat.le_refl _))
  simp only [conditionalRest, ends_bind, ends_atOperator, other, Bool.false_eq_true, if_false,
    ends_pure]
  exact read

/-- An assignment continues expressions with its own strength. -/
theorem binds_assignment {noIn : Bool} {kind : TokenKind} {op : Option BinaryOp}
    (known : Parser.assignmentOperator kind = some op) : binds noIn kind = some assignmentLevel := by
  unfold Parser.assignmentOperator at known
  split at known
  · rename_i symbol
    split at known
    · rename_i equals
      subst equals
      cases noIn <;> rfl
    · obtain ⟨compound, found, -⟩ := Option.map_eq_some_iff.1 known
      have spelt := List.find?_some found
      simp only [Bool.and_eq_true, decide_eq_true_eq] at spelt
      obtain ⟨which, rfl⟩ := spelt
      have table : ∀ op ∈ BinaryOp.all, op.isCompound = true →
          ∀ noIn, binds noIn (.operator (op.spelling ++ "=")) = some assignmentLevel := by
        decide
      exact table compound compound.mem_all which noIn
  · exact absurd known (by simp)

/-- Where no assignment follows, a conditional expression is the whole. -/
theorem assignment_end {n : Nat} {noIn : Bool} {rest : List Face} {c : Cursor}
    (follows : Follows noIn assignmentLevel rest)
    (run : Ends (Parser.conditional (.upTo n) noIn) o c (Read e rest) Never) :
    Ends (Parser.assignment (.upTo n) noIn) o c (Read e rest) Never := by
  simp only [Parser.assignment, ends_bind, ends_startOfToken, ends_currentKind]
  refine run.mono ?_ fun _ bad => bad
  intro result behind read
  have none_ : Parser.assignmentOperator behind.token.kind = none := by
    cases known : Parser.assignmentOperator behind.token.kind with
    | none => rfl
    | some op => exact absurd rfl (follows.other _ read.2 (binds_assignment known) (Nat.le_refl _))
  simp only [none_, ends_pure]
  exact read

/-- What may be assigned to is read up to where an assignment ends. -/
theorem ReadsConditional.assignment (reads : ReadsConditional o bareIn faces e) :
    ReadsAssignment o bareIn faces e := fun n noIn rest c room allowed follows shows =>
  assignment_end follows (reads n noIn rest c room allowed (follows.mono (by decide)) shows)

/-- An assignment is read by the rule for expressions without sequences. -/
theorem ReadsAssignment.expression (reads : ReadsAssignment o bareIn faces e) {n : Nat} {noIn : Bool}
    {rest : List Face} {c : Cursor} (room : faces.length ≤ n)
    (allowed : noIn = true → bareIn = false) (follows : Follows noIn assignmentLevel rest)
    (shows : c.Shows (faces ++ rest)) :
    Ends (Parser.expression (.upTo n) false noIn) o c (Read e rest) Never := by
  simp only [Parser.expression, ends_bind, ends_startOfToken, ends_atPunctuation, Bool.false_and,
    Bool.false_eq_true, if_false, ends_pure]
  exact reads n noIn rest c room allowed follows shows

/-- An assignment is read up to where a sequence ends. -/
theorem ReadsAssignment.sequence (reads : ReadsAssignment o bareIn faces e) : ReadsSequence o bareIn faces e := by
  intro n noIn rest c room allowed follows shows
  simp only [Parser.expression, ends_bind, ends_startOfToken, ends_atPunctuation]
  refine (reads n noIn rest c room allowed (follows.mono (by decide)) shows).mono ?_
    fun _ bad => bad
  intro result behind read
  have other := isPunctuation_of_ne
    (follows.other (.punctuation ',') read.2 rfl (Nat.le_refl _))
  simp only [other, Bool.and_false, Bool.false_eq_true, if_false, ends_pure]
  exact read

/-- In parentheses every expression is an operand. -/
theorem ReadsSequence.enclosed (reads : ReadsSequence o bareIn faces e) (calls : Bool) :
    ReadsMember o calls (enclosed faces) e := by
  intro n rest c good room some_ shows then_
  obtain ⟨x, more, rfl⟩ := List.exists_cons_of_ne_nil some_
  simp only [Print.enclosed, List.length_cons, List.length_append, List.length_nil] at room
  obtain ⟨n, rfl⟩ := Nat.exists_eq_succ_of_ne_zero (n := n) (by omega)
  simp only [Print.enclosed, List.cons_append, List.append_assoc, List.nil_append] at shows
  have kind : c.token.kind = .punctuation '(' := shows.kind
  simp only [Parser.primary, ends_bind, ends_startOfToken, ends_atOperator, ends_atPunctuation,
    Token.isOperator, Token.isPunctuation, kind, Bool.false_eq_true, if_false, decide_true, if_true,
    subscripts_eq, upTo_expression]
  refine advance_shown (by simp) shows fun c shows => ?_
  refine (reads n false (mark ')' :: x :: more) c (by omega) (by simp) (follows_of_none rfl)
    shows).mono ?_ fun _ bad => bad
  rintro result behind ⟨same, shows⟩
  refine expectPunctuation_shown (by simp) shows rfl fun c shows => ?_
  exact loop_shown shows fun k enough => then_ k _ result c enough ⟨same, shows⟩

end

end Stencil.Grammar
