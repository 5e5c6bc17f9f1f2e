import Stencil.Proofs.Lexing.ReadingEnds
import Stencil.Proofs.Parsing.Settling
/-!
# Parsing ends

Reading tokens and parsing templates, scripts and expressions end with a result or an error of the
text, whatever the source: no bound on a recursion or a loop is ever reached (`parsing_ends`).

The bound on the recursion is the one that nothing inside the grammar shows to be enough. Rules that
are unfolded as often as the text has characters never come to the bottom of the recursion, so it does
not matter what is there: with rules at the bottom that refuse every text (`Rules.above`) they do the
same, and those settle.
-/

set_option autoImplicit false

namespace Stencil.Grammar

open Stencil.Error (ParseError)
open Stencil.Syntax
open Stencil.Text (Position Span)
open Stencil.Grammar.Parser

variable {α : Type}

/-! ## Another bottom of the recursion -/

/-- The rules that fail in one way. -/
def Rules.failing (failure : Failure) : Rules where
  expression _ _ := throw failure
  assignment _ := throw failure
  operators _ _ _ _ := throw failure
  unary _ := throw failure
  primary _ := throw failure
  statement _ := throw failure
  chunk := throw failure

/-- The rules for nestings up to the given depth, with the given rules below. -/
def Rules.above (bottom : Rules) : Nat → Rules
  | 0 => bottom
  | depth + 1 => (above bottom depth).unfold

theorem upTo_eq_above (depth : Nat) : Rules.upTo depth = (Rules.failing .exhausted).above depth := by
  induction depth with
  | zero => rfl
  | succ depth ih => rw [Rules.upTo, Rules.above, ih]

/-- What is at the bottom does not matter wherever less than the depth lies ahead: by induction on the
depth. -/
theorem agree_above (bottom other : Rules) (depth : Nat) :
    Rules.Agree depth (bottom.above depth) (other.above depth) := by
  induction depth with
  | zero => exact agree_none
  | succ depth ih => exact agree_unfold ih

section Settling

variable {bad : Failure → Prop}

/-- Rules settle at every depth when they do at the bottom. -/
theorem settling_above [Tolerant bad] {bottom : Rules} (settling : bottom.Settling bad) (depth : Nat) :
    (bottom.above depth).Settling bad := by
  induction depth with
  | zero => exact settling
  | succ depth ih => exact settling_unfold ih

theorem settling_failing {failure : Failure} (allowed : bad failure) :
    (Rules.failing failure).Settling bad where
  leads _ := by
    have fails {α : Type} {o : Options} {c : Cursor} :
        Same o c (throw failure : Parser α) (throw failure) := ⟨rfl, trivial⟩
    exact ⟨fun _ _ _ => fails, fun _ _ => fails, fun _ _ _ _ _ => fails, fun _ _ => fails,
      fun _ _ => fails, fun _ _ => fails, fun _ => fails⟩
  expression _ _ _ _ := allowed
  assignment _ _ _ := allowed
  operators _ _ _ _ _ _ := allowed
  unary _ _ _ := allowed
  primary _ _ _ := allowed
  statement _ _ _ := allowed
  chunk _ _ := allowed

/-- When any failure is allowed the rules of every depth settle. -/
theorem settling_upTo (depth : Nat) : (Rules.upTo depth).Settling Failure.Any := by
  rw [upTo_eq_above]
  exact settling_above (settling_failing trivial) depth

end Settling

/-! ## Whole texts -/

section Whole

variable {o : Options} {c : Cursor} {k : Nat} {R S : Rules} (agree : Rules.Agree k R S)

include agree

theorem same_program (room : c.ahead ≤ k) : Same o c (program R) (program S) := by
  rw [program_eq, program_eq]
  refine (same_loop (fun body c' leads => ?_) _).bind fun _ _ _ => same_pure _
  unfold programStep
  simp only [same_current, same_ite]
  split_ifs
  · exact same_pure _
  · exact (consumes_statement agree (leads.le room) .outermost).same.bind fun _ _ _ => same_pure _

theorem same_template (room : c.ahead ≤ k) : Same o c (template R) (template S) := by
  rw [template_eq, template_eq]
  refine (same_loop (fun chunks c' leads => ?_) _).bind fun _ _ _ => same_pure _
  unfold templateStep
  simp only [same_current, same_ite]
  split_ifs
  · exact same_pure _
  · exact (consumes_chunk agree (leads.le room)).same.bind fun _ _ _ => same_pure _

theorem same_wholeExpression (room : c.ahead ≤ k) :
    Same o c (wholeExpression R) (wholeExpression S) := by
  unfold wholeExpression
  refine (consumes_expression agree room true false).same.bind fun _ c' _ => ?_
  simp only [same_current, same_ite]
  split_ifs
  · exact same_pure _
  · exact same_unexpected

end Whole

/-- A rule that settles and never comes to the bottom of the recursion gives a result or refuses the
text. -/
theorem run_settles {rule : Rules → Parser α}
    (same : ∀ {k o c R S}, Rules.Agree k R S → c.ahead ≤ k → Same o c (rule R) (rule S))
    (settles : ∀ {R : Rules}, R.Settling Failure.Real → Settles Failure.Real (rule R))
    (template : Bool) (o : Options) (source : List Char) :
    run template o source rule ≠ .error .exhausted := by
  unfold run
  cases begun : Cursor.ofSource template source with
  | error failure =>
    unfold Cursor.ofSource at begun
    split at begun
    · cases begun
    · cases begun
      exact nofun
  | ok c =>
    have enough : c.ahead ≤ c.lexer.rest.length + 2 := by
      unfold Cursor.ahead
      split_ifs <;> omega
    have ends : Ends (rule (Rules.upTo (c.lexer.rest.length + 2))) o c (fun _ _ => True)
        Failure.Real := by
      have bottom : (Rules.failing (.refused (Failure.toError .exhausted))).Settling Failure.Real :=
        settling_failing (Tolerant.refused _)
      have other := settles (settling_above bottom (c.lexer.rest.length + 2)) o c
      unfold Ends at *
      rwa [upTo_eq_above, (same (agree_above _ _ _) enough).eq]
    change (rule (Rules.upTo (c.lexer.rest.length + 2)) o c >>= fun read => .ok read.1) ≠ _
    unfold Ends at ends
    split at ends
    · next read =>
      rw [read]
      exact nofun
    · next failure read =>
      rw [read]
      intro exhausted
      cases exhausted
      exact ends rfl

/-! ## The steps of the loops -/

/-- Each loop of the rules goes on only by consuming a token; in a list of expressions the first step
may also go on by adding an element that is missing before a comma. -/
structure Rules.Progress (R : Rules) : Prop where
  template : Consuming Failure.Any (templateStep R)
  blockBody : ∀ block, Consuming Failure.Any (bodyStep R block)
  elseBranches : ∀ opening, Consuming Failure.Any (branchStep R opening)
  expressionList : ∀ closing trailing gaps,
    ConsumingItems Failure.Any (listStep closing (expressionItem R closing trailing gaps))
  objectBody : ∀ strict, Consuming Failure.Any (listStep '\x7d' (propertyItem R strict))
  parameters : Consuming Failure.Any (listStep ')' parameterItem)
  definitions : ∀ noIn, Consuming Failure.Any (definitionStep R noIn)
  subscripts : ∀ start calls, Consuming Failure.Any (subscriptStep R start calls)
  updates : ∀ start, Consuming Failure.Any (postfixStep start)
  block : ∀ around, Consuming Failure.Any (blockStep R around)
  switch : ∀ around, Consuming Failure.Any (switchStep R around)
  program : Consuming Failure.Any (programStep R)

/-- The loops of the rules of every depth make progress. -/
theorem progress_upTo (depth : Nat) : (Rules.upTo depth).Progress :=
  have settling := settling_upTo depth
  { template := consuming_templateStep settling
    blockBody := consuming_bodyStep settling
    elseBranches := consuming_branchStep settling
    expressionList closing trailing gaps :=
      (itemEnds_expressionItem settling closing trailing gaps).consumingItems closing
    objectBody strict := (consuming_propertyItem settling strict).listStep '\x7d'
    parameters := consuming_parameterItem.listStep ')'
    definitions := consuming_definitionStep settling
    subscripts := consuming_subscriptStep settling
    updates := consuming_postfixStep
    block := consuming_blockStep settling
    switch := consuming_switchStep settling
    program := consuming_programStep settling }

end Stencil.Grammar

namespace Stencil

open Stencil.Grammar

/-- Reading the tokens of a source ends. -/
structure TokensEnd (template : Bool) (source : List Char) : Prop where
  /-- Every token that is not the end of the text takes at least one character. -/
  taken : ∀ {lexer behind : Lexer} {token : Token}, lexer.next = (.ok token, behind) →
    token.isEof = false → behind.rest.length < lexer.rest.length
  /-- No number of comments is too large. -/
  trivia : ∀ (lexer : Lexer) (n : Nat), lexer.rest.length < n →
    lexer.skipTriviaWithin n = lexer.skipTrivia
  /-- No string is too long. -/
  strings : ∀ (quote : Char) (text : List Char) (n : Nat), text.length < n →
    stringBody quote n text = stringRest quote text
  /-- No name is too long. -/
  names : ∀ (text : List Char) (n : Nat), text.length < n →
    nameBody n text = nameBody (text.length + 1) text
  /-- No number of tokens is too large. -/
  tokens : ∀ n, source.length < n →
    (Lexer.ofSource template source).tokensWithin n = tokenize template source
  /-- There is at most one token more than characters: the end of the text, which is the last. -/
  count : ∀ tokens, tokenize template source = .ok tokens →
    tokens.length ≤ source.length + 1 ∧ ∃ before last, tokens = before ++ [last] ∧
      last.isEof = true ∧ ∀ token ∈ before, token.isEof = false

theorem tokensEnd (template : Bool) (source : List Char) : TokensEnd template source where
  taken := Lexer.next_lt
  trivia _ _ enough := Lexer.skipTriviaWithin_stable enough (Nat.lt_succ_self _)
  strings _ _ _ enough := stringBody_stable _ enough (Nat.lt_succ_self _)
  names _ _ enough := nameBody_stable enough (Nat.lt_succ_self _)
  tokens _ enough := by
    have shorter : (Lexer.ofSource template source).rest.length ≤ source.length :=
      Text.length_normalize_le source
    exact Lexer.tokensWithin_stable (Nat.lt_of_le_of_lt shorter enough) (Nat.lt_succ_self _)
  count _ := length_tokenize_le

/-- Whatever the source, reading its tokens ends; as a template, a script or an expression, strictly
or not, it is parsed to a result or an error of the text; and every loop of the grammar goes on only by
consuming a token, also at the end of the text. -/
theorem parsing_ends (template : Bool) (o : Options) (source : List Char) :
    TokensEnd template source ∧
      run true o source Parser.template ≠ .error .exhausted ∧
      run false o source Parser.program ≠ .error .exhausted ∧
      run false o source Parser.wholeExpression ≠ .error .exhausted ∧
      ∀ depth, (Rules.upTo depth).Progress :=
  ⟨tokensEnd template source, run_settles same_template settles_template true o source,
    run_settles same_program settles_program false o source,
    run_settles same_wholeExpression settles_wholeExpression false o source, progress_upTo⟩

/-- Missing elements of an array that is never closed. -/
theorem parsing_ends_unclosed :
    (∃ tokens, tokenize true "$\x7b[,,".toList = .ok tokens ∧ tokens.length ≤ 6) ∧
      run true ⟨true, false⟩ "$\x7b[,,".toList Parser.template ≠ .error .exhausted ∧
      ∀ depth, Consuming Failure.Any (templateStep (Rules.upTo depth)) := by
  obtain ⟨ends, parsed, -, -, progress⟩ := parsing_ends true ⟨true, false⟩ "$\x7b[,,".toList
  refine ⟨?_, parsed, fun depth => (progress depth).template⟩
  have found : (tokenize true "$\x7b[,,".toList).toOption.isSome = true := by decide +kernel
  cases read : tokenize true "$\x7b[,,".toList with
  | error error =>
    rw [read] at found
    cases found
  | ok tokens => exact ⟨tokens, rfl, (ends.count tokens read).1⟩

end Stencil
