import Stencil.Proofs.Lexing.Closers
/-!
# Reading tokens ends

The readers of the lexer that go on until something is found count down from a bound. Each of their
rounds takes a character, so the text bounds the rounds: every larger bound gives the same
(`skipTriviaWithin_stable`, `stringBody_stable`, `nameBody_stable`, `tokensWithin_stable`), and none
of these bounds decides what is read. A source has at most one token more than characters
(`length_tokenize_le`).
-/

set_option autoImplicit false

namespace Stencil

open Stencil.Text

/-! ## Strings and names -/

/-- The scan that reads on behind a result depends on what is read there only. -/
theorem Scan.andThen_congr {α β : Type} {scan : Scan α} {text : List Char}
    {next next' : α → List Char → Scan β}
    (same : ∀ result, next result (text.drop scan.width) = next' result (text.drop scan.width)) :
    scan.andThen text next = scan.andThen text next' := by
  unfold Scan.andThen
  split
  · rw [same]
  · rfl

/-- Every bound that exceeds the text reads the same string. By induction on the text: each round
takes a character. -/
theorem stringBody_stable (quote : Char) {n m : Nat} {text : List Char} (first : text.length < n)
    (second : text.length < m) : stringBody quote n text = stringBody quote m text := by
  induction n generalizing m text with
  | zero => exact absurd first (Nat.not_lt_zero _)
  | succ n ih =>
    obtain ⟨m, rfl⟩ := Nat.exists_eq_succ_of_ne_zero (Nat.ne_of_gt (Nat.zero_lt_of_lt second))
    cases text with
    | nil => rfl
    | cons c rest =>
      rw [List.length_cons] at first second
      have shorter (count : Nat) : stringBody quote n (rest.drop count)
          = stringBody quote m (rest.drop count) :=
        ih (by rw [List.length_drop]; omega) (by rw [List.length_drop]; omega)
      have whole : stringBody quote n rest = stringBody quote m rest := shorter 0
      unfold stringBody
      rw [whole]
      split_ifs
      · rfl
      · refine congrArg (Scan.behind 1) (Scan.andThen_congr fun _ => ?_)
        rw [shorter]
      · rfl

/-- Every bound that exceeds the text reads the same name. By induction on the text: each round takes
a character. -/
theorem nameBody_stable {n m : Nat} {text : List Char} (first : text.length < n)
    (second : text.length < m) : nameBody n text = nameBody m text := by
  induction n generalizing m text with
  | zero => exact absurd first (Nat.not_lt_zero _)
  | succ n ih =>
    obtain ⟨m, rfl⟩ := Nat.exists_eq_succ_of_ne_zero (Nat.ne_of_gt (Nat.zero_lt_of_lt second))
    cases text with
    | nil => rfl
    | cons c rest =>
      rw [List.length_cons] at first second
      have shorter (count : Nat) : nameBody n (rest.drop count) = nameBody m (rest.drop count) :=
        ih (by rw [List.length_drop]; omega) (by rw [List.length_drop]; omega)
      have whole : nameBody n rest = nameBody m rest := shorter 0
      unfold nameBody
      rw [whole]
      split_ifs
      · refine congrArg (Scan.behind 1) (Scan.andThen_congr fun _ => ?_)
        rw [shorter]
      · rfl
      · rfl

namespace Lexer

variable {lexer behind : Lexer} {token : Token} {tokens : List Token}

/-! ## Blanks and comments -/

theorem length_atToken_le (lexer : Lexer) : lexer.atToken.rest.length ≤ lexer.rest.length := by
  unfold atToken
  split_ifs with text
  · exact Nat.le_refl _
  · simp [mark, skipBlanks, skip, cross]

/-- A comment takes some of the text. -/
theorem comment?_lt (read : lexer.comment? = some (.ok (), behind)) :
    behind.rest.length < lexer.rest.length := by
  obtain ⟨comment, remarks⟩ := comment?_remarks read
  have taken := congrArg List.length remarks.rest
  have written := List.length_pos_iff.2 comment.written_ne_nil
  rw [List.length_append] at taken
  omega

/-- Every bound that exceeds the text leads to the same token. By induction on the text: each round
takes a comment. -/
theorem skipTriviaWithin_stable {n m : Nat} (first : lexer.rest.length < n)
    (second : lexer.rest.length < m) : lexer.skipTriviaWithin n = lexer.skipTriviaWithin m := by
  induction n generalizing m lexer with
  | zero => exact absurd first (Nat.not_lt_zero _)
  | succ n ih =>
    obtain ⟨m, rfl⟩ := Nat.exists_eq_succ_of_ne_zero (Nat.ne_of_gt (Nat.zero_lt_of_lt second))
    unfold skipTriviaWithin
    dsimp only
    rw [← atToken]
    have blanks := lexer.length_atToken_le
    split
    · next behind read =>
      have shorter := comment?_lt read
      exact ih (by omega) (by omega)
    · rfl
    · rfl

/-! ## Tokens -/

/-- A token that is not the end of the text takes at least one character. -/
theorem next_lt (read : lexer.next = (.ok token, behind)) (going : token.isEof = false) :
    behind.rest.length < lexer.rest.length := by
  have left := next_le read
  simp only [going, Bool.false_eq_true, if_false] at left
  omega

/-- Every bound that exceeds the text reads the same tokens. By induction on the text: each round
takes a token. -/
theorem tokensWithin_stable {n m : Nat} (first : lexer.rest.length < n)
    (second : lexer.rest.length < m) : lexer.tokensWithin n = lexer.tokensWithin m := by
  induction n generalizing m lexer with
  | zero => exact absurd first (Nat.not_lt_zero _)
  | succ n ih =>
    obtain ⟨m, rfl⟩ := Nat.exists_eq_succ_of_ne_zero (Nat.ne_of_gt (Nat.zero_lt_of_lt second))
    unfold tokensWithin
    split
    · rfl
    · next token behind read =>
      split_ifs with ended
      · rfl
      · have shorter := next_lt read (by simpa using ended)
        have later : behind.tokensWithin n = behind.tokensWithin m := ih (by omega) (by omega)
        rw [later]

/-- Tokens that are read within a bound that exceeds the text are no more than its characters, and
behind them the end of the text. By induction on the bound. -/
theorem length_tokensWithin {n : Nat} (enough : lexer.rest.length < n)
    (read : lexer.tokensWithin n = .ok tokens) :
    ∃ before last, tokens = before ++ [last] ∧ last.isEof = true ∧
      (∀ token ∈ before, token.isEof = false) ∧ before.length ≤ lexer.rest.length := by
  induction n generalizing lexer tokens with
  | zero => exact absurd enough (Nat.not_lt_zero _)
  | succ n ih =>
    unfold tokensWithin at read
    split at read
    · cases read
    · next token behind found =>
      split_ifs at read with ended
      · cases read
        exact ⟨[], token, rfl, ended, by simp, Nat.zero_le _⟩
      · have going : token.isEof = false := by simpa using ended
        have shorter := next_lt found going
        cases later : behind.tokensWithin n with
        | error error =>
          rw [later] at read
          cases read
        | ok others =>
          rw [later] at read
          cases read
          obtain ⟨before, last, rfl, eof, others, count⟩ := ih (by omega) later
          refine ⟨token :: before, last, rfl, eof, ?_, ?_⟩
          · simpa [going] using others
          · rw [List.length_cons]
            omega

end Lexer

namespace Text

theorem length_unifyBreaks_le (text : List Char) : (unifyBreaks text).length ≤ text.length := by
  fun_induction unifyBreaks text with
  | case1 => exact Nat.le_refl _
  | case2 rest ih =>
    simp only [List.length_cons]
    omega
  | case3 c rest _ ih =>
    simp only [List.length_cons]
    omega

/-- Normalizing a text makes it no longer. -/
theorem length_normalize_le (text : List Char) : (normalize text).length ≤ text.length := by
  unfold normalize
  split
  · next rest =>
    have unified := length_unifyBreaks_le rest
    rw [List.length_cons]
    omega
  · exact length_unifyBreaks_le text

end Text

/-- A source has at most one token more than characters: the last one, and only that, is the end of
the text. -/
theorem length_tokenize_le {template : Bool} {source : List Char} {tokens : List Token}
    (read : tokenize template source = .ok tokens) :
    tokens.length ≤ source.length + 1 ∧ ∃ before last, tokens = before ++ [last] ∧
      last.isEof = true ∧ ∀ token ∈ before, token.isEof = false := by
  obtain ⟨before, last, rfl, ended, going, count⟩ :=
    Lexer.length_tokensWithin (Nat.lt_succ_self _) read
  have shorter : (Lexer.ofSource template source).rest.length ≤ source.length :=
    Text.length_normalize_le source
  refine ⟨?_, before, last, rfl, ended, going⟩
  rw [List.length_append, List.length_singleton]
  omega

end Stencil
