import Stencil.Proofs.Lexing.Breaks
import Stencil.Proofs.Lexing.Gaps
import Stencil.Proofs.Lexing.Restarts
import Stencil.Proofs.Lexing.Seams
import Stencil.Proofs.Lexing.Sessions
/-!
# Number tokens

The reader of numbers decides at each character whether it belongs to the number, from what it met
before; the value comes from the text that was collected, which is cut at its marks. The two agree
(`number_tokens_agree`):

* a text that has a value is read by itself as one number of that value, up to its end;
* a number that any call of a lexer returns covers a text that has its value;
* the texts that have values are those of the grammar of numerals.

For the first the reader must go over the whole of a numeral (`Lexing.statesThrough_value?`), for the
second it needs to keep the characters it goes over, with the point that it is told of.
-/

set_option autoImplicit false

namespace Stencil

open Stencil.Number
open Stencil.Text

/-! ## A text that is one word -/

section

open Stencil.Lexing

variable {kind : TokenKind} {word : List Char}

/-- A text that is one word has two tokens: the word, which goes on to the end of the text, and the
end. -/
theorem tokenize_word (spelt : Word true kind word)
    (unbraced : kind ≠ .punctuation '\x7b' ∧ kind ≠ .punctuation '\x7d') (going : kind ≠ .eof) :
    tokenize false word = .ok
      [{ kind
         span := ⟨.origin, Position.origin.after word⟩
         afterBreak := false
         comments := [] },
       { kind := .eof
         span := .point (Position.origin.after word)
         afterBreak := false
         comments := [] }] := by
  obtain ⟨c, tail, filled, -⟩ := spelt.begins
  have code : (Lexer.ofText false word).mode ≠ .text := by simp [Lexer.ofText]
  have read := next_spelt code (List.append_nil word).symm spelt (by simp [StopsBefore]) unbraced
  obtain ⟨_, ended⟩ := next_ended (show (Lexer.ofText false word).next.2.mode ≠ .text by
    rw [read]
    exact code) (by rw [read])
  rw [read] at ended
  have length : word.length = tail.length + 1 := congrArg List.length filled
  rw [tokenize, Lexer.ofSource, normalize_word spelt]
  show (Lexer.ofText false word).tokensWithin (word.length + 1) = _
  rw [length, Lexer.tokensWithin, read]
  dsimp only
  rw [Token.isEof_of_ne going, if_neg Bool.false_ne_true, Lexer.tokensWithin, ended]
  rfl

end

/-! ## The reader that gives numbers -/

/-- The span goes round a piece of the text that has the value as a number literal. -/
def CoversNumeral (text : List Char) (span : Span) (value : Float) : Prop :=
  ∃ before piece behind, text = before ++ piece ++ behind ∧ span = Span.around before piece ∧
    Literal.value? piece = some value

namespace Lexer

variable {lexer behind : Lexer} {token : Token} {value : Float}

/-- A number is what its reader went over, with the point read before, if there was one. -/
theorem number_of_readNumber {point : Bool} (read : lexer.readNumber point = (.ok token, behind))
    (kind : token.kind = .num value) :
    ∃ run, lexer.rest = run ++ behind.rest ∧
      Literal.value? (if point then '.' :: run else run) = some value := by
  unfold readNumber at read
  dsimp only at read
  obtain ⟨rest, whole⟩ := (numberRun_taken ⟨false, false, false, point⟩ lexer.rest).1
  generalize numberRun ⟨false, false, false, point⟩ lexer.rest = run at read whole
  refine ⟨run, ?_⟩
  cases known : Literal.value? (if point then '.' :: run else run) with
  | none =>
    rw [known] at read
    obtain ⟨_, failed, -⟩ := accept_ok read
    cases failed
  | some number =>
    rw [known] at read
    obtain ⟨_, found, ended⟩ := accept_ok read
    cases found
    have same : number = value := TokenKind.num.inj ((kind_of_token ended).symm.trans kind)
    refine ⟨?_, congrArg some same⟩
    cases ended
    show lexer.rest = run ++ lexer.rest.drop run.length
    rw [← whole, List.drop_left]

/-- A number of code is a beginning of the text that has its value. -/
theorem number_of_readCode {c : Char} {following : List Char} (rest : lexer.rest = c :: following)
    (read : lexer.readCode c following = (.ok token, behind)) (kind : token.kind = .num value) :
    ∃ piece, lexer.rest = piece ++ behind.rest ∧ Literal.value? piece = some value := by
  cases readsCode_of_readCode read with
  | number read => exact number_of_readNumber read kind
  | fraction point read =>
    obtain ⟨run, taken, known⟩ := number_of_readNumber read kind
    have left : (lexer.cross 1).rest = following := by
      show lexer.rest.drop 1 = following
      rw [rest]
      rfl
    refine ⟨'.' :: run, ?_, known⟩
    rw [rest, point, ← left, taken, List.cons_append]
  | word _ read =>
    obtain ⟨name, made⟩ := kind_of_accept read
    have same := made.symm.trans kind
    rcases Lexing.wordKind_cases (String.ofList name) with ⟨_, other⟩ | ⟨_, other⟩ | ⟨_, other⟩ | other
      <;> cases other.symm.trans same
  | operator _ read =>
    obtain ⟨_, made⟩ := kind_of_accept read
    cases made.symm.trans kind
  | string made => cases made.symm.trans kind
  | regexp made => cases made.symm.trans kind
  | punctuation made => cases made.symm.trans kind

/-- A number that is read next covers a text that has its value, in every mode. -/
theorem number_of_next {before : List Char} (place : lexer.place = Position.origin.after before)
    (read : lexer.next = (.ok token, behind)) (kind : token.kind = .num value) :
    CoversNumeral (before ++ lexer.rest) token.span value := by
  unfold Lexer.next at read
  split at read
  · next skipped eq =>
    obtain ⟨gap, _, skips⟩ := skips_skipTriviaWithin place eq
    obtain ⟨piece, ends⟩ := ends_readToken read
    obtain ⟨c, following, depth, rest, code⟩ :=
      readCode_of_readToken read (by simp [Token.isEof, kind]) (by simp [kind]) (by simp [kind])
    obtain ⟨numeral, taken, known⟩ :=
      number_of_readCode (show ({ skipped with depth } : Lexer).rest = _ from rest) code kind
    have same : piece = numeral := List.append_cancel_right (ends.rest.symm.trans taken)
    refine ⟨before ++ gap, piece, behind.rest, ?_, ?_, same ▸ known⟩
    · rw [skips.rest, ends.rest]
      simp
    · rw [ends.span, skips.start, ends.place, skips.place, ← Position.after_append]
      rfl
  · cases read

/-- A number that any call returns covers a text that has its value. -/
theorem Session.number_of_answers {template : Bool} {source : List Char} {calls : List Call}
    (listed : .ok token ∈ Session.answers template source calls) (kind : token.kind = .num value) :
    CoversNumeral (normalize source) token.span value := by
  obtain ⟨lexer, placed, same | ⟨lead, same⟩⟩ := (placed_start template source).mem_run listed
  · obtain ⟨before, whole, place⟩ := placed.place
    rw [whole]
    exact number_of_next place (Prod.ext same.symm rfl : lexer.next = (.ok token, _)) kind
  · have read : lexer.rereadRegexp lead = (.ok token, (lexer.rereadRegexp lead).2) :=
      Prod.ext same.symm rfl
    obtain ⟨_, made⟩ := kind_of_accept read
    cases made.symm.trans kind

/-- The tokens up to the end of the text are what as many calls for the next token return. -/
theorem Session.run_of_tokensWithin {n : Nat} {session : Session} {tokens : List Token}
    (read : session.lexer.tokensWithin n = .ok tokens) :
    (session.run (List.replicate tokens.length .next)).1 = tokens.map .ok := by
  induction n generalizing session tokens with
  | zero =>
    cases read
    rfl
  | succ n ih =>
    unfold tokensWithin at read
    split at read
    · cases read
    · next token behind next =>
      have first : session.call .next = (some (.ok token), { session with lexer := behind }) := by
        rw [Session.call, next]
      split_ifs at read with ended
      · cases read
        simp [Session.run, first]
      · cases more : behind.tokensWithin n with
        | error e =>
          rw [more] at read
          cases read
        | ok others =>
          rw [more] at read
          cases read
          have rest : (({ session with lexer := behind } : Session).run
              (List.replicate others.length .next)).1 = others.map .ok := ih more
          simp [List.replicate_succ, Session.run, first, rest]

/-- The tokens of a source are returned by calls for the next token. -/
theorem Session.answers_of_tokenize {template : Bool} {source : List Char} {tokens : List Token}
    (read : tokenize template source = .ok tokens) :
    answers template source (List.replicate tokens.length .next) = tokens.map .ok :=
  run_of_tokensWithin (show (start template source).lexer.tokensWithin _ = .ok tokens from read)

end Lexer

/-! ## The agreement -/

/-- The reader of numbers and the values of number literals agree. A text that has a value is read by
itself as one number of that value, which goes on to the end of the text. Conversely a number covers a
text that has its value, whatever calls of a lexer returned it, and so in the tokens of every source.
The texts that have a value are those of the grammar: a zero, a hexadecimal mark and hexadecimal digits,
or digits with at most a point among them, at least one, and an optional exponent. -/
theorem number_tokens_agree :
    (∀ text value, Literal.value? text = some value →
      tokenize false text = .ok
        [{ kind := .num value
           span := ⟨.origin, Position.origin.after text⟩
           afterBreak := false
           comments := [] },
         { kind := .eof
           span := .point (Position.origin.after text)
           afterBreak := false
           comments := [] }]) ∧
      (∀ template source calls token value,
        .ok token ∈ Lexer.Session.answers template source calls → token.kind = .num value →
          CoversNumeral (normalize source) token.span value) ∧
      (∀ template source tokens, tokenize template source = .ok tokens →
        ∀ token ∈ tokens, ∀ value, token.kind = .num value →
          CoversNumeral (normalize source) token.span value) ∧
      ∀ text, (Literal.value? text).isSome = true ↔ Literal.Numeral text := by
  refine ⟨?_, ?_, ?_, fun text => Literal.value?_isSome_iff⟩
  · intro text value known
    exact tokenize_word (.number known) (by simp) (by simp)
  · intro template source calls token value listed kind
    exact Lexer.Session.number_of_answers listed kind
  · intro template source tokens read token listed value kind
    have returned : .ok token ∈
        Lexer.Session.answers template source (List.replicate tokens.length .next) := by
      rw [Lexer.Session.answers_of_tokenize read]
      exact List.mem_map_of_mem listed
    exact Lexer.Session.number_of_answers returned kind

/-- The number that a token is. -/
def Token.num? (token : Token) : Option Float :=
  match token.kind with
  | .num value => some value
  | _ => none

theorem Token.num?_eq_some {token : Token} {value : Float} :
    token.num? = some value ↔ token.kind = .num value := by
  unfold Token.num?
  split
  · next kind => simp [kind]
  · next other => simpa using fun same => other value same

/-- A hexadecimal digit that looks like the mark of an exponent, and a number without a whole part in
an echo of a template, behind the text of the template and a blank. -/
theorem number_tokens_agree_marks :
    (∃ value ended, Literal.value? "0x1E".toList = some value ∧
      tokenize false "0x1E".toList = .ok [⟨.num value, ⟨.origin, ⟨4, 0, 4⟩⟩, false, []⟩, ended] ∧
      CoversNumeral (normalize "0x1E".toList) ⟨.origin, ⟨4, 0, 4⟩⟩ value) ∧
    ∃ token value,
      .ok token ∈ Lexer.Session.answers true "a$\x7b .5e-1\x7d".toList [.next, .next, .next] ∧
        token.kind = .num value ∧
        CoversNumeral (normalize "a$\x7b .5e-1\x7d".toList) token.span value := by
  refine ⟨?_, ?_⟩
  · obtain ⟨value, known⟩ : ∃ value, Literal.value? "0x1E".toList = some value :=
      Option.isSome_iff_exists.1 ((number_tokens_agree.2.2.2 _).2
        (.inl (.marked (.inl rfl) (by decide) (by decide))))
    have read := number_tokens_agree.1 _ _ known
    exact ⟨value, _, known, read,
      number_tokens_agree.2.2.1 false _ _ read _ (List.mem_cons_self ..) value rfl⟩
  · have found : (Lexer.Session.answers true "a$\x7b .5e-1\x7d".toList [.next, .next, .next]).any
        (fun answer => (answer.toOption.bind Token.num?).isSome) = true := by
      decide +kernel
    obtain ⟨answer, returned, number⟩ := List.any_eq_true.1 found
    cases answer with
    | error error => simp [Except.toOption] at number
    | ok token =>
      obtain ⟨value, same⟩ := Option.isSome_iff_exists.1 number
      have kind := Token.num?_eq_some.1 same
      exact ⟨token, value, returned, kind, number_tokens_agree.2.1 true _ _ token value returned kind⟩

end Stencil
