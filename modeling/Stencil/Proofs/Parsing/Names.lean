import Stencil.Proofs.Lexing.Restarts
import Stencil.Proofs.Lexing.Sessions
import Stencil.Proofs.Parsing.Scripts
import Stencil.Proofs.Parsing.SureTokens
/-!
# Names alone

The text of a name token is a spelling of the name: read alone, it gives the name and the end of the
text (`name_reads_back`). Only the first character can stand in the way. The reader of names asks of an
escaped character no more than that it belongs to names, so that a character which may continue a name
but not begin one can begin the text of a token; read alone, such a text is no name
(`name_reads_back_only`).

The text of a name comes from one reader, whatever the mode and the calls before: either it consists
of characters of names, or it is a reserved word of which the first character is escaped.
-/

set_option autoImplicit false

namespace Stencil

open Stencil.Error (ParseError)
open Stencil.Lexing
open Stencil.Text

/-- Whether the word begins as a name does where it stands alone: with a character that begins names,
or with the escape of a reserved word. -/
def beginsName (word : String) : Bool :=
  word.toList.head?.any fun c => isNameStart c || c = '\\'

/-- The name that a token is. -/
def Token.name? (token : Token) : Option String :=
  match token.kind with
  | .name name => some name
  | _ => none

theorem Token.name?_eq_some {token : Token} {name : String} :
    token.name? = some name ↔ token.kind = .name name := by
  unfold Token.name?
  split
  · next kind => simp [kind]
  · next other => simpa using fun same => other name same

namespace Lexer

variable {lexer behind : Lexer} {token : Token} {name : String}

/-! ## The reader that gives names -/

/-- The text of a name is a spelling, and that of no other word. -/
theorem spelt_of_readWord (read : lexer.readWord = (.ok token, behind))
    (kind : token.kind = .name name) : IsSpelling name.toList ∧ wordKind name = .name name := by
  obtain ⟨chars, spelt, ended⟩ := accept_ok read
  have made : wordKind (String.ofList chars) = .name name := (kind_of_token ended).symm.trans kind
  have same : String.ofList chars = name := by
    unfold wordKind at made
    split at made
    · cases made
    · split at made
      · cases made
      · split at made
        · cases made
        · exact TokenKind.name.inj made
  rw [same] at made
  refine ⟨?_, made⟩
  rw [← same, String.toList_ofList]
  exact isSpelling_of_nameText spelt

/-- Of the readers of code one gives names, and only where a name or an escape begins. -/
theorem readWord_of_readCode {c : Char} {following : List Char}
    (read : lexer.readCode c following = (.ok token, behind)) (kind : token.kind = .name name) :
    (isNameStart c = true ∨ c = '\\') ∧ lexer.readWord = (.ok token, behind) := by
  cases readsCode_of_readCode read with
  | word start read => exact ⟨start, read⟩
  | fraction _ read =>
    obtain ⟨_, made⟩ := kind_of_accept read
    cases made.symm.trans kind
  | number read =>
    obtain ⟨_, made⟩ := kind_of_accept read
    cases made.symm.trans kind
  | operator _ read =>
    obtain ⟨_, made⟩ := kind_of_accept read
    cases made.symm.trans kind
  | string made => cases made.symm.trans kind
  | regexp made => cases made.symm.trans kind
  | punctuation made => cases made.symm.trans kind

/-- A name that is read next is spelt as it stands, in every mode. -/
theorem spelt_of_next (read : lexer.next = (.ok token, behind)) (kind : token.kind = .name name) :
    IsSpelling name.toList ∧ wordKind name = .name name := by
  unfold Lexer.next at read
  split at read
  · obtain ⟨c, following, depth, -, read⟩ :=
      readCode_of_readToken read (by simp [Token.isEof, kind]) (by simp [kind]) (by simp [kind])
    exact spelt_of_readWord (readWord_of_readCode read kind).2 kind
  · cases read

/-- A name that is returned by any call is spelt as it stands. -/
theorem Session.spelt_of_answers {template : Bool} {source : List Char} {calls : List Call}
    (listed : .ok token ∈ Session.answers template source calls) (kind : token.kind = .name name) :
    IsSpelling name.toList ∧ wordKind name = .name name := by
  obtain ⟨lexer, -, same | ⟨lead, same⟩⟩ := (placed_start template source).mem_run listed
  · exact spelt_of_next (Prod.ext same.symm rfl : lexer.next = (.ok token, lexer.next.2)) kind
  · have read : lexer.rereadRegexp lead = (.ok token, (lexer.rereadRegexp lead).2) :=
      Prod.ext same.symm rfl
    obtain ⟨_, made⟩ := kind_of_accept read
    cases made.symm.trans kind

/-! ## From the next tokens to all tokens -/

/-- Where the next tokens look like given faces, and the end of the text behind them, these are the
tokens of the text. -/
theorem tokensWithin_of_streams {faces : List Face} (going : ∀ face ∈ faces, face.kind ≠ .eof) :
    ∀ {lexer : Lexer} {n : Nat}, Streams lexer (faces ++ [endOfText]) → faces.length < n →
      ∃ tokens, lexer.tokensWithin n = .ok tokens ∧
        tokens.map (·.kind) = faces.map (·.kind) ++ [.eof] := by
  induction faces with
  | nil =>
    rintro lexer (_ | n) ⟨token, behind, read, fits, -, -⟩ enough
    · exact absurd enough (Nat.not_lt_zero _)
    · have kind : token.kind = .eof := fits.kind
      refine ⟨[token], ?_, by simp [kind]⟩
      simp [tokensWithin, read, Token.isEof, kind]
  | cons face faces ih =>
    rintro lexer (_ | n) ⟨token, behind, read, fits, -, others⟩ enough
    · exact absurd enough (Nat.not_lt_zero _)
    · have more : token.isEof = false :=
        Token.isEof_of_ne (fits.kind ▸ going face (List.mem_cons_self ..))
      obtain ⟨tokens, found, kinds⟩ :=
        ih (fun face listed => going face (List.mem_cons_of_mem _ listed)) others
          (Nat.lt_of_succ_lt_succ enough)
      refine ⟨token :: tokens, ?_, by simp [fits.kind, kinds]⟩
      simp [tokensWithin, read, more, found, Except.map]

end Lexer

open Stencil.Grammar

/-- A text that spells tokens of a script has these tokens. -/
theorem tokenize_of_spells {s : Phase} {faces : List Face} {text : List Char}
    (spelt : Spells scriptStart faces text s) (going : ∀ face ∈ faces, face.kind ≠ .eof) :
    ∃ tokens, tokenize false text = .ok tokens ∧
      tokens.map (·.kind) = faces.map (·.kind) ++ [.eof] := by
  have streams := script_streams spelt
  refine Lexer.tokensWithin_of_streams going streams ?_
  have bound := streams.length_le
  simp only [List.length_append, List.length_cons, List.length_nil] at bound
  omega

/-! ## Reading names back -/

/-- A spelling that begins as names do may stand as a name. -/
theorem isNameText_of_beginsName {name : String} (spelling : IsSpelling name.toList)
    (begins : beginsName name = true) : IsNameText name.toList := by
  rcases spelling with parts | respelt
  · left
    unfold beginsName at begins
    cases chars : name.toList with
    | nil => simp [chars] at begins
    | cons c rest =>
      rw [chars, List.all_cons, Bool.and_eq_true] at parts
      rw [chars, List.head?_cons, Option.any_some, Bool.or_eq_true, decide_eq_true_eq] at begins
      rcases begins with start | rfl
      · rw [isName, start, parts.2]
        rfl
      · exact absurd parts.1 (by rw [isNamePart_backslash]; decide)
  · exact .inr respelt

/-- Names read back as themselves: whatever was read, in whatever mode and order of calls, the text of
a name that was returned gives that name and the end of the text, if it begins as names do. -/
theorem name_reads_back (template : Bool) (source : List Char) (calls : List Lexer.Call)
    (token : Token) (name : String)
    (returned : .ok token ∈ Lexer.Session.answers template source calls)
    (kind : token.kind = .name name) (begins : beginsName name = true) :
    ∃ tokens, tokenize false name.toList = .ok tokens ∧
      tokens.map (·.kind) = [.name name, .eof] := by
  obtain ⟨spelling, plain⟩ := Lexer.Session.spelt_of_answers returned kind
  have text := isNameText_of_beginsName spelling begins
  have spelt : Spells scriptStart [{ kind := .name name }] (name.toList ++ [])
      (scriptStart.behind (.name name)) := by
    refine .word ?_ (fun _ last => absurd last (by simp [scriptStart])) trivial (by simp) rfl .nil
    rw [← plain]
    exact .name text
  rw [List.append_nil] at spelt
  exact tokenize_of_spells spelt (by simp)

/-- A source with a keyword, an escaped keyword, a name with escapes of both forms, and a pair of
surrogates: each name reads back. -/
theorem name_reads_back_escapes :
    (∃ tokens, tokenize false "\\u0069f".toList = .ok tokens ∧
      tokens.map (·.kind) = [.name "\\u0069f", .eof]) ∧
    (∃ tokens, tokenize false "aéb".toList = .ok tokens ∧ tokens.map (·.kind) = [.name "aéb", .eof]) ∧
    ∃ tokens, tokenize false "𠀀c".toList = .ok tokens ∧ tokens.map (·.kind) = [.name "𠀀c", .eof] := by
  have names : ∀ name ∈ ["\\u0069f", "aéb", "𠀀c"],
      (Lexer.Session.answers false
        "if \\u0069f \\u0061\\u\x7be9\x7db \\ud840\\udc00c".toList
        (List.replicate 4 .next)).any
          (fun answer => decide (answer.toOption.bind Token.name? = some name)) = true ∧
        beginsName name = true := by
    decide +kernel
  have read : ∀ name ∈ ["\\u0069f", "aéb", "𠀀c"], ∃ tokens, tokenize false name.toList = .ok tokens ∧
      tokens.map (·.kind) = [.name name, .eof] := by
    intro name listed
    obtain ⟨found, begins⟩ := names name listed
    obtain ⟨answer, returned, named⟩ := List.any_eq_true.1 found
    cases answer with
    | error error => simp [Except.toOption] at named
    | ok token =>
      have kind : token.kind = .name name := Token.name?_eq_some.1 (of_decide_eq_true named)
      exact name_reads_back false _ _ token name returned kind begins
  exact ⟨read _ (by simp), read _ (by simp), read _ (by simp)⟩

/-- The first token of a text of characters of names is a name only where a name begins. -/
theorem isNameStart_of_first {c : Char} {rest : List Char} (part : isNamePart c = true)
    {lexer behind : Lexer} {token : Token} {name : String} (code : lexer.mode = .script)
    (text : lexer.rest = c :: rest) (read : lexer.next = (.ok token, behind))
    (kind : token.kind = .name name) : isNameStart c = true := by
  have blank : isBlank c = false := by
    rw [← Bool.not_eq_true]
    intro blank
    rw [isNamePart_blank blank] at part
    exact absurd part (by decide)
  have apart (d : Char) (other : isNamePart d = false) : c ≠ d := by
    rintro rfl
    rw [other] at part
    exact absurd part (by decide)
  have skipped : lexer.next = (settled lexer []).readToken := by
    refine next_of_blanks (by rw [code]; decide) (show lexer.rest = [] ++ (c :: rest) from text) rfl
      ?_ ?_
    · intro d first
      obtain rfl := Option.some.inj first
      exact blank
    · exact beginsNoComment_of_head (by simpa using apart '/' (by decide +kernel))
  have left : (settled lexer []).rest = c :: rest := by
    simp [settled, Lexer.mark, Lexer.skip, Lexer.cross, text]
  have script : (settled lexer []).mode = .script := code
  rw [skipped, Lexer.readToken, left] at read
  simp only [script, Lexer.countsBraces, reduceCtorEq, if_false, decide_false, Bool.or_false,
    Bool.and_false, Bool.false_eq_true] at read
  exact (Lexer.readWord_of_readCode read kind).1.resolve_right (apart '\\' isNamePart_backslash)

/-- What reads back begins as names do. -/
theorem name_reads_back_only {name : String} (spelling : IsSpelling name.toList) {tokens : List Token}
    (read : tokenize false name.toList = .ok tokens)
    (kinds : tokens.map (·.kind) = [.name name, .eof]) : beginsName name = true := by
  obtain ⟨first, rest, rfl, kind, -⟩ := List.map_eq_cons_iff.1 kinds
  have begun : ∃ behind, (Lexer.ofSource false name.toList).next = (.ok first, behind) := by
    unfold tokenize Lexer.tokensWithin at read
    dsimp only at read
    split at read
    · cases read
    · next token behind given =>
      refine ⟨behind, given.trans ?_⟩
      split_ifs at read with ended
      · cases read
        rfl
      · unfold Except.map at read
        split at read
        · cases read
        · cases read
          rfl
  obtain ⟨behind, given⟩ := begun
  rcases id spelling with parts | ⟨word, reserved, same⟩
  · cases chars : name.toList with
    | nil =>
      have ended : (Lexer.ofSource false []).next.1.toOption.map Token.name? = some none := by
        decide +kernel
      rw [chars] at given
      simp [given, Except.toOption, Token.name?_eq_some.2 kind] at ended
    | cons c cs =>
      rw [chars, List.all_cons, Bool.and_eq_true] at parts
      have own : ∀ d ∈ c :: cs, isForeignBreak d = false := by
        rw [← chars]
        exact unbroken_spelling spelling
      have text : Text.normalize (c :: cs) = c :: cs := by
        refine normalize_of_unbroken own fun marked => ?_
        obtain rfl := Option.some.inj marked
        rw [isNamePart_foreign (.inr rfl)] at parts
        exact absurd parts.1 (by decide)
      have start : isNameStart c = true :=
        isNameStart_of_first parts.1 rfl (by rw [chars, Lexer.ofSource, text]; rfl) given kind
      simp [beginsName, chars, start]
  · obtain ⟨-, c, tail, chars, start⟩ := IsNameText.begins (.inr ⟨word, reserved, same⟩)
    simpa [beginsName, chars] using start

/-- A digit that is escaped begins the text of a name, which alone is a number. -/
theorem escaped_digit_reads_otherwise :
    ∃ token, .ok token ∈ Lexer.Session.answers false "\\u0031".toList [.next] ∧
      token.kind = .name "1" ∧
      ¬ ∃ tokens, tokenize false "1".toList = .ok tokens ∧
        tokens.map (·.kind) = [.name "1", .eof] := by
  have found : (Lexer.Session.answers false "\\u0031".toList [.next]).any
      (fun answer => decide (answer.toOption.bind Token.name? = some "1")) = true ∧
      (tokenize false "1".toList).toOption.map (List.map Token.name?) = some [none, none] := by
    decide +kernel
  obtain ⟨answer, returned, named⟩ := List.any_eq_true.1 found.1
  cases answer with
  | error error => simp [Except.toOption] at named
  | ok token =>
    refine ⟨token, returned, Token.name?_eq_some.1 (of_decide_eq_true named), ?_⟩
    rintro ⟨tokens, read, kinds⟩
    obtain ⟨first, rest, rfl, kind, -⟩ := List.map_eq_cons_iff.1 kinds
    have none_ := found.2
    rw [read] at none_
    simp [Except.toOption, Token.name?_eq_some.2 kind] at none_

end Stencil
