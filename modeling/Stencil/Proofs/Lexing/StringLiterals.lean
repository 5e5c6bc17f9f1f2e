import Stencil.Proofs.Lexing.Breaks
import Stencil.Proofs.Lexing.Escapes
/-!
# String literals

A body in quotes is read as one literal exactly when it splits into characters and escapes, each of
them the longest that stands at its place (`Splits`), and then as the characters that these stand for.

The reader of code points between braces takes a plus sign before their digits, which the grammar
does not; bodies with such an escape behind a part that splits (`Signed`) are left out.

The printer writes any text as such a literal, which is read back as the text wherever code is read,
whatever stands behind it (`quoted_read_back`).
-/

set_option autoImplicit false

namespace Stencil.StringLiteral

open Stencil.Lexing
open Stencil.Text

/-- The body of a literal in the given quotes splits into characters and escapes, and stands for the
characters. -/
inductive Splits (quote : Char) : List Char → List Char → Prop where
  | nil : Splits quote [] []
  | plain {c : Char} {body value : List Char} (inside : c ≠ quote) (other : c ≠ '\\')
    (rest : Splits quote body value) : Splits quote (c :: body) (c :: value)
  | escape {escape chars body value : List Char} (known : Escape escape chars)
    (longest : Longest escape body) (rest : Splits quote body value) :
    Splits quote ('\\' :: (escape ++ body)) (chars ++ value)

/-- Behind a part of the body that splits stands an escape in braces with a plus sign. -/
def Signed (quote : Char) (body : List Char) : Prop :=
  ∃ before value behind, Splits quote before value ∧ body = before ++ '\\' :: behind ∧
    SignedEscape behind

/-! ## Bodies -/

/-- The quotes of literals. -/
def IsQuote (c : Char) : Prop := c = '"' ∨ c = '\''

section

variable {quote : Char} {body value : List Char}

/-- A quote stands in no escape, but for its beginning. -/
theorem IsQuote.apart (known : IsQuote quote) :
    hexValue? quote = none ∧ quote ∉ "\\u\x7b\x7d".toList ∧ quote ≠ '\\' := by
  rcases known with rfl | rfl
  · decide
  · decide

/-- A quote is neither a line break nor the mark before a text. -/
theorem IsQuote.unbroken (known : IsQuote quote) :
    isForeignBreak quote = false ∧ quote ≠ '\n' ∧ quote ≠ '\ufeff' := by
  rcases known with rfl | rfl
  · decide
  · decide

/-- A body that splits is read up to the quote, as what it stands for. -/
theorem Splits.read (known : IsQuote quote) (splits : Splits quote body value) {n : Nat}
    (room : body.length < n) :
    stringBody quote n (body ++ [quote]) = .found value (body.length + 1) := by
  obtain ⟨digit, mark, backslash⟩ := known.apart
  induction splits generalizing n with
  | nil =>
    obtain ⟨n, rfl⟩ := Nat.exists_eq_succ_of_ne_zero (Nat.ne_of_gt room)
    simp [stringBody]
  | plain inside other _ ih =>
    obtain ⟨n, rfl⟩ := Nat.exists_eq_succ_of_ne_zero (Nat.ne_of_gt (Nat.zero_lt_of_lt room))
    rw [List.cons_append, stringBody, if_neg inside, if_neg other,
      ih (Nat.lt_of_succ_lt_succ room), map_found, behind_found, List.length_cons, Nat.add_comm 1]
  | @escape escape _ body _ known' longest _ ih =>
    obtain ⟨n, rfl⟩ := Nat.exists_eq_succ_of_ne_zero (Nat.ne_of_gt (Nat.zero_lt_of_lt room))
    have read := stringEscape_of_longest known' (longest.concat known' digit mark)
    simp only [List.length_cons, List.length_append] at room
    rw [List.cons_append, List.append_assoc, stringBody, if_neg backslash.symm, if_pos rfl, read,
      andThen_found, List.drop_left, ih (by omega), map_found, behind_found, behind_found]
    refine congrArg _ ?_
    simp only [List.length_cons, List.length_append]
    omega

theorem Signed.plain {c : Char} (signed : Signed quote body) (inside : c ≠ quote)
    (other : c ≠ '\\') : Signed quote (c :: body) := by
  obtain ⟨before, value, behind, splits, rfl, escape⟩ := signed
  exact ⟨c :: before, c :: value, behind, .plain inside other splits, rfl, escape⟩

theorem Signed.escape {escape chars : List Char} (signed : Signed quote body)
    (known : Escape escape chars) (longest : Longest escape body) :
    Signed quote ('\\' :: (escape ++ body)) := by
  obtain ⟨before, value, behind, splits, rfl, escape_⟩ := signed
  exact ⟨_, _, behind, .escape known longest.of_append splits, by simp, escape_⟩

/-- A body that is read up to the quote behind it splits, unless it has a plus sign between braces.
By induction on the bound of the reader. -/
theorem Splits.of_read {n : Nat}
    (found : stringBody quote n (body ++ [quote]) = .found value (body.length + 1))
    (unsigned : ¬ Signed quote body) : Splits quote body value := by
  induction n generalizing body value with
  | zero => cases found
  | succ n ih =>
    cases body with
    | nil =>
      simp only [List.nil_append, stringBody, if_true] at found
      obtain ⟨rfl, -⟩ := found_inj.1 found
      exact .nil
    | cons c body =>
      rw [List.cons_append, stringBody] at found
      split_ifs at found with closing backslash
      · have short := (found_inj.1 found).2
        simp at short
      · subst backslash
        obtain ⟨taken, inner, width⟩ := Scan.behind_eq_found.1 found
        obtain ⟨chars, count, more, read, later, rfl⟩ := Scan.andThen_eq_found.1 inner
        obtain ⟨rest, follows, rfl⟩ := Scan.map_eq_found.1 later
        have quoted := stringBody_width follows
        rw [List.length_cons] at width
        have within : count ≤ body.length := by omega
        have read := confined_stringEscape.within read within
        have known := Escape.of_found read fun signed =>
          unsigned ⟨[], [], body, .nil, rfl, signed⟩
        have longest := longest_of_found read within
        obtain ⟨escape, behind, rfl, rfl⟩ : ∃ escape behind, body = escape ++ behind ∧
            escape.length = count :=
          ⟨_, _, (List.take_append_drop count body).symm, List.length_take_of_le within⟩
        rw [List.take_left] at known longest
        rw [List.drop_left] at longest
        rw [List.append_assoc, List.drop_left] at follows
        obtain rfl : more = behind.length + 1 := by
          rw [List.length_append] at width
          omega
        exact .escape known longest (ih follows fun signed =>
          unsigned (signed.escape known longest))
      · obtain ⟨taken, inner, width⟩ := Scan.behind_eq_found.1 found
        obtain ⟨rest, follows, rfl⟩ := Scan.map_eq_found.1 inner
        obtain rfl : taken = body.length + 1 := by
          rw [List.length_cons] at width
          omega
        exact .plain closing backslash (ih follows fun signed =>
          unsigned (signed.plain closing backslash))

/-- A literal is read from behind its quote when its body splits, and, if no braces hold a plus sign,
only then. -/
theorem stringRest_iff (known : IsQuote quote) (unsigned : ¬ Signed quote body) :
    stringRest quote (body ++ [quote]) = .found value (body.length + 1) ↔
      Splits quote body value := by
  unfold stringRest
  refine ⟨fun found => .of_read found unsigned, fun splits => splits.read known ?_⟩
  rw [List.length_append]
  omega

end

/-! ## Tokens -/

/-- The text is one literal: its tokens are a string, which goes on to the end of the text, and the
end. -/
def Reads (text value : List Char) : Prop :=
  ∃ string ended : Token, tokenize false text = .ok [string, ended] ∧
    string.kind = .string (String.ofList value) ∧
    string.span = ⟨.origin, Position.origin.after text⟩ ∧ ended.kind = .eof

section

variable {quote : Char} {text value : List Char} {lexer : Lexer}

/-- The token at a quote is a string. -/
theorem next_quote (known : IsQuote quote) (code : lexer.mode = .script)
    (rest : lexer.rest = quote :: text) :
    lexer.next = (settled lexer []).accept ((stringRest quote text).behind 1)
      fun chars => .string (String.ofList chars) := by
  have plain : isBlank quote = false ∧ quote ≠ '/' ∧ quote ≠ '\x7b' ∧ quote ≠ '\x7d' := by
    rcases known with rfl | rfl
    · decide +kernel
    · decide +kernel
  obtain ⟨blank, slash, opening, closing⟩ := plain
  have apart : lexer.mode ≠ .text := by simp [code]
  have skipped : lexer.next = (settled lexer []).readToken :=
    next_of_blanks apart rest rfl (by simpa using blank)
      (beginsNoComment_of_head (by simpa using slash))
  have here : (settled lexer []).rest = quote :: text := rest
  have mode : (settled lexer []).mode ≠ .text := apart
  rw [skipped, Lexer.readToken, here]
  simp only [if_neg mode, opening, closing, decide_false, Bool.false_and, Bool.false_eq_true,
    if_false]
  rw [Lexer.readCode, if_pos (by simpa [IsQuote] using known)]

/-- At the end of the text there is the end alone. -/
theorem tokensWithin_end {regexp : Bool} (ready : lexer.Ready regexp []) (n : Nat) :
    ∃ ended, ended.kind = .eof ∧ lexer.tokensWithin (n + 1) = .ok [ended] := by
  obtain ⟨ended, behind, next, isEof⟩ := ready.ended
  refine ⟨ended, ?_, ?_⟩
  · unfold Token.isEof at isEof
    split at isEof
    · next kind => exact kind
    · cases isEof
  · rw [Lexer.tokensWithin, next]
    exact if_pos isEof

/-- A beginning of the text behind which stands the same place as behind all of it is all of it. -/
theorem length_le_of_after {text : List Char} {width : Nat}
    (same : Position.origin.after (text.take width) = Position.origin.after text) :
    text.length ≤ width := by
  by_contra short
  have filled : text.drop width ≠ [] := by
    rw [Ne, List.drop_eq_nil_iff]
    omega
  have before := byte_after_lt (text.take width) filled
  rw [List.take_append_drop, same] at before
  exact absurd before (Nat.lt_irrefl _)

/-- The string at the beginning of a text goes on to its end when its reader goes over all of it. -/
theorem string_whole {width : Nat} {chars : List Char} (known : IsQuote quote)
    (found : stringRest quote text = .found chars width)
    (place : Position.origin.after ((quote :: text).take (1 + width))
      = Position.origin.after (quote :: text)) : width = text.length := by
  obtain ⟨-, newline, -⟩ := known.unbroken
  have within := ((continued_stringRest newline).carries (.inl rfl : Joined text []) found).within
  have whole := length_le_of_after place
  rw [List.length_cons] at whole
  omega

/-- The literal is all of its text when its reader goes over all of the text behind the quote. -/
theorem reads_iff (known : IsQuote quote) (own : ∀ c ∈ text, isForeignBreak c = false) :
    Reads (quote :: text) value ↔ stringRest quote text = .found value text.length := by
  obtain ⟨unbroken, -, unmarked⟩ := known.unbroken
  have same : Text.normalize (quote :: text) = quote :: text :=
    normalize_of_unbroken (List.forall_mem_cons.2 ⟨unbroken, own⟩) (by simpa using unmarked)
  have start : tokenize false (quote :: text)
      = (Lexer.ofText false (quote :: text)).tokensWithin (text.length + 2) := by
    rw [tokenize, Lexer.ofSource, same]
    rfl
  have next : (Lexer.ofText false (quote :: text)).next = _ := next_quote known rfl rfl
  rw [Reads, start, Lexer.tokensWithin, next]
  constructor
  · rintro ⟨string, ended, read, kind, span, -⟩
    split at read
    · cases read
    · next token behind took =>
      obtain ⟨chars, ok, made⟩ := Lexer.accept_ok took
      cases made
      split_ifs at read with eof
      · cases read
      · cases others : Lexer.tokensWithin (text.length + 1) _ with
        | error e =>
          rw [others] at read
          cases read
        | ok tokens =>
          rw [others] at read
          cases read
          have found : stringRest quote text = .found chars (stringRest quote text).width := by
            rw [Scan.found, ← ok]
            rfl
          have whole := string_whole known found (congrArg Span.stop span)
          have value_ : chars = value :=
            String.ofList_injective (TokenKind.string.inj kind)
          rw [found, whole, value_]
  · intro found
    rw [found, behind_found, accept_found]
    have whole : (quote :: text).take (1 + text.length) = quote :: text :=
      List.take_of_length_le (by rw [List.length_cons, Nat.add_comm])
    have nothing : (quote :: text).drop (1 + text.length) = [] :=
      List.drop_eq_nil_of_le (by rw [List.length_cons, Nat.add_comm])
    obtain ⟨string, behind, made, kind, span, ready⟩ : ∃ string behind,
        ((settled (Lexer.ofText false (quote :: text)) []).cross (1 + text.length)).token
            (.string (String.ofList value)) = (.ok string, behind) ∧
          string.kind = .string (String.ofList value) ∧
          string.span = ⟨.origin, Position.origin.after ((quote :: text).take (1 + text.length))⟩ ∧
          behind.Ready _ ((quote :: text).drop (1 + text.length)) :=
      ⟨_, _, rfl, rfl, rfl, rfl, rfl, rfl, rfl⟩
    rw [whole] at span
    rw [nothing] at ready
    have going : string.isEof = false := by simp [Token.isEof, kind]
    obtain ⟨ended, ends, last⟩ := tokensWithin_end ready text.length
    rw [made]
    dsimp only
    rw [going, if_neg Bool.false_ne_true, last]
    exact ⟨string, ended, rfl, kind, span, ends⟩

end

theorem Signed.plus_mem {quote : Char} {body : List Char} (signed : Signed quote body) :
    '+' ∈ body := by
  obtain ⟨_, _, _, _, rfl, _, _, _, _, rfl⟩ := signed
  simp

theorem found_of_outcome {α : Type} {scan : Scan α} {result : α} {width : Nat}
    (ok : scan.outcome.toOption = some result) (wide : scan.width = width) :
    scan = .found result width := by
  obtain ⟨outcome, _⟩ := scan
  cases outcome with
  | error cause => cases ok
  | ok value =>
    cases ok
    cases wide
    rfl

/-- In code, whatever the mode and the open braces, a quoted text at the place of the lexer is read
back as the text. The token ends at the closing quote, where the lexer goes on with what stands
there. Normalizing leaves the quoted text as it is. -/
theorem quoted_read_back (lexer : Lexer) (text : String) (after : List Char)
    (code : lexer.mode ≠ .text) (rest : lexer.rest = (Quoted.literal text).toList ++ after) :
    lexer.next =
        (.ok
          { kind := .string text
            span := ⟨lexer.place, lexer.place.after (Quoted.literal text).toList⟩
            afterBreak := lexer.sawBreak
            comments := lexer.comments },
          { lexer with
            rest := after
            place := lexer.place.after (Quoted.literal text).toList
            start := lexer.place
            sawBreak := false
            regexpAllowed := false
            comments := [] }) ∧
      normalize (Quoted.literal text).toList = (Quoted.literal text).toList := by
  have spelt : Word lexer.regexpAllowed (.string text) (Quoted.literal text).toList := .string text
  exact ⟨next_spelt code rest spelt (fun _ _ => rfl) (by simp), normalize_word spelt⟩

/-- Inside a command with open braces: a quote, a backslash, a closing brace, line terminators, a mark,
a control character before a digit, and a character beyond the first plane, before a quote that begins
another literal. -/
theorem quoted_read_back_braces :
    ∃ behind,
      { Lexer.ofText false
            ("\"\\\"\\\\\x7d\\n\\r\\u2028\\ufeff\\u00001😀\"".toList ++ "\"\x7d".toList) with
          mode := .command, depth := 2 }.next
        = (.ok
            { kind := .string "\"\\\x7d\n\r\u2028\ufeff\u00001😀", span := ⟨.origin, ⟨34, 0, 31⟩⟩
              afterBreak := false, comments := [] }, behind) ∧
      behind.rest = "\"\x7d".toList ∧ behind.depth = 2 ∧ behind.mode = .command := by
  have same : (Quoted.literal "\"\\\x7d\n\r\u2028\ufeff\u00001😀").toList
      = "\"\\\"\\\\\x7d\\n\\r\\u2028\\ufeff\\u00001😀\"".toList := by
    decide +kernel
  have stop : Position.origin.after (Quoted.literal "\"\\\x7d\n\r\u2028\ufeff\u00001😀").toList
      = ⟨34, 0, 31⟩ := by
    decide +kernel
  rw [← same, ← stop]
  obtain ⟨read, -⟩ := quoted_read_back
    { Lexer.ofText false _ with mode := .command, depth := 2 } "\"\\\x7d\n\r\u2028\ufeff\u00001😀"
    "\"\x7d".toList (by simp) rfl
  exact ⟨_, read, rfl, rfl, rfl⟩

end Stencil.StringLiteral
