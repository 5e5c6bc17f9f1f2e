import Stencil.Proofs.Lexing.Excerpts
import Stencil.Proofs.Lexing.Streams
/-!
# Reading on across a line break

A text that is read to its end is read in the same way when more text is put behind it, provided that
the two meet at a line break (`Joined`): no token goes on across a line break that does not hold one
already. So two lexers before a text and before the longer one read the same tokens up to the end of
the first (`Lexer.Seam.next`); there the second reads what was put behind (`Lexer.Seam.next_end`).

The converse, that a token of the longer text is one of the text, asks only that the token ends within
the text; here nothing is known of the longer text, so each reader is followed forward.
-/

set_option autoImplicit false

namespace Stencil

open Stencil.Error (Fault ParseError)
open Stencil.Text

/-! ## Texts that meet at a line break -/

/-- The first text goes on with the second at a line break, if it goes on at all. -/
def Joined (text more : List Char) : Prop :=
  more = [] ∨ more.head? = some '\n' ∨ text.getLast? = some '\n'

namespace Joined

variable {text more rest : List Char}

/-- What is left of the first text, if anything is, meets the second where the whole did. -/
theorem suffix (joined : Joined text more) (suffix : rest <:+ text) (filled : rest ≠ []) :
    Joined rest more := by
  obtain none_ | begins | ends := joined
  · exact .inl none_
  · exact .inr (.inl begins)
  · obtain ⟨before, rfl⟩ := suffix
    rw [List.getLast?_append_of_ne_nil _ filled] at ends
    exact .inr (.inr ends)

/-- Behind characters of which the last is no line break. -/
theorem drop (joined : Joined text more) {width : Nat}
    (last : (text.take width).getLast? ≠ some '\n') :
    Joined (text.drop width) more := by
  by_cases filled : text.drop width = []
  · obtain none_ | begins | ends := joined
    · exact .inl none_
    · exact .inr (.inl begins)
    · have whole : text.take width = text := List.take_of_length_le (List.drop_eq_nil_iff.1 filled)
      rw [whole] at last
      exact absurd ends last
  · exact joined.suffix (List.drop_suffix _ _) filled

theorem tail {c : Char} (joined : Joined (c :: rest) more) (other : c ≠ '\n') : Joined rest more := by
  exact @Joined.drop (c :: rest) more joined 1 (by simpa using other)

/-- The text behind may be cut short. -/
theorem take (joined : Joined text more) (count : Nat) : Joined text (more.take count) := by
  obtain rfl | begins | ends := joined
  · exact .inl (by simp)
  · obtain ⟨others, rfl⟩ := List.head?_eq_some_iff.1 begins
    cases count with
    | zero => exact .inl rfl
    | succ count => exact .inr (.inl rfl)
  · exact .inr (.inr ends)

/-- A run of characters that are no line breaks ends with the first text at the latest. -/
theorem takeWhile (joined : Joined text more) {p : Char → Bool} (stops : p '\n' = false) :
    (text ++ more).takeWhile p = text.takeWhile p := by
  rw [List.takeWhile_append]
  split_ifs with whole
  · have all : text.takeWhile p = text := (List.takeWhile_prefix p).eq_of_length whole
    obtain rfl | begins | ends := joined
    · simp [all]
    · obtain ⟨others, rfl⟩ := List.head?_eq_some_iff.1 begins
      simp [stops, all]
    · have listed : '\n' ∈ text.takeWhile p := by
        rw [all]
        exact List.mem_of_getLast? ends
      have held := List.all_eq_true.1 List.all_takeWhile _ listed
      rw [stops] at held
      cases held
  · rfl

end Joined

/-- A pattern that is found is found with more text behind it. -/
theorem findPattern_append {pattern text : List Char} (more : List Char) {length : Nat}
    (found : findPattern pattern text = some length) :
    findPattern pattern (text ++ more) = some length := by
  induction text generalizing length with
  | nil =>
    unfold findPattern at found
    split_ifs at found with none_
    cases found
    obtain rfl := List.isEmpty_iff.1 none_
    cases more <;> rfl
  | cons c text ih =>
    rw [List.cons_append]
    unfold findPattern at found ⊢
    split_ifs at found with here
    · rw [if_pos]
      · exact found
      · rw [List.isPrefixOf_iff_prefix] at here ⊢
        exact here.trans (List.prefix_append _ more)
    · obtain ⟨later, sought, rfl⟩ := Option.map_eq_some_iff.1 found
      rw [ih sought]
      split_ifs with here'
      · -- the pattern ends within the text where it was found, and so would end within it here
        obtain ⟨before, behind, -, same⟩ := findPattern_some sought
        have length := congrArg List.length same
        simp only [List.length_append] at length
        rw [List.isPrefixOf_iff_prefix] at here here'
        refine absurd (List.prefix_of_prefix_length_le here' (List.prefix_append _ more) ?_) here
        rw [List.length_cons]
        omega
      · rfl

/-! ## Readers -/

/-- What a reader found in a text it finds with more text behind, and it stopped within the text, not
behind a line break. -/
structure Carries {α : Type} (read : List Char → Scan α) (text more : List Char) (result : α)
    (width : Nat) : Prop where
  onward : read (text ++ more) = .found result width
  within : width ≤ text.length
  last : (text.take width).getLast? ≠ some '\n'

/-- A reader of which every result is carried over to longer texts. -/
structure Continued {α : Type} (read : List Char → Scan α) : Prop where
  carries : ∀ {text more : List Char} {result : α} {width : Nat}, Joined text more →
    read text = .found result width → Carries read text more result width

section Continued

variable {α β : Type} {read : List Char → Scan α} {text more : List Char} {width : Nat}

theorem Continued.map (continued : Continued read) (f : α → β) :
    Continued fun text => (read text).map f := by
  constructor
  intro text more result width joined found
  obtain ⟨a, inner, rfl⟩ := Scan.map_eq_found.1 found
  have carries := continued.carries joined inner
  exact ⟨Scan.map_eq_found.2 ⟨a, carries.onward, rfl⟩, carries.within, carries.last⟩

theorem Continued.andThen {next : α → List Char → Scan β} (first : Continued read)
    (second : ∀ a, Continued (next a)) : Continued fun text => (read text).andThen text next := by
  constructor
  intro text more result width joined found
  obtain ⟨a, taken, later, inner, behind, rfl⟩ := Scan.andThen_eq_found.1 found
  have carries := first.carries joined inner
  have carries' := (second a).carries (joined.drop carries.last) behind
  have bound := carries'.within
  rw [List.length_drop] at bound
  refine ⟨Scan.andThen_eq_found.2 ⟨a, taken, later, carries.onward, ?_, rfl⟩, ?_, ?_⟩
  · rw [List.drop_append_of_le_length carries.within]
    exact carries'.onward
  · have := carries.within
    omega
  · rw [List.take_add]
    by_cases filled : (text.drop taken).take later = []
    · rw [filled, List.append_nil]
      exact carries.last
    · rw [List.getLast?_append_of_ne_nil _ filled]
      exact carries'.last

/-- A result that takes no text. -/
theorem continued_found (result : α) : Continued fun _ => Scan.found result 0 := by
  constructor
  intro text more result width joined found
  cases found
  exact ⟨rfl, Nat.zero_le _, by simp⟩

/-- Behind a character that is there, and is no line break. -/
theorem Continued.behind (continued : Continued read) (longer : List Char → Scan α) {c : Char}
    {result : α} (same : ∀ rest, longer (c :: rest) = (read rest).behind 1) (other : c ≠ '\n')
    (joined : Joined (c :: text) more) (found : longer (c :: text) = .found result width) :
    Carries longer (c :: text) more result width := by
  rw [same] at found
  obtain ⟨taken, inner, rfl⟩ := Scan.behind_eq_found.1 found
  have carries := continued.carries (joined.tail other) inner
  refine ⟨?_, ?_, ?_⟩
  · rw [List.cons_append, same]
    exact Scan.behind_eq_found.2 ⟨taken, carries.onward, rfl⟩
  · have := carries.within
    rw [List.length_cons]
    omega
  · rw [Nat.add_comm, List.take_succ_cons]
    by_cases filled : text.take taken = []
    · simpa [filled] using other
    · rw [List.getLast?_cons_of_ne_nil filled]
      exact carries.last

end Continued

/-! ### Escapes -/

/-- Hexadecimal digits that are read are there. -/
theorem hexRun_found {count code : Nat} {text : List Char} {result width : Nat}
    (found : hexRun count code text = .found result width) :
    width ≤ text.length ∧ '\n' ∉ text.take width := by
  induction count generalizing code text width with
  | zero =>
    cases found
    exact ⟨Nat.zero_le _, by simp⟩
  | succ count ih =>
    cases text with
    | nil => cases found
    | cons c text =>
      unfold hexRun at found
      split at found
      · next digit known =>
        obtain ⟨taken, inner, rfl⟩ := Scan.behind_eq_found.1 found
        obtain ⟨bound, digits⟩ := ih inner
        refine ⟨by rw [List.length_cons]; omega, ?_⟩
        rw [Nat.add_comm, List.take_succ_cons]
        intro listed
        rcases List.mem_cons.1 listed with rfl | listed
        · simp [hexValue?, isDigit] at known
        · exact digits listed
      · cases found

theorem continued_hexRun (count code : Nat) : Continued (hexRun count code) := by
  constructor
  intro text more result width joined found
  obtain ⟨bound, digits⟩ := hexRun_found found
  exact ⟨hexRun_append more found, bound, fun last => digits (List.mem_of_getLast? last)⟩

/-- The low half of a surrogate pair takes six characters, none of them a line break. -/
theorem lowSurrogate?_found {text : List Char} {low : Nat} (found : lowSurrogate? text = some low) :
    6 ≤ text.length ∧ '\n' ∉ text.take 6 := by
  unfold lowSurrogate? at found
  split at found
  · next rest =>
    cases read : hexRun 4 0 rest with
    | mk outcome width =>
      rw [read] at found
      cases outcome with
      | error cause => cases found
      | ok code =>
        have wide := hexRun_width read
        obtain ⟨bound, digits⟩ := hexRun_found read
        subst wide
        exact ⟨by simpa using bound, by simpa using digits⟩
  · cases found

/-- Whether the low half of a surrogate pair stands there does not depend on the text behind. -/
theorem Joined.lowSurrogate? {text more : List Char} (joined : Joined text more) :
    Stencil.lowSurrogate? (text ++ more) = Stencil.lowSurrogate? text := by
  cases low : Stencil.lowSurrogate? text with
  | some value => exact lowSurrogate?_append more low
  | none =>
    cases longer : Stencil.lowSurrogate? (text ++ more) with
    | none => rfl
    | some value =>
      obtain ⟨bound, unbroken⟩ := lowSurrogate?_found longer
      by_cases within : 6 ≤ text.length
      · rw [lowSurrogate?_within longer within] at low
        cases low
      · -- the two texts meet within the six characters
        rw [List.take_append, List.take_of_length_le (Nat.le_of_lt (Nat.lt_of_not_le within))]
          at unbroken
        rw [List.length_append] at bound
        obtain rfl | begins | ends := joined
        · exact absurd (by simpa using bound) within
        · obtain ⟨others, rfl⟩ := List.head?_eq_some_iff.1 begins
          obtain ⟨room, same⟩ := Nat.exists_eq_succ_of_ne_zero (n := 6 - text.length) (by omega)
          exact absurd (by simp [same]) unbroken
        · exact absurd (List.mem_append_left _ (List.mem_of_getLast? ends)) unbroken

theorem continued_digitEscape : Continued digitEscape := by
  unfold digitEscape
  refine (continued_hexRun 4 0).andThen fun unit => ⟨?_⟩
  intro text more result width joined found
  have nothing {code : Nat} (found : Scan.found (charOfCode code) 0 = .found result width) :
      Carries (fun _ => Scan.found (charOfCode code) 0) text more result width :=
    (continued_found _).carries joined found
  split_ifs at found with high
  · cases low : lowSurrogate? text with
    | some value =>
      simp only [low] at found
      have wide : 6 = width := congrArg Scan.width found
      obtain ⟨bound, unbroken⟩ := lowSurrogate?_found low
      subst wide
      refine ⟨?_, bound, fun last => unbroken (List.mem_of_getLast? last)⟩
      rw [if_pos high, joined.lowSurrogate?, low]
      exact found
    | none =>
      simp only [low] at found
      refine ⟨?_, (nothing found).within, (nothing found).last⟩
      rw [if_pos high, joined.lowSurrogate?, low]
      exact found
  · exact ⟨by rw [if_neg high]; exact found, (nothing found).within, (nothing found).last⟩

theorem continued_unicodeEscape : Continued unicodeEscape := by
  constructor
  intro text more result width joined found
  cases text with
  | nil => cases found
  | cons c rest =>
    by_cases brace : c = '\x7b'
    · subst brace
      unfold unicodeEscape at found
      split at found
      · next rest same =>
        obtain rfl := (List.cons.inj same).2
        split at found
        · cases found
        · next length closed =>
          split at found
          · next code known =>
            cases found
            have later := findPattern_append more closed
            obtain ⟨before, behind, rfl, rfl⟩ := findPattern_some closed
            have code_ : ((before ++ (['\x7d'] ++ behind)) ++ more).take before.length
                = (before ++ (['\x7d'] ++ behind)).take before.length :=
              List.take_append_of_le_length (by simp)
            refine ⟨?_, by simp, ?_⟩
            · rw [List.cons_append]
              unfold unicodeEscape
              simp only [later, code_, known]
            · have taken : ('\x7b' :: (before ++ (['\x7d'] ++ behind))).take (before.length + 2)
                  = ('\x7b' :: before) ++ ['\x7d'] := by
                simp [List.take_append]
              rw [taken, List.getLast?_concat]
              decide
          · cases found
      · next other => exact absurd rfl (other _)
    · rw [unicodeEscape_digits_eq brace] at found
      have carries := continued_digitEscape.carries joined found
      refine ⟨?_, carries.within, carries.last⟩
      rw [List.cons_append, unicodeEscape_digits_eq brace]
      exact carries.onward

/-! ### Strings -/

/-- The octal digits of an escape end with the text at the latest. -/
theorem Joined.octalRun {text more : List Char} (joined : Joined text more) :
    Stencil.octalRun (text ++ more) = Stencil.octalRun text := by
  cases text with
  | nil =>
    obtain rfl | begins | ends := joined
    · rfl
    · obtain ⟨others, rfl⟩ := List.head?_eq_some_iff.1 begins
      rfl
    · cases ends
  | cons c rest =>
    rw [List.cons_append]
    unfold Stencil.octalRun
    dsimp only
    by_cases octal : (octalValue? c).isSome = true
    · have other : c ≠ '\n' := by
        rintro rfl
        exact absurd octal (by decide)
      have digits (count : Nat) :
          ((rest ++ more).take count).takeWhile (fun c => (octalValue? c).isSome)
            = (rest.take count).takeWhile fun c => (octalValue? c).isSome := by
        rw [List.take_append]
        by_cases enough : count ≤ rest.length
        · rw [Nat.sub_eq_zero_of_le enough, List.take_zero, List.append_nil]
        · rw [List.take_of_length_le (Nat.le_of_not_le enough)]
          exact ((joined.tail other).take _).takeWhile (by decide)
      rw [if_pos octal, if_pos octal, digits]
    · rw [if_neg octal, if_neg octal]

/-- An escape of a string that is read is read with more text behind. -/
theorem stringEscape_append {text more result : List Char} {width : Nat} (joined : Joined text more)
    (found : stringEscape text = .found result width) :
    stringEscape (text ++ more) = .found result width := by
  cases text with
  | nil => cases found
  | cons c rest =>
    have octal := joined.octalRun
    rw [Lexing.stringEscape_cons] at found
    rw [List.cons_append] at octal ⊢
    rw [Lexing.stringEscape_cons, octal]
    dsimp only at found ⊢
    split_ifs at found ⊢ with none_ short long
    · obtain ⟨taken, inner, rfl⟩ := Scan.behind_eq_found.1 found
      obtain ⟨code, digits, rfl⟩ := Scan.map_eq_found.1 inner
      exact Scan.behind_eq_found.2
        ⟨taken, Scan.map_eq_found.2 ⟨code, hexRun_append more digits, rfl⟩, rfl⟩
    · obtain ⟨taken, inner, rfl⟩ := Scan.behind_eq_found.1 found
      obtain ⟨char, escape, rfl⟩ := Scan.map_eq_found.1 inner
      have apart : c ≠ '\n' := by
        subst long
        decide
      have carries := continued_unicodeEscape.carries (joined.tail apart) escape
      exact Scan.behind_eq_found.2
        ⟨taken, Scan.map_eq_found.2 ⟨char, carries.onward, rfl⟩, rfl⟩
    · exact found
    · exact found

/-- A string that is read takes its quote. -/
theorem stringBody_width {quote : Char} {n : Nat} {text result : List Char} {width : Nat}
    (found : stringBody quote n text = .found result width) : 0 < width := by
  cases n with
  | zero => cases found
  | succ n =>
    cases text with
    | nil => cases found
    | cons c rest =>
      unfold stringBody at found
      split_ifs at found
      · cases found
        exact Nat.one_pos
      · obtain ⟨taken, -, rfl⟩ := Scan.behind_eq_found.1 found
        omega
      · obtain ⟨taken, -, rfl⟩ := Scan.behind_eq_found.1 found
        omega

/-- A string that is read ends with its quote, and is read with more text behind. By induction on the
bound; behind an escape there is more to read, so the two texts still meet at a line break. -/
theorem continued_stringBody {quote : Char} (known : quote ≠ '\n') (n : Nat) :
    Continued (stringBody quote n) := by
  constructor
  intro text more result width joined found
  induction n generalizing text result width with
  | zero => cases found
  | succ n ih =>
    cases text with
    | nil => cases found
    | cons c rest =>
      -- what is read behind the given number of characters
      have later (count : Nat) {f : List Char → List Char} {result : List Char} {width : Nat}
          (found : ((stringBody quote n (rest.drop count)).map f) = .found result width) :
          (stringBody quote n ((rest ++ more).drop count)).map f = .found result width ∧
            1 + (count + width) ≤ (c :: rest).length ∧
            ((c :: rest).take (1 + (count + width))).getLast? ≠ some '\n' := by
        obtain ⟨body, inner, rfl⟩ := Scan.map_eq_found.1 found
        have positive := stringBody_width inner
        have filled : rest.drop count ≠ [] := by
          intro none_
          rw [none_] at inner
          cases n with
          | zero => cases inner
          | succ n => cases inner
        have room : count < rest.length := by
          rw [Ne, List.drop_eq_nil_iff] at filled
          omega
        have carries := ih (joined.suffix
          ((List.drop_suffix count rest).trans (List.suffix_cons c rest)) filled) inner
        have bound := carries.within
        rw [List.length_drop] at bound
        refine ⟨?_, by rw [List.length_cons]; omega, ?_⟩
        · rw [List.drop_append_of_le_length (Nat.le_of_lt room)]
          exact Scan.map_eq_found.2 ⟨body, carries.onward, rfl⟩
        · have taken : (rest.drop count).take width ≠ [] := by
            rw [Ne, List.take_eq_nil_iff]
            rintro (none_ | none_)
            · omega
            · exact filled none_
          rw [Nat.add_comm 1, List.take_succ_cons, List.take_add, ← List.cons_append,
            List.getLast?_append_of_ne_nil _ taken]
          exact carries.last
      unfold stringBody at found
      split_ifs at found with closed escape
      · cases found
        refine ⟨?_, by simp, by simpa [closed] using known⟩
        rw [List.cons_append]
        unfold stringBody
        rw [if_pos closed]
      · obtain ⟨taken, inner, rfl⟩ := Scan.behind_eq_found.1 found
        obtain ⟨value, count, body, escaped, behind, rfl⟩ := Scan.andThen_eq_found.1 inner
        obtain ⟨behind, bound, last⟩ := later count behind
        have filled : rest ≠ [] := by
          rintro rfl
          cases escaped
        refine ⟨?_, bound, last⟩
        rw [List.cons_append]
        unfold stringBody
        rw [if_neg closed, if_pos escape]
        exact Scan.behind_eq_found.2 ⟨_, Scan.andThen_eq_found.2 ⟨value, count, body,
          stringEscape_append (joined.suffix (List.suffix_cons c rest) filled) escaped, behind, rfl⟩,
          rfl⟩
      · obtain ⟨taken, inner, rfl⟩ := Scan.behind_eq_found.1 found
        obtain ⟨behind, bound, last⟩ := later 0 inner
        rw [Nat.zero_add] at bound last
        refine ⟨?_, bound, last⟩
        rw [List.cons_append]
        unfold stringBody
        rw [if_neg closed, if_neg escape]
        exact Scan.behind_eq_found.2 ⟨taken, behind, rfl⟩

theorem continued_stringRest {quote : Char} (known : quote ≠ '\n') :
    Continued (stringRest quote) := by
  constructor
  intro text more result width joined found
  unfold stringRest at found
  rw [stringBody_stable quote (Nat.lt_succ_self _) (m := (text ++ more).length + 1)
    (by rw [List.length_append]; omega)] at found
  have carries := (continued_stringBody known _).carries joined found
  exact ⟨carries.onward, carries.within, carries.last⟩

/-! ### Names -/

theorem continued_nameEscape : Continued nameEscape := by
  constructor
  intro text more result width joined found
  cases text with
  | nil => cases found
  | cons c rest =>
    by_cases unicode : c = 'u'
    · subst unicode
      have checked (char : Char) : Continued fun _ : List Char =>
          if isNamePart char then Scan.found char 0
          else .failed (.badNameCharacter char.toNat) 0 := by
        split_ifs
        · exact continued_found char
        · constructor
          intro text more result width _ found
          cases found
      exact (continued_unicodeEscape.andThen checked).behind _ (fun rest => rfl) (by decide) joined
        found
    · unfold nameEscape at found
      split at found
      · cases found
      · next same => exact absurd (List.cons.inj same).1 unicode
      · cases found

/-- A line break belongs to no name. -/
theorem nameBody_break (n : Nat) (rest : List Char) :
    nameBody n ('\n' :: rest) = .found ([], false) 0 := by
  cases n with
  | zero => rfl
  | succ n =>
    unfold nameBody
    rw [if_neg (by decide), if_neg (by simp [Lexing.isNamePart_blank (c := '\n') (by decide)])]

theorem continued_nameBody (n : Nat) : Continued (nameBody n) := by
  induction n with
  | zero => exact continued_found ([], false)
  | succ n ih =>
    constructor
    intro text more result width joined found
    cases text with
    | nil =>
      cases found
      refine ⟨?_, Nat.le_refl _, by simp⟩
      obtain rfl | begins | ends := joined
      · rfl
      · obtain ⟨others, rfl⟩ := List.head?_eq_some_iff.1 begins
        exact nameBody_break _ others
      · cases ends
    | cons c rest =>
      by_cases escape : c = '\\'
      · subst escape
        have read := continued_nameEscape.andThen fun char =>
          ih.map fun result => (char :: result.1, true)
        exact read.behind _ (fun rest => by rw [nameBody]; rfl) (by decide) joined found
      · by_cases part : isNamePart c = true
        · have other : c ≠ '\n' := by
            rintro rfl
            simp [Lexing.isNamePart_blank (c := '\n') (by decide)] at part
          have read := ih.map fun result => (c :: result.1, result.2)
          refine read.behind _ (fun rest => ?_) other joined found
          rw [nameBody, if_neg escape, if_pos part]
        · unfold nameBody at found
          rw [if_neg escape, if_neg part] at found
          cases found
          refine ⟨?_, Nat.zero_le _, by simp⟩
          rw [List.cons_append]
          unfold nameBody
          rw [if_neg escape, if_neg part]

theorem continued_nameText : Continued nameText := by
  constructor
  intro text more result width joined found
  unfold nameText at found
  rw [nameBody_stable (Nat.lt_succ_self _) (m := (text ++ more).length + 1)
    (by rw [List.length_append]; omega)] at found
  have carries := ((continued_nameBody _).map _).carries joined found
  exact ⟨carries.onward, carries.within, carries.last⟩

/-! ### Regular expressions, numbers and operators -/

/-- A regular expression ends with its slash, and what stands behind makes no difference. By induction
on the text. -/
theorem regexpBody_append {inClass afterBackslash : Bool} {text : List Char} (more : List Char)
    {result : List Char} {width : Nat}
    (found : regexpBody inClass afterBackslash text = .found result width) :
    regexpBody inClass afterBackslash (text ++ more) = .found result width ∧
      width ≤ text.length ∧ (text.take width).getLast? = some '/' := by
  induction text generalizing inClass afterBackslash result width with
  | nil =>
    unfold regexpBody at found
    cases afterBackslash <;> cases found
  | cons c text ih =>
    have later {f : List Char → List Char} {inClass afterBackslash : Bool} {result : List Char}
        (found : ((regexpBody inClass afterBackslash text).map f).behind 1 = .found result width) :
        ((regexpBody inClass afterBackslash (text ++ more)).map f).behind 1 = .found result width ∧
          width ≤ (c :: text).length ∧ ((c :: text).take width).getLast? = some '/' := by
      obtain ⟨taken, inner, rfl⟩ := Scan.behind_eq_found.1 found
      obtain ⟨body, read, rfl⟩ := Scan.map_eq_found.1 inner
      obtain ⟨onward, bound, last⟩ := ih read
      refine ⟨Scan.behind_eq_found.2 ⟨taken, Scan.map_eq_found.2 ⟨body, onward, rfl⟩, rfl⟩,
        by rw [List.length_cons]; omega, ?_⟩
      rw [Nat.add_comm, List.take_succ_cons, List.getLast?_cons, last]
      rfl
    rw [List.cons_append]
    cases afterBackslash with
    | true =>
      unfold regexpBody at found ⊢
      exact later found
    | false =>
      unfold regexpBody at found ⊢
      split_ifs at found ⊢ with opening closing slash
      · exact later found
      · exact later found
      · cases found
        refine ⟨rfl, by simp, ?_⟩
        have same : c = '/' := by
          rw [Bool.and_eq_true, decide_eq_true_eq] at slash
          exact slash.1
        simp [same]
      · have same (scan : Scan (List Char)) : scan = scan.map id := by
          cases scan with
          | mk outcome width => cases outcome <;> rfl
        rw [same (regexpBody _ _ text)] at found
        rw [same (regexpBody _ _ (text ++ more))]
        exact later found
      · exact later found

theorem continued_regexpRest : Continued regexpRest := by
  have body : Continued (regexpBody false false) := by
    constructor
    intro text more result width _ found
    obtain ⟨onward, bound, last⟩ := regexpBody_append more found
    exact ⟨onward, bound, by rw [last]; decide⟩
  exact body.andThen fun _ => continued_nameText.map _

/-- No number goes on with a line break. -/
theorem numberRun_break (state : NumberState) (rest : List Char) :
    numberRun state ('\n' :: rest) = [] := by
  unfold numberRun
  have none_ : state.next? '\n' = none := by
    simp [NumberState.next?, Lexing.isAlphanumeric_blank (c := '\n') (by decide)]
  rw [none_]

/-- A number ends with the text at the latest. -/
theorem Joined.numberRun {text more : List Char} (joined : Joined text more) (state : NumberState) :
    Stencil.numberRun state (text ++ more) = Stencil.numberRun state text := by
  induction text generalizing state with
  | nil =>
    obtain rfl | begins | ends := joined
    · rfl
    · obtain ⟨others, rfl⟩ := List.head?_eq_some_iff.1 begins
      exact numberRun_break state others
    · cases ends
  | cons c text ih =>
    by_cases other : c = '\n'
    · subst other
      rw [List.cons_append, numberRun_break, numberRun_break]
    · rw [List.cons_append]
      unfold Stencil.numberRun
      split
      · rw [ih (joined.tail other)]
      · rfl

/-- No operator goes on with a line break. -/
theorem operatorRun_break (operator rest : List Char) :
    operatorRun operator ('\n' :: rest) = operator := by
  unfold operatorRun
  rw [if_neg]
  intro longer
  exact absurd (Lexing.mem_operatorEnds longer) (by decide)

/-- An operator ends with the text at the latest. -/
theorem Joined.operatorRun {text more : List Char} (joined : Joined text more)
    (operator : List Char) :
    Stencil.operatorRun operator (text ++ more) = Stencil.operatorRun operator text := by
  induction text generalizing operator with
  | nil =>
    obtain rfl | begins | ends := joined
    · rfl
    · obtain ⟨others, rfl⟩ := List.head?_eq_some_iff.1 begins
      exact operatorRun_break operator others
    · cases ends
  | cons c text ih =>
    by_cases other : c = '\n'
    · subst other
      rw [List.cons_append, operatorRun_break, operatorRun_break]
    · rw [List.cons_append]
      unfold Stencil.operatorRun
      rw [ih (joined.tail other)]

/-- A number is a beginning of the text, without line breaks. -/
theorem numberRun_taken (state : NumberState) (text : List Char) :
    numberRun state text <+: text ∧ '\n' ∉ numberRun state text := by
  induction text generalizing state with
  | nil => simp [numberRun]
  | cons c text ih =>
    by_cases other : c = '\n'
    · subst other
      simp [numberRun_break]
    · unfold numberRun
      split
      · next state' _ =>
        refine ⟨List.cons_prefix_cons.2 ⟨rfl, (ih state').1⟩, ?_⟩
        rw [List.mem_cons, not_or]
        exact ⟨Ne.symm other, (ih state').2⟩
      · simp

/-- An operator is the one that it grew from and characters of the text, none of them a line break. -/
theorem operatorRun_taken (operator text : List Char) :
    ∃ grown, operatorRun operator text = operator ++ grown ∧ grown <+: text ∧ '\n' ∉ grown := by
  induction text generalizing operator with
  | nil => exact ⟨[], by simp [operatorRun]⟩
  | cons c text ih =>
    by_cases other : c = '\n'
    · subst other
      exact ⟨[], by simp [operatorRun_break]⟩
    · unfold operatorRun
      split_ifs
      · obtain ⟨grown, run, taken, unbroken⟩ := ih (operator ++ [c])
        refine ⟨c :: grown, by rw [run]; simp, List.cons_prefix_cons.2 ⟨rfl, taken⟩, ?_⟩
        rw [List.mem_cons, not_or]
        exact ⟨Ne.symm other, unbroken⟩
      · exact ⟨[], by simp⟩

theorem continued_numberScan (point : Bool) : Continued (Lexer.numberScan point) := by
  constructor
  intro text more result width joined found
  have run := joined.numberRun ⟨false, false, false, point⟩
  obtain ⟨taken, unbroken⟩ := numberRun_taken ⟨false, false, false, point⟩ text
  have wide : (numberRun ⟨false, false, false, point⟩ text).length = width := by
    unfold Lexer.numberScan at found
    dsimp only at found
    split at found
    · exact congrArg Scan.width found
    · cases found
  refine ⟨?_, wide ▸ taken.length_le, ?_⟩
  · unfold Lexer.numberScan at found ⊢
    rwa [run]
  · rw [← wide, ← List.prefix_iff_eq_take.1 taken]
    exact fun last => unbroken (List.mem_of_getLast? last)

/-- The first character of an operator stands before the text that it grows by. -/
theorem carries_operatorScan {c : Char} {text more : List Char} {result : String} {width : Nat}
    (other : c ≠ '\n') (joined : Joined (c :: text) more)
    (found : Lexer.operatorScan c text = .found result width) :
    Lexer.operatorScan c (text ++ more) = .found result width ∧
      width ≤ (c :: text).length ∧ ((c :: text).take width).getLast? ≠ some '\n' := by
  have run := (joined.tail other).operatorRun [c]
  obtain ⟨grown, grows, taken, unbroken⟩ := operatorRun_taken [c] text
  have wide : (operatorRun [c] text).length = width := by
    unfold Lexer.operatorScan at found
    dsimp only at found
    split at found
    · exact congrArg Scan.width found
    · cases found
  have whole : operatorRun [c] text <+: c :: text := by
    rw [grows]
    exact List.cons_prefix_cons.2 ⟨rfl, taken⟩
  refine ⟨?_, wide ▸ whole.length_le, ?_⟩
  · unfold Lexer.operatorScan at found ⊢
    rwa [run]
  · rw [← wide, ← List.prefix_iff_eq_take.1 whole, grows]
    intro last
    rcases List.mem_cons.1 (List.mem_of_getLast? last) with same | listed
    · exact other same.symm
    · exact unbroken listed

/-! ## The lexer -/

namespace Lexer

variable {more : List Char} {l l' m : Lexer} {token : Token}

/-- Two lexers for scripts stand before a text and before the same with more behind, which meet at a
line break; they read alike. -/
structure Seam (more : List Char) (l m : Lexer) : Prop where
  rest : m.rest = l.rest ++ more
  joined : Joined l.rest more
  broke : m.sawBreak = l.sawBreak
  script : l.mode = .script
  script' : m.mode = .script
  regexp : m.regexpAllowed = l.regexpAllowed

/-- A step of the second lexer gives the same token, and the lexers read alike behind it. -/
def Carried (more : List Char) (token : Token) (l : Lexer) (step : Step) : Prop :=
  ∃ token' m, step = (.ok token', m) ∧ token'.kind = token.kind ∧
    token'.afterBreak = token.afterBreak ∧ Seam more l m ∧
    l.regexpAllowed = token.kind.precedesExpression

namespace Seam

theorem cross (seam : Seam more l m) {count : Nat} (within : count ≤ l.rest.length)
    (last : (l.rest.take count).getLast? ≠ some '\n') :
    Seam more (l.cross count) (m.cross count) := by
  refine ⟨?_, seam.joined.drop last, seam.broke, seam.script, seam.script', seam.regexp⟩
  show m.rest.drop count = l.rest.drop count ++ more
  rw [seam.rest, List.drop_append_of_le_length within]

theorem skip (seam : Seam more l m) {count : Nat} (within : count ≤ l.rest.length)
    (joined : Joined (l.rest.drop count) more) : Seam more (l.skip count) (m.skip count) := by
  refine ⟨?_, joined, ?_, seam.script, seam.script', seam.regexp⟩
  · show m.rest.drop count = l.rest.drop count ++ more
    rw [seam.rest, List.drop_append_of_le_length within]
  · show (m.sawBreak || (m.rest.take count).contains '\n') =
      (l.sawBreak || (l.rest.take count).contains '\n')
    rw [seam.rest, List.take_append_of_le_length within, seam.broke]

theorem mark (seam : Seam more l m) : Seam more l.mark m.mark := { seam with }

theorem addComment (seam : Seam more l m) (kind : CommentKind) (text text' : List Char) :
    Seam more (l.addComment kind text) (m.addComment kind text') := { seam with }

/-! ### Blanks and comments -/

/-- Blanks behind which the text goes on, unless nothing was put behind it. -/
theorem skipBlanks (seam : Seam more l m) (filled : l.skipBlanks.rest ≠ [] ∨ more = []) :
    Seam more l.skipBlanks m.skipBlanks := by
  have taken := (List.takeWhile_prefix (l := l.rest) isBlank).length_le
  have both : m.rest.takeWhile isBlank = l.rest.takeWhile isBlank ∧
      Joined (l.rest.drop (l.rest.takeWhile isBlank).length) more := by
    obtain filled | rfl := filled
    · have going : (l.rest.takeWhile isBlank).length ≠ l.rest.length := fun whole =>
        filled (List.drop_eq_nil_iff.2 (Nat.le_of_eq whole.symm))
      refine ⟨?_, seam.joined.suffix (List.drop_suffix _ _) filled⟩
      rw [seam.rest, List.takeWhile_append, if_neg going]
    · exact ⟨by rw [seam.rest, List.append_nil], .inl rfl⟩
  unfold Lexer.skipBlanks
  rw [both.1]
  exact seam.skip taken both.2

/-- Two characters that are no line breaks, with which the longer text begins. -/
theorem opening (seam : Seam more l m) (filled : l.rest ≠ [] ∨ more = []) {a b : Char} {longer : List Char}
    (same : m.rest = a :: b :: longer) (first : a ≠ '\n') (second : b ≠ '\n') :
    ∃ shorter, l.rest = a :: b :: shorter := by
  have whole := seam.rest.symm.trans same
  have joined := seam.joined
  cases rest : l.rest with
  | nil =>
    obtain filled | rfl := filled
    · exact absurd rest filled
    · rw [rest] at whole
      cases whole
  | cons x others =>
    rw [rest] at whole joined
    cases others with
    | nil =>
      obtain ⟨rfl, rfl⟩ : x = a ∧ more = b :: longer := by simpa using whole
      obtain none_ | begins | ends := joined
      · cases none_
      · exact absurd (Option.some.inj begins) second
      · exact absurd (Option.some.inj ends) first
    | cons y shorter =>
      obtain ⟨rfl, rfl, -⟩ : x = a ∧ y = b ∧ shorter ++ more = longer := by simpa using whole
      exact ⟨shorter, rfl⟩

/-- Where the text has no comment, and goes on, the longer text has none. -/
theorem comment?_none (seam : Seam more l m) (filled : l.rest ≠ [] ∨ more = []) (none_ : l.comment? = none) :
    m.comment? = none := by
  unfold Lexer.comment? at none_ ⊢
  rw [if_neg (by simp [seam.script])] at none_
  rw [if_neg (by simp [seam.script'])]
  split
  · next same =>
    obtain ⟨shorter, same'⟩ := seam.opening filled same (by decide) (by decide)
    rw [same'] at none_
    cases none_
  · next same =>
    obtain ⟨shorter, same'⟩ := seam.opening filled same (by decide) (by decide)
    rw [same'] at none_
    cases found : findPattern ['*', '/'] (l.skip 2).rest with
    | none => simp [found] at none_
    | some length => simp [found] at none_
  · rfl

/-- A comment ends with the text at the latest. -/
theorem comment?_some (seam : Seam more l m) (read : l.comment? = some (.ok (), l')) :
    ∃ m', m.comment? = some (.ok (), m') ∧ Seam more l' m' ∧
      l'.regexpAllowed = l.regexpAllowed := by
  -- behind the two characters that begin a comment
  have opened {b : Char} {rest : List Char} (same : l.rest = '/' :: b :: rest) (other : b ≠ '\n') :
      Seam more (l.skip 2) (m.skip 2) ∧ (l.skip 2).rest = rest ∧ m.rest = '/' :: b :: (rest ++ more) := by
    refine ⟨seam.skip (by simp [same]) (seam.joined.drop (by simpa [same] using other)), ?_, ?_⟩
    · simp [Lexer.skip, Lexer.cross, same]
    · rw [seam.rest, same]
      rfl
  unfold Lexer.comment? at read ⊢
  rw [if_neg (by simp [seam.script])] at read
  rw [if_neg (by simp [seam.script'])]
  split at read
  · next rest same =>
    obtain ⟨opened, body, rest'⟩ := opened same (by decide)
    cases read
    rw [rest']
    have line : (m.skip 2).rest.takeWhile (· ≠ '\n') = (l.skip 2).rest.takeWhile (· ≠ '\n') := by
      rw [opened.rest]
      exact opened.joined.takeWhile (by simp)
    have taken := List.takeWhile_prefix (l := (l.skip 2).rest) (· ≠ '\n')
    refine ⟨_, rfl, ?_, rfl⟩
    rw [line]
    refine (opened.skip taken.length_le (opened.joined.drop ?_)).addComment _ _ _
    rw [← List.prefix_iff_eq_take.1 taken]
    intro last
    simpa using List.all_eq_true.1 List.all_takeWhile _ (List.mem_of_getLast? last)
  · next rest same =>
    obtain ⟨opened, body, rest'⟩ := opened same (by decide)
    dsimp only at read
    split at read
    · cases read
    · next length closed =>
      cases read
      rw [rest']
      have closed' : findPattern ['*', '/'] (m.skip 2).rest = some length := by
        rw [opened.rest]
        exact findPattern_append more closed
      obtain ⟨before, behind, rfl, text⟩ := findPattern_some closed
      simp only [closed']
      refine ⟨_, rfl, (opened.skip (by simp [text]) (opened.joined.drop ?_)).addComment _ _ _, rfl⟩
      rw [text, show before ++ (['*', '/'] ++ behind) = (before ++ ['*', '/']) ++ behind by simp,
        List.take_left' (by simp), List.getLast?_append_of_ne_nil _ (by simp)]
      decide
  · cases read

/-- The way to a token. By induction on the bound; where the text goes on at the token, it goes on
behind all blanks and comments before it. -/
theorem skipTriviaWithin (seam : Seam more l m) {n : Nat}
    (moved : l.skipTriviaWithin n = (.ok (), l')) (filled : l'.rest ≠ [] ∨ more = []) :
    ∃ m', m.skipTriviaWithin n = (.ok (), m') ∧ Seam more l' m' := by
  induction n generalizing l m with
  | zero =>
    cases moved
    exact ⟨_, rfl, seam.mark⟩
  | succ n ih =>
    unfold Lexer.skipTriviaWithin at moved ⊢
    rw [if_neg (by simp [seam.script])] at moved
    rw [if_neg (by simp [seam.script'])]
    dsimp only at moved ⊢
    split at moved
    · next behind read =>
      have shorter := comment?_lt read
      have blanks : Seam more l.skipBlanks m.skipBlanks :=
        seam.skipBlanks (.inl (List.length_pos_iff.1 (Nat.zero_lt_of_lt shorter)))
      obtain ⟨other, read', seam', -⟩ := blanks.mark.comment?_some read
      rw [read']
      exact ih seam' moved
    · cases moved
    · next none_ =>
      cases moved
      have blanks := (seam.skipBlanks filled).mark
      rw [blanks.comment?_none filled none_]
      exact ⟨_, rfl, blanks⟩

theorem skipTrivia (seam : Seam more l m) (moved : l.skipTrivia = (.ok (), l'))
    (filled : l'.rest ≠ [] ∨ more = []) :
    ∃ m', m.skipTrivia = (.ok (), m') ∧ Seam more l' m' := by
  have length : m.rest.length = l.rest.length + more.length := by
    rw [seam.rest, List.length_append]
  have stable : l.skipTriviaWithin (m.rest.length + 1) = (.ok (), l') := by
    rw [← moved]
    exact skipTriviaWithin_stable (by omega) (Nat.lt_succ_self _)
  exact seam.skipTriviaWithin stable filled

/-! ### Tokens -/

theorem ends {kind : TokenKind} (seam : Seam more l m) (read : l.token kind = (.ok token, l')) :
    Carried more token l' (m.token kind) := by
  cases read
  exact ⟨_, _, rfl, rfl, seam.broke,
    ⟨seam.rest, seam.joined, rfl, seam.script, seam.script', rfl⟩, rfl⟩

/-- What a scan is accepted for that finds the same in the longer text. -/
theorem accept {α : Type} (seam : Seam more l m) {scan scan' : Scan α} {kind : α → TokenKind}
    (carries : ∀ {result width}, scan = .found result width → scan' = .found result width ∧
      width ≤ l.rest.length ∧ (l.rest.take width).getLast? ≠ some '\n')
    (read : l.accept scan kind = (.ok token, l')) : Carried more token l' (m.accept scan' kind) := by
  obtain ⟨result, ok, ended⟩ := accept_ok read
  have found : scan = .found result scan.width := by
    rw [Scan.found, ← ok]
  obtain ⟨found', within, last⟩ := carries found
  unfold Lexer.accept
  rw [found']
  exact (seam.cross within last).ends ended

/-- What a reader is accepted for whose results are carried over. -/
theorem acceptRead {α : Type} (seam : Seam more l m) {read : List Char → Scan α}
    (continued : Continued read) {kind : α → TokenKind}
    (ran : l.accept (read l.rest) kind = (.ok token, l')) :
    Carried more token l' (m.accept (read m.rest) kind) := by
  refine seam.accept (fun found => ?_) ran
  have carries := continued.carries seam.joined found
  exact ⟨by rw [seam.rest]; exact carries.onward, carries.within, carries.last⟩

theorem readRegexp (seam : Seam more l m) {lead : List Char}
    (read : l.readRegexp lead = (.ok token, l')) : Carried more token l' (m.readRegexp lead) :=
  seam.acceptRead continued_regexpRest read

theorem readWord (seam : Seam more l m) (read : l.readWord = (.ok token, l')) :
    Carried more token l' m.readWord :=
  seam.acceptRead continued_nameText read

theorem readNumber (seam : Seam more l m) {point : Bool}
    (read : l.readNumber point = (.ok token, l')) : Carried more token l' (m.readNumber point) :=
  seam.acceptRead (continued_numberScan point) read

theorem readOperator (seam : Seam more l m) {c : Char} {following : List Char} (other : c ≠ '\n')
    (rest : l.rest = c :: following) (read : l.readOperator c following = (.ok token, l')) :
    Carried more token l' (m.readOperator c (following ++ more)) := by
  have ran : l.accept (operatorScan c following) .operator = (.ok token, l') := read
  show Carried more token l' (m.accept (operatorScan c (following ++ more)) .operator)
  refine seam.accept (fun found => ?_) ran
  rw [rest]
  exact carries_operatorScan other (rest ▸ seam.joined) found

/-- A token of code that begins with a character of the text. -/
theorem readCode (seam : Seam more l m) {c : Char} {following : List Char}
    (rest : l.rest = c :: following) (read : l.readCode c following = (.ok token, l')) :
    Carried more token l' (m.readCode c (following ++ more)) := by
  have joined : Joined (c :: following) more := rest ▸ seam.joined
  have first (other : c ≠ '\n') : Seam more (l.cross 1) (m.cross 1) :=
    seam.cross (by simp [rest]) (by simpa [rest] using other)
  unfold Lexer.readCode at read ⊢
  dsimp only at read ⊢
  rw [seam.regexp]
  by_cases quote : (decide (c = '"') || decide (c = '\'')) = true
  · have other : c ≠ '\n' := by
      rintro rfl
      exact absurd quote (by decide)
    rw [if_pos quote] at read ⊢
    refine seam.accept (fun found => ?_) read
    have carries := (continued_stringRest other).behind
      (fun text => (stringRest c text.tail).behind 1) (fun _ => rfl) other joined found
    exact ⟨carries.onward, rest ▸ carries.within, rest ▸ carries.last⟩
  rw [if_neg quote] at read ⊢
  by_cases point : c = '.'
  · subst point
    -- a digit behind the point is one of the text
    have same : ((following ++ more).head?.map isDigit).getD false =
        (following.head?.map isDigit).getD false := by
      cases following with
      | cons d following => rfl
      | nil =>
        obtain rfl | begins | ends := joined
        · rfl
        · rw [List.nil_append, begins]
          decide
        · cases ends
    rw [if_pos rfl] at read ⊢
    rw [same]
    split_ifs at read ⊢
    · exact (first (by decide)).readNumber read
    · exact (first (by decide)).ends read
  rw [if_neg point] at read ⊢
  by_cases slash : c = '/'
  · rw [if_pos slash] at read ⊢
    split_ifs at read ⊢
    · exact (first (by subst slash; decide)).readRegexp read
    · exact seam.readOperator (by subst slash; decide) rest read
  rw [if_neg slash] at read ⊢
  split_ifs at read ⊢ with escape digit operator punctuation name
  · exact seam.readWord read
  · exact seam.readNumber read
  · refine seam.readOperator ?_ rest read
    rintro rfl
    exact absurd operator (by decide)
  · refine (first ?_).ends read
    rintro rfl
    exact absurd punctuation (by decide)
  · exact seam.readWord read
  · cases read

/-- The next token, if the text goes on, or nothing was put behind it. -/
theorem next (seam : Seam more l m) (read : l.next = (.ok token, l'))
    (going : token.isEof = false ∨ more = []) : Carried more token l' m.next := by
  unfold Lexer.next at read ⊢
  split at read
  · next begun moved =>
    cases rest : begun.rest with
    | nil =>
      unfold Lexer.readToken at read
      rw [rest] at read
      have alone : more = [] := by
        obtain going | alone := going
        · cases read
          cases going
        · exact alone
      obtain ⟨begun', moved', seam'⟩ := seam.skipTrivia moved (.inr alone)
      rw [moved']
      show Carried more token l' begun'.readToken
      unfold Lexer.readToken
      rw [show begun'.rest = [] by rw [seam'.rest, rest, alone]; rfl]
      exact seam'.ends read
    | cons c following =>
      obtain ⟨begun', moved', seam'⟩ := seam.skipTrivia moved (.inl (by simp [rest]))
      have counts : begun.countsBraces = false := by simp [countsBraces, seam'.script]
      have counts' : begun'.countsBraces = false := by simp [countsBraces, seam'.script']
      rw [moved']
      show Carried more token l' begun'.readToken
      unfold Lexer.readToken at read ⊢
      rw [rest] at read
      rw [seam'.rest, rest]
      simp only [seam'.script, seam'.script', counts, counts', Bool.and_false, Bool.false_eq_true,
        if_false, reduceCtorEq, List.cons_append] at read ⊢
      exact seam'.readCode rest read
  · cases read

/-- A slash that is read again. -/
theorem rereadRegexp (seam : Seam more l m) {lead : String}
    (read : l.rereadRegexp lead = (.ok token, l')) :
    Carried more token l' (m.rereadRegexp lead) :=
  seam.readRegexp read

/-! ### The end of the text -/

/-- Where the first text ends the second lexer comes to what was put behind: blanks and comments before
the end make no difference. By induction on the bound. -/
theorem skipTriviaWithin_end (seam : Seam more l m) {n : Nat} (room : m.rest.length < n)
    (moved : l.skipTriviaWithin n = (.ok (), l')) (ended : l'.rest = []) :
    ∃ behind : Lexer, behind.rest = more ∧ behind.mode = .script ∧
      behind.regexpAllowed = m.regexpAllowed ∧ m.skipTriviaWithin n = behind.skipTrivia := by
  induction n generalizing l m with
  | zero => exact absurd room (Nat.not_lt_zero _)
  | succ n ih =>
    by_cases filled : l.skipBlanks.rest = []
    · -- only blanks are left, and the second lexer goes on across them
      have all : l.rest.takeWhile isBlank = l.rest :=
        (List.takeWhile_prefix isBlank).eq_of_length_le (List.drop_eq_nil_iff.1 filled)
      have run : m.rest.takeWhile isBlank = l.rest ++ more.takeWhile isBlank := by
        rw [seam.rest, List.takeWhile_append, all, if_pos rfl]
      have left : (m.skip l.rest.length).rest = more := by
        show m.rest.drop _ = more
        rw [seam.rest, List.drop_left]
      have blanks : m.skipBlanks = (m.skip l.rest.length).skipBlanks := by
        unfold Lexer.skipBlanks
        rw [run, left, skip_skip, List.length_append]
      have length : m.rest.length = l.rest.length + more.length := by
        rw [seam.rest, List.length_append]
      have same : m.skipTriviaWithin (n + 1) = (m.skip l.rest.length).skipTriviaWithin (n + 1) := by
        unfold Lexer.skipTriviaWithin
        rw [if_neg (by simp [seam.script']), if_neg (by simp [Lexer.skip, Lexer.cross, seam.script']),
          blanks]
      refine ⟨m.skip l.rest.length, left, seam.script', rfl, ?_⟩
      rw [same]
      exact skipTriviaWithin_stable (by rw [left]; omega) (Nat.lt_succ_self _)
    · have blanks := seam.skipBlanks (.inl filled)
      unfold Lexer.skipTriviaWithin at moved ⊢
      rw [if_neg (by simp [seam.script])] at moved
      rw [if_neg (by simp [seam.script'])]
      dsimp only at moved ⊢
      split at moved
      · next behind read =>
        obtain ⟨other, read', seam', regexp'⟩ := blanks.mark.comment?_some read
        have shorter := comment?_lt read'
        have dropped : m.skipBlanks.mark.rest.length ≤ m.rest.length := by
          show (m.rest.drop _).length ≤ _
          rw [List.length_drop]
          exact Nat.sub_le _ _
        obtain ⟨last, rest, script, regexp, same⟩ := ih seam' (by omega) moved
        rw [read']
        refine ⟨last, rest, script, ?_, same⟩
        rw [regexp, seam'.regexp, regexp']
        exact seam.regexp.symm
      · cases moved
      · cases moved
        exact absurd ended filled

/-- Where the first lexer gives the end of its text, the second reads what was put behind. -/
theorem next_end (seam : Seam more l m) (read : l.next = (.ok token, l'))
    (ended : token.isEof = true) :
    ∃ behind : Lexer, behind.rest = more ∧ behind.mode = .script ∧
      behind.regexpAllowed = m.regexpAllowed ∧ m.next = behind.next := by
  unfold Lexer.next at read
  split at read
  · next begun moved =>
    obtain ⟨piece, ends⟩ := ends_readToken read
    have none_ : begun.rest = [] := by
      rw [ends.rest, ends.empty.2 ended, ends.ended ended]
      rfl
    have length : m.rest.length = l.rest.length + more.length := by
      rw [seam.rest, List.length_append]
    have moved' : l.skipTriviaWithin (m.rest.length + 1) = (.ok (), begun) := by
      rw [← moved]
      exact skipTriviaWithin_stable (by omega) (Nat.lt_succ_self _)
    obtain ⟨behind, rest, script, regexp, same⟩ :=
      seam.skipTriviaWithin_end (Nat.lt_succ_self _) moved' none_
    refine ⟨behind, rest, script, regexp, ?_⟩
    unfold Lexer.next
    rw [show m.skipTrivia = behind.skipTrivia from same]
  · cases read

end Seam

/-- A lexer for scripts stands before a text, behind a token. -/
structure Ready (l : Lexer) (regexp : Bool) (text : List Char) : Prop where
  rest : l.rest = text
  script : l.mode = .script
  fresh : l.sawBreak = false
  regexp : l.regexpAllowed = regexp

/-- Lexers that stand before a text, and before the text with more behind it. -/
theorem Ready.seam {regexp : Bool} {text : List Char} (ready : l.Ready regexp text)
    (ready' : m.Ready regexp (text ++ more)) (joined : Joined text more) : Seam more l m where
  rest := by rw [ready.rest, ready'.rest]
  joined := by rwa [ready.rest]
  broke := by rw [ready.fresh, ready'.fresh]
  script := ready.script
  script' := ready'.script
  regexp := by rw [ready.regexp, ready'.regexp]

/-- A space is crossed before the next token is read. -/
theorem Ready.blank {regexp : Bool} {text : List Char} (ready : m.Ready regexp (' ' :: text)) :
    ∃ l : Lexer, l.Ready regexp text ∧ m.next = l.next := by
  refine ⟨m.skip 1, ⟨?_, ready.script, ?_, ready.regexp⟩, ?_⟩
  · simp [skip, cross, ready.rest]
  · simp [skip, cross, ready.rest, ready.fresh]
  · have code : m.mode ≠ .text := by simp [ready.script]
    have code' : (m.skip 1).mode ≠ .text := code
    have same : (m.skip 1).skipBlanks = m.skipBlanks := by
      have blank : isBlank ' ' = true := by decide
      unfold skipBlanks skip cross
      simp [ready.rest, blank, Position.after]
    have shorter : (m.skip 1).rest.length < m.rest.length + 1 := by
      show (m.rest.drop 1).length < m.rest.length + 1
      rw [List.length_drop]
      omega
    have trivia : m.skipTrivia = (m.skip 1).skipTrivia := by
      unfold skipTrivia
      rw [skipTriviaWithin_stable (Nat.lt_succ_self _) shorter]
      unfold skipTriviaWithin
      rw [if_neg code, if_neg code', same]
    unfold Lexer.next
    rw [trivia]

/-- Before nothing the end of the text is read. -/
theorem Ready.ended {regexp : Bool} (ready : m.Ready regexp []) :
    ∃ token behind, m.next = (.ok token, behind) ∧ token.isEof = true := by
  obtain ⟨behind, read⟩ := Lexing.next_ended (by simp [ready.script] : m.mode ≠ .text) ready.rest
  exact ⟨_, behind, read, rfl⟩

/-- A word behind blanks is the next token. -/
theorem next_word {kind : TokenKind} {blanks word after : List Char} (script : l.mode = .script)
    (rest : l.rest = blanks ++ (word ++ after)) (blank : blanks.all isBlank = true)
    (spelt : Lexing.Word l.regexpAllowed kind word) (stops : Lexing.StopsBefore kind after) :
    ∃ token behind, l.next = (.ok token, behind) ∧ token.kind = kind ∧
      behind.Ready kind.precedesExpression after := by
  obtain ⟨c, tail, rfl, unblank, -⟩ := spelt.begins
  have skipped : l.next = (Lexing.settled l blanks).readToken := by
    refine Lexing.next_of_blanks (by simp [script]) rest blank ?_ (spelt.beginsNoComment stops)
    intro d first
    obtain rfl := Option.some.inj first
    exact unblank
  have text : (Lexing.settled l blanks).rest = (c :: tail) ++ after := by
    simp [Lexing.settled, Lexer.mark, Lexer.skip, Lexer.cross, rest]
  have counts : (Lexing.settled l blanks).countsBraces = false := by
    simp [countsBraces, Lexing.settled, Lexer.mark, Lexer.skip, Lexer.cross, script]
  have mode : (Lexing.settled l blanks).mode = .script := script
  obtain ⟨d, more, same, read⟩ :=
    Lexing.readCode_spelt
      (show Lexing.Word (Lexing.settled l blanks).regexpAllowed kind _ from spelt) stops text
  obtain ⟨rfl, rfl⟩ := List.cons.inj same
  have dispatched : (Lexing.settled l blanks).readToken =
      ((Lexing.settled l blanks).cross (c :: tail).length).token kind := by
    rw [← read]
    unfold Lexer.readToken
    rw [text]
    simp [mode, counts]
  rw [skipped, dispatched]
  refine ⟨_, _, rfl, rfl, ?_, mode, rfl, rfl⟩
  show (Lexing.settled l blanks).rest.drop _ = after
  rw [text, List.drop_left]

end Lexer

end Stencil
