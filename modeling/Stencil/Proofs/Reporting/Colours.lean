import Stencil.Error.Report
/-!
# Colours of reports

A report is written with colours or without. Setting off the template code in a message cuts the
message into pieces that make it up again (`text_highlight`), and the two reports have the same text
between their styles. Where no escape character is in what is reported, the colour sequences are all
that tells the two apart, so removing them from the one gives the other.
-/

set_option autoImplicit false

namespace Stencil

open Stencil.Error (ParseError)

namespace Text.Colour

/-- At a colour sequence it is left out, else one character is kept. -/
theorem strip_cons (c : Char) (rest : List Char) :
    strip (c :: rest) =
      match afterSequence? (c :: rest) with
      | some behind => strip behind
      | none => c :: strip rest := by
  rw [strip]
  cases afterSequence? (c :: rest) <;> rfl

/-- A text without escape characters is kept. -/
theorem strip_append_of_plain {text : List Char} (plain : escapeMark ∉ text) (rest : List Char) :
    strip (text ++ rest) = text ++ strip rest := by
  induction text with
  | nil => rfl
  | cons c text ih =>
    have none : afterSequence? (c :: (text ++ rest)) = none := by
      unfold afterSequence?
      split
      · next same => exact absurd ((List.cons.inj same).1 ▸ List.mem_cons_self) plain
      · rfl
    have kept := ih fun inside => plain (List.mem_cons_of_mem _ inside)
    rw [List.cons_append, strip_cons, none]
    exact congrArg (c :: ·) kept

/-- Parameters of a colour sequence are read to its end. -/
theorem afterParameters_append {parameters : List Char}
    (all : ∀ c ∈ parameters, isParameter c = true) (rest : List Char) :
    afterParameters (parameters ++ 'm' :: rest) = some rest := by
  induction parameters with
  | nil => rfl
  | cons c parameters ih =>
    have here := all c List.mem_cons_self
    have other : c ≠ 'm' := by
      rintro rfl
      exact absurd here (by decide)
    rw [List.cons_append, afterParameters, if_neg other, if_pos here]
    exact ih fun d inside => all d (List.mem_cons_of_mem _ inside)

/-- A colour sequence is removed. -/
theorem strip_style {parameters : String}
    (all : ∀ c ∈ parameters.toList, isParameter c = true) (rest : List Char) :
    strip ((style parameters).toList ++ rest) = strip rest := by
  have shape : (style parameters).toList ++ rest =
      '\x1b' :: '[' :: (parameters.toList ++ 'm' :: rest) := by
    simp [style]
  have found : afterSequence? ('\x1b' :: '[' :: (parameters.toList ++ 'm' :: rest)) = some rest :=
    afterParameters_append all rest
  rw [shape, strip_cons, found]

end Text.Colour

namespace Error.Report

open Stencil.Text
open Stencil.Text.Colour (escapeMark strip)

/-- The text of pieces, without their styles. -/
def plainText (pieces : List Piece) : List Char := pieces.flatMap (·.text)

@[simp] theorem plainText_nil : plainText [] = [] := rfl

@[simp] theorem plainText_cons (piece : Piece) (pieces : List Piece) :
    plainText (piece :: pieces) = piece.text ++ plainText pieces := rfl

@[simp] theorem plainText_append (first second : List Piece) :
    plainText (first ++ second) = plainText first ++ plainText second := List.flatMap_append

@[simp] theorem plainText_flatMap {α : Type} (items : List α) (pieces : α → List Piece) :
    plainText (items.flatMap pieces) = items.flatMap fun item => plainText (pieces item) :=
  List.flatMap_assoc

@[simp] theorem text_plain (text : List Char) : (Piece.plain text).text = text := rfl

@[simp] theorem text_styled (style : Style) (text : List Char) :
    (Piece.styled style text).text = text := rfl

/-- Without colours, what is written is the text of the pieces. -/
theorem flatMap_written_false (pieces : List Piece) :
    pieces.flatMap (·.written false) = plainText pieces := rfl

/-- What is written in colours, without the colours. -/
theorem strip_written (pieces : List Piece) (plain : escapeMark ∉ plainText pieces) :
    strip (pieces.flatMap (·.written true)) = plainText pieces := by
  have parameters (style : Style) : ∀ c ∈ style.parameters.toList, Colour.isParameter c = true := by
    cases style <;> decide
  induction pieces with
  | nil => simp [strip]
  | cons piece pieces ih =>
    obtain ⟨style, text⟩ := piece
    rw [plainText_cons, List.mem_append, not_or] at plain
    rw [List.flatMap_cons, plainText_cons, ← ih plain.2]
    cases style with
    | none => exact Colour.strip_append_of_plain plain.1 _
    | some style =>
      show strip ((Colour.style style.parameters).toList ++ text ++ (Colour.style "0").toList ++ _) = _
      rw [List.append_assoc, List.append_assoc, Colour.strip_style (parameters style),
        Colour.strip_append_of_plain plain.1, Colour.strip_style (by decide)]

/-- Setting off the template code in a message keeps all of its characters, in their order: by
induction on the message that is left behind each piece of code. -/
theorem text_highlight (text : List Char) : plainText (highlight text) = text := by
  fun_induction highlight text with
  | case1 text => simp
  | case2 text before length found ih =>
    simp only [plainText_cons, text_plain, text_styled, ih]
    rw [← List.drop_drop, List.take_append_drop, List.take_append_drop]

/-- A message reads the same in colours. -/
@[simp] theorem text_message (coloured : Bool) (text : List Char) :
    plainText (message coloured text) = text := by
  cases coloured with
  | false => simp [message]
  | true => exact text_highlight text

/-- The advice of an error reads the same in colours. -/
theorem text_advice (coloured : Bool) (e : ParseError) :
    plainText (advice coloured e) = plainText (advice false e) := by
  unfold advice
  split
  · rfl
  · split
    · rfl
    · simp [furtherAdvice]

/-- A report reads the same in colours. -/
theorem text_pieces (e : ParseError) (source : List Char) (file : String) :
    plainText (pieces true e source file) = plainText (pieces false e source file) := by
  simp [pieces, heading, text_advice true e]

end Error.Report

namespace Text

/-- The pieces between line feeds are made of the characters of the text. -/
theorem mem_of_mem_splitAtBreaks {text line : List Char} {c : Char}
    (listed : line ∈ splitAtBreaks text) (inside : c ∈ line) : c ∈ text := by
  induction text generalizing line with
  | nil => simp_all [splitAtBreaks]
  | cons d text ih =>
    rw [splitAtBreaks] at listed
    split at listed
    · rcases List.mem_cons.1 listed with rfl | later
      · cases inside
      · exact List.mem_cons_of_mem _ (ih later inside)
    · split at listed
      · next none => simp_all
      · next first others parts =>
        rw [parts] at ih
        rcases List.mem_cons.1 listed with rfl | later
        · rcases List.mem_cons.1 inside with rfl | inside
          · exact List.mem_cons_self
          · exact List.mem_cons_of_mem _ (ih List.mem_cons_self inside)
        · exact List.mem_cons_of_mem _ (ih (List.mem_cons_of_mem _ later) inside)

/-- The lines of a text are made of its characters. -/
theorem mem_of_mem_lines {text line : List Char} {c : Char} (listed : line ∈ lines text)
    (inside : c ∈ line) : c ∈ text := by
  have piece : ∀ pieces, line ∈ lines.go pieces → ∃ piece ∈ pieces, c ∈ piece := by
    intro pieces listed
    fun_induction lines.go pieces with
    | case1 => cases listed
    | case2 => cases listed
    | case3 last => exact ⟨last, by simp, by simp_all⟩
    | case4 first rest _ ih =>
      rcases List.mem_cons.1 listed with rfl | later
      · refine ⟨first, List.mem_cons_self, ?_⟩
        unfold dropReturn at inside
        split at inside
        · exact List.dropLast_subset _ inside
        · exact inside
      · obtain ⟨piece, among, inside⟩ := ih later
        exact ⟨piece, List.mem_cons_of_mem _ among, inside⟩
  obtain ⟨piece, among, inside⟩ := piece _ listed
  exact mem_of_mem_splitAtBreaks among inside

end Text

namespace Error.Report

open Stencil.Text
open Stencil.Text.Colour (escapeMark strip)

variable {e : ParseError} {source : List Char}

/-- A number is not spelt with escape characters. -/
theorem plain_digits (n : Nat) : escapeMark ∉ digits n := fun inside =>
  absurd (Nat.isDigit_of_mem_toDigits (by decide) (by decide) inside) (by decide)

/-- A quoted line has no escape character if the source and the label have none. -/
theorem plain_quoteLine {label : List Char} (plainSource : escapeMark ∉ source)
    (plainLabel : escapeMark ∉ label) (span : Span) (style : Style) (spaced : Bool) :
    escapeMark ∉ plainText (quoteLine source span style label spaced) := by
  unfold quoteLine
  split
  · simp
  · next line found =>
    have plainLine : escapeMark ∉ line := fun inside =>
      plainSource (mem_of_mem_lines (List.mem_of_getElem? found) inside)
    have spacing : escapeMark ∉ plainText
        (if spaced then [margin (marginWidth (span.start.line + 1)) [], .plain ['\n']] else []) := by
      cases spaced <;> simp [margin, escapeMark]
    dsimp only
    rw [plainText_append, List.mem_append, not_or]
    refine ⟨spacing, ?_⟩
    have parts := And.intro (plain_digits (span.start.line + 1)) (And.intro plainLine plainLabel)
    simpa [margin, escapeMark] using parts

/-- Advice has no escape character that its text has not. -/
theorem plain_advice (plainHelp : ∀ help ∈ e.help, escapeMark ∉ help.toList) :
    escapeMark ∉ plainText (advice false e) := by
  unfold advice
  split
  · simp
  · next help given =>
    have plainLines : ∀ line ∈ lines help.toList, escapeMark ∉ line := fun line listed inside =>
      plainHelp help given (mem_of_mem_lines listed inside)
    split
    · simp [escapeMark]
    · next first rest parts =>
      rw [parts] at plainLines
      obtain ⟨here, later⟩ := List.forall_mem_cons.1 plainLines
      simpa [furtherAdvice, escapeMark] using And.intro here later

/-- The second place of an error has no escape character that the source and its label have not. -/
theorem plain_related (plainSource : escapeMark ∉ source)
    (plainLabel : ∀ label ∈ e.label, escapeMark ∉ label.toList) :
    escapeMark ∉ plainText (related e source) := by
  unfold related
  split
  · simp
  · refine plain_quoteLine plainSource ?_ _ _ _
    cases given : e.label with
    | none => simp [escapeMark]
    | some label => simpa [escapeMark] using plainLabel label given

/-- A report has no escape character that what is reported has not. -/
theorem plain_pieces {file : String} (plainMessage : escapeMark ∉ e.message.toList)
    (plainLabel : ∀ label ∈ e.label, escapeMark ∉ label.toList)
    (plainHelp : ∀ help ∈ e.help, escapeMark ∉ help.toList) (plainSource : escapeMark ∉ source)
    (plainFile : escapeMark ∉ file.toList) :
    escapeMark ∉ plainText (pieces false e source file) := by
  have second (here : Bool) : escapeMark ∉ plainText (if here then related e source else []) := by
    cases here with
    | false => simp
    | true => exact plain_related plainSource plainLabel
  have other (here : Bool) : escapeMark ∉ plainText (if here then [] else related e source) := by
    cases here with
    | false => exact plain_related plainSource plainLabel
    | true => simp
  have first : escapeMark ∉ plainText (heading false e file) := by
    have parts := And.intro plainFile <| And.intro (plain_digits e.line) <|
      And.intro (plain_digits e.column) plainMessage
    simpa [heading, escapeMark] using parts
  have quoted : escapeMark ∉ plainText (quoteLine source e.span .alarm [] true) :=
    plain_quoteLine plainSource List.not_mem_nil _ _ _
  have advised := plain_advice plainHelp
  simp only [pieces, plainText_append, List.mem_append, not_or]
  exact ⟨⟨⟨⟨⟨first, second _⟩, quoted⟩, other _⟩, advised⟩, by simp [escapeMark]⟩

end Error.Report

/-- Colour adds only colour: if neither an error nor the source and the name of its file holds an
escape character, the coloured report of the error without its colour sequences is the plain
report. -/
theorem Error.ParseError.strip_colouredReport (e : ParseError) (source file : String)
    (plain : ∀ text ∈ e.message :: source :: file :: (e.label.toList ++ e.help.toList),
      Text.Colour.escapeMark ∉ text.toList) :
    Text.Colour.strip (e.colouredReport source file).toList = (e.report source file).toList := by
  have plainLabel : ∀ label ∈ e.label, Text.Colour.escapeMark ∉ label.toList := fun label given =>
    plain label (by simp_all)
  have plainHelp : ∀ help ∈ e.help, Text.Colour.escapeMark ∉ help.toList := fun help given =>
    plain help (by simp_all)
  have whole := Report.plain_pieces (plain e.message (by simp)) plainLabel plainHelp
    (plain source (by simp)) (plain file (by simp))
  rw [← Report.text_pieces] at whole
  rw [colouredReport, report, Report.write, Report.write, String.toList_ofList,
    String.toList_ofList, Report.strip_written _ whole, Report.text_pieces,
    Report.flatMap_written_false]

/-- A closing marker that fits no opening one: the message has closed template code in it, and the
advice has some that is not closed. -/
def Error.ParseError.unmatched : ParseError where
  kind := .mismatchedCloseTag
  message := "expected \x7b\x7b/each\x7d\x7d, not $\x7bx\x7d"
  span := ⟨⟨6, 1, 3⟩, ⟨8, 1, 5⟩⟩
  related := some ⟨⟨0, 0, 0⟩, ⟨2, 0, 2⟩⟩
  help := some "close $\x7b\nor \x7b\x7bif"

theorem Error.ParseError.strip_colouredReport_unmatched :
    (∀ text ∈ ["expected \x7b\x7b/each\x7d\x7d, not $\x7bx\x7d",
        "\x7b\x7beach\n\x7b\x7b/if", "page", "close $\x7b\nor \x7b\x7bif"],
      Text.Colour.escapeMark ∉ text.toList) ∧
    Text.Colour.strip (unmatched.colouredReport "\x7b\x7beach\n\x7b\x7b/if" "page").toList =
      (unmatched.report "\x7b\x7beach\n\x7b\x7b/if" "page").toList := by
  have plain : ∀ text ∈ ["expected \x7b\x7b/each\x7d\x7d, not $\x7bx\x7d",
      "\x7b\x7beach\n\x7b\x7b/if", "page", "close $\x7b\nor \x7b\x7bif"],
      Text.Colour.escapeMark ∉ text.toList := by
    decide
  exact ⟨plain, strip_colouredReport unmatched _ _ plain⟩

end Stencil
