import Stencil.Error.ParseError
import Stencil.Text.Colour
import Stencil.Text.Lines
/-!
# Reports of errors

An error is reported with the line it is in, underlined, and with the line of its second place
if it has one. A report is a list of pieces, each with or without a style; the plain report
leaves the styles out, and the coloured one writes them as terminal colours. Template code inside
of messages is looked for in the coloured report only.
-/

set_option autoImplicit false

namespace Stencil.Error

open Stencil.Text

namespace Report

/-- The styles of a report. -/
inductive Style where
  /-- What is wrong. -/
  | alarm
  /-- What frames the text. -/
  | faint
  /-- Advice. -/
  | advice
  /-- Template code inside a message. -/
  | code
deriving DecidableEq

/-- The parameters of the terminal colour of a style. -/
def Style.parameters : Style → String
  | alarm => "1;31"
  | faint => "2"
  | advice => "1;38;5;73"
  | code => "38;5;180"

/-- A piece of a report. -/
structure Piece where
  style : Option Style
  text : List Char
deriving DecidableEq

namespace Piece

/-- A piece without a style. -/
def plain (text : List Char) : Piece := ⟨none, text⟩

/-- A piece in a style. -/
def styled (style : Style) (text : List Char) : Piece := ⟨some style, text⟩

/-- The piece as it is written: in colour, the style is switched on before it and off behind
it. -/
def written (coloured : Bool) (piece : Piece) : List Char :=
  match coloured, piece.style with
  | true, some style =>
    (Colour.style style.parameters).toList ++ piece.text ++ (Colour.style "0").toList
  | _, _ => piece.text

end Piece

/-- A number in decimal digits. -/
def digits (n : Nat) : List Char := Nat.toDigits 10 n

/-- The number of characters before the first template code in a message, and the mark that ends
that code. -/
def findCode : List Char → Option (Nat × List Char)
  | [] => none
  | '\x7b' :: '\x7b' :: _ => some (0, ['\x7d', '\x7d'])
  | '$' :: '\x7b' :: _ => some (0, ['\x7d'])
  | _ :: rest => (findCode rest).map fun (n, close) => (n + 1, close)

/-- The number of characters up to the end of the first occurrence of a mark. -/
def endOf (mark : List Char) : List Char → Option Nat
  | [] => none
  | c :: rest =>
    if mark.isPrefixOf (c :: rest) then some mark.length else (endOf mark rest).map (· + 1)

/-- The number of characters before the first template code in a message, and of that code
itself, if it is closed. -/
def codeIn (text : List Char) : Option (Nat × Nat) := do
  let (before, close) ← findCode text
  let length ← endOf close (text.drop before)
  return (before, length)

/-- The mark that ends template code is not empty. -/
theorem findCode_mark {text : List Char} {before : Nat} {close : List Char}
    (found : findCode text = some (before, close)) : close ≠ [] := by
  induction text generalizing before with
  | nil => cases found
  | cons c rest ih =>
    unfold findCode at found
    split at found
    · cases found
    · cases found
      simp
    · cases found
      simp
    · next other _ _ same =>
      cases same
      obtain ⟨⟨n, close'⟩, inside, same⟩ := Option.map_eq_some_iff.1 found
      cases same
      exact ih inside

/-- Up to the end of a mark there are characters. -/
theorem endOf_pos {mark text : List Char} {length : Nat} (some_ : mark ≠ [])
    (found : endOf mark text = some length) : 0 < length := by
  cases text with
  | nil => cases found
  | cons c rest =>
    unfold endOf at found
    split at found
    · cases found
      exact List.length_pos_iff.2 some_
    · obtain ⟨n, -, rfl⟩ := Option.map_eq_some_iff.1 found
      exact Nat.succ_pos n

/-- Closed template code takes characters of the message it is in. -/
theorem codeIn_pos {text : List Char} {before length : Nat}
    (found : codeIn text = some (before, length)) : 0 < length ∧ 0 < text.length := by
  obtain ⟨⟨n, close⟩, begins, found⟩ := Option.bind_eq_some_iff.1 found
  obtain ⟨m, ends, same⟩ := Option.bind_eq_some_iff.1 found
  cases same
  refine ⟨endOf_pos (findCode_mark begins) ends, List.length_pos_iff.2 ?_⟩
  rintro rfl
  cases begins

/-- Cuts a message into its text and the template code in it. Code that is not closed ends the
search. -/
def highlight (text : List Char) : List Piece :=
  match _ : codeIn text with
  | none => [.plain text]
  | some (before, length) =>
    .plain (text.take before) :: .styled .code ((text.drop before).take length)
      :: highlight (text.drop (before + length))
termination_by text.length
decreasing_by
  have := codeIn_pos ‹_›
  rw [List.length_drop]
  omega

/-- A message. In colour, the template code in it is set off. -/
def message (coloured : Bool) (text : List Char) : List Piece :=
  if coloured then highlight text else [.plain text]

/-- The margin of a line: a number, or blanks, and a bar. -/
def margin (width : Nat) (label : List Char) : Piece :=
  .styled .faint (List.replicate (width - label.length) ' ' ++ label ++ " |".toList)

/-- The width of the number of a line: at least two. -/
def marginWidth (number : Nat) : Nat := max (digits number).length 2

/-- The number of blanks before the underline of a span, and its length: the part of the span
that is on the line, and at least one. -/
def underline (span : Span) (line : List Char) : Nat × Nat :=
  let start := span.start.column
  let length :=
    if span.stop.line = span.start.line then span.stop.column - start else line.length - start
  (start, max length 1)

/-- The line at which a span starts, if the source has it, under its number, with the span
underlined. -/
def quoteLine (source : List Char) (span : Span) (style : Style) (label : List Char)
    (spaced : Bool) : List Piece :=
  match (lines source)[span.start.line]? with
  | none => []
  | some line =>
    let number := span.start.line + 1
    let width := marginWidth number
    let (blanks, carets) := underline span line
    (if spaced then [margin width [], .plain ['\n']] else []) ++
    [margin width (digits number), .plain (' ' :: (line ++ ['\n'])),
      margin width [], .plain (' ' :: List.replicate blanks ' '),
      .styled style (List.replicate carets '^' ++ label), .plain ['\n']]

/-- The second place of an error. -/
def related (e : ParseError) (source : List Char) : List Piece :=
  match e.related with
  | none => []
  | some span =>
    quoteLine source span .faint (' ' :: (e.label.getD "opened here").toList) false

/-- A further line of advice, which is indented. -/
def furtherAdvice (coloured : Bool) (line : List Char) : List Piece :=
  .plain (List.replicate 7 ' ') :: (message coloured line ++ [.plain ['\n']])

/-- The advice of an error. -/
def advice (coloured : Bool) (e : ParseError) : List Piece :=
  match e.help with
  | none => []
  | some help =>
    .plain ['\n'] ::
      match lines help.toList with
      | [] => []
      | first :: rest =>
        [.plain [' '], .styled .advice "help:".toList, .plain [' ']]
          ++ message coloured first ++ [.plain ['\n']]
          ++ rest.flatMap (furtherAdvice coloured)

/-- The place of an error and its message. -/
def heading (coloured : Bool) (e : ParseError) (file : String) : List Piece :=
  [.plain "\n ".toList, .styled .faint "file:".toList,
    .plain (' ' :: (file.toList ++ ':' :: digits e.line ++ ':' :: digits e.column) ++ ['\n']),
    .styled .alarm "error:".toList, .plain [' ']]
    ++ message coloured e.message.toList ++ [.plain ['\n']]

/-- Whether the second place of an error is on an earlier line. -/
def relatedFirst (e : ParseError) : Bool :=
  match e.related with
  | none => false
  | some span => span.start.line < e.span.start.line

/-- The pieces of the report of an error in a source. The second place comes first if it is on
an earlier line, so that the report reads from top to bottom. -/
def pieces (coloured : Bool) (e : ParseError) (source : List Char) (file : String) : List Piece :=
  heading coloured e file
    ++ (if relatedFirst e then related e source else [])
    ++ quoteLine source e.span .alarm [] true
    ++ (if relatedFirst e then [] else related e source)
    ++ advice coloured e ++ [.plain ['\n']]

/-- The report of an error in a source. -/
def write (coloured : Bool) (e : ParseError) (source file : String) : String :=
  String.ofList ((pieces coloured e source.toList file).flatMap (·.written coloured))

end Report

namespace ParseError

/-- The report of the error without colours. -/
def report (e : ParseError) (source : String) (file : String) : String :=
  Report.write false e source file

/-- The report of the error in terminal colours. -/
def colouredReport (e : ParseError) (source : String) (file : String) : String :=
  Report.write true e source file

end ParseError

end Stencil.Error
