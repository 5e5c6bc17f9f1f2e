import Stencil.Error.ParseError
import Stencil.Text.CharClass
import Stencil.Token.Command
import Stencil.Token.Basic
/-!
# Reading the pieces of a token

A `Scan` is what a reader finds at the start of a text: a result or a fault, and the number of
characters it went over. Readers know nothing of positions: whoever uses a scan moves across its
characters, so that positions are right whatever the reader does. After a fault the text goes on
behind the characters that were read.
-/

set_option autoImplicit false

namespace Stencil

open Stencil.Error (Fault)
open Stencil.Text

/-- The outcome of reading at the start of a text, and how many characters were read. -/
structure Scan (α : Type) where
  outcome : Except Fault α
  width : Nat

namespace Scan

variable {α β : Type}

/-- A reader that found a result. -/
def found (result : α) (width : Nat) : Scan α := ⟨.ok result, width⟩

/-- A reader that met a fault. -/
def failed (fault : Fault) (width : Nat) : Scan α := ⟨.error fault, width⟩

/-- Changes the result. -/
def map (f : α → β) (scan : Scan α) : Scan β := ⟨scan.outcome.map f, scan.width⟩

/-- Counts characters that stand before what was scanned. -/
def behind (width : Nat) (scan : Scan α) : Scan α := ⟨scan.outcome, width + scan.width⟩

/-- Reads on behind a result. -/
def andThen (scan : Scan α) (text : List Char) (next : α → List Char → Scan β) : Scan β :=
  match scan.outcome with
  | .ok result => (next result (text.drop scan.width)).behind scan.width
  | .error fault => failed fault scan.width

end Scan

/-! ## Escapes -/

/-- The character that stands for a code point; one that is no character gives the replacement
character. -/
def charOfCode (code : Nat) : Char :=
  if h : code.isValidChar then Char.ofNatAux code h else '\ufffd'

/-- Reads a given number of hexadecimal digits behind those already read. -/
def hexRun : Nat → Nat → List Char → Scan Nat
  | 0, code, _ => .found code 0
  | _ + 1, _, [] => .failed .openString 0
  | count + 1, code, c :: rest =>
    match hexValue? c with
    | some digit => (hexRun count (code * 16 + digit) rest).behind 1
    | none => .failed .badHexDigit 1

/-- The number of characters before the first occurrence of a pattern. -/
def findPattern (pattern : List Char) : List Char → Option Nat
  | [] => if pattern.isEmpty then some 0 else none
  | c :: rest =>
    if pattern.isPrefixOf (c :: rest) then some 0 else (findPattern pattern rest).map (· + 1)

/-- The code point between the braces of an escape: hexadecimal digits, with or without a plus
sign before them, of a value that fits into 32 bits. -/
def bracedCode? (digits : List Char) : Option Nat :=
  let body :=
    match digits with
    | '+' :: rest => rest
    | _ => digits
  if body.isEmpty || !body.all (fun c => (hexValue? c).isSome) then none
  else
    let code := (body.filterMap hexValue?).foldl (fun total digit => total * 16 + digit) 0
    if code < Nat.pow 2 32 then some code else none

/-- The low half of a surrogate pair, if the text starts with its escape. -/
def lowSurrogate? : List Char → Option Nat
  | '\\' :: 'u' :: rest =>
    match (hexRun 4 0 rest).outcome with
    | .ok code => if 0xDC00 ≤ code ∧ code < 0xE000 then some code else none
    | .error _ => none
  | _ => none

/-- Reads what follows the `\u` of an escape: four hexadecimal digits, two such escapes that
form a surrogate pair, or a code point in braces. -/
def unicodeEscape (text : List Char) : Scan Char :=
  match text with
  | '\x7b' :: rest =>
    match findPattern ['\x7d'] rest with
    | none => .failed .badCodePoint 1
    | some length =>
      match bracedCode? (rest.take length) with
      | some code => .found (charOfCode code) (length + 2)
      | none => .failed .badCodePoint 1
  | _ =>
    (hexRun 4 0 text).andThen text fun unit rest =>
      if 0xD800 ≤ unit ∧ unit < 0xDC00 then
        match lowSurrogate? rest with
        | some low => .found (charOfCode (0x10000 + (unit - 0xD800) * 1024 + (low - 0xDC00))) 6
        | none => .found (charOfCode unit) 0
      else .found (charOfCode unit) 0

/-- The octal digits of an escape: up to three when the first is at most three, else up to
two. -/
def octalRun : List Char → List Char
  | [] => []
  | first :: rest =>
    if (octalValue? first).isSome then
      let more := if first ≤ '3' then 2 else 1
      first :: (rest.take more).takeWhile fun c => (octalValue? c).isSome
    else []

/-- Reads what follows a backslash in a string literal. A line break there stands for nothing,
and a character without a meaning of its own stands for itself. -/
def stringEscape (text : List Char) : Scan (List Char) :=
  let octal := octalRun text
  if octal.isEmpty then
    match text with
    | [] => .failed .openString 0
    | c :: rest =>
      if c = 'n' then .found ['\n'] 1
      else if c = 'r' then .found ['\r'] 1
      else if c = 't' then .found ['\t'] 1
      else if c = 'b' then .found ['\u0008'] 1
      else if c = 'v' then .found ['\u000b'] 1
      else if c = 'f' then .found ['\u000c'] 1
      else if c = 'x' then ((hexRun 2 0 rest).map fun code => [charOfCode code]).behind 1
      else if c = 'u' then ((unicodeEscape rest).map fun char => [char]).behind 1
      else if c = '\n' then .found [] 1
      else .found [c] 1
  else
    let code := (octal.filterMap octalValue?).foldl (fun total digit => total * 8 + digit) 0
    .found [charOfCode code] octal.length

/-! ## Strings, names and regular expressions -/

/-- Reads the rest of a string literal, its closing quote included. The first argument bounds
the number of characters. -/
def stringBody (quote : Char) : Nat → List Char → Scan (List Char)
  | 0, _ => .failed .openString 0
  | _ + 1, [] => .failed .openString 0
  | n + 1, c :: rest =>
    if c = quote then .found [] 1
    else if c = '\\' then
      ((stringEscape rest).andThen rest fun value after =>
        (stringBody quote n after).map (value ++ ·)).behind 1
    else ((stringBody quote n rest).map (c :: ·)).behind 1

/-- Reads a string literal from behind its opening quote. -/
def stringRest (quote : Char) (text : List Char) : Scan (List Char) :=
  stringBody quote (text.length + 1) text

/-- Reads the escape of a name, from behind its backslash. -/
def nameEscape (text : List Char) : Scan Char :=
  match text with
  | [] => .failed .badNameEscape 0
  | 'u' :: rest =>
    ((unicodeEscape rest).andThen rest fun char _ =>
      if isNamePart char then .found char 0
      else .failed (.badNameCharacter char.toNat) 0).behind 1
  | _ :: _ => .failed .badNameEscape 1

/-- Reads the characters of a name; the flag tells whether one of them was escaped. The first
argument bounds the number of characters. -/
def nameBody : Nat → List Char → Scan (List Char × Bool)
  | 0, _ => .found ([], false) 0
  | _ + 1, [] => .found ([], false) 0
  | n + 1, c :: rest =>
    if c = '\\' then
      ((nameEscape rest).andThen rest fun char after =>
        (nameBody n after).map fun (chars, _) => (char :: chars, true)).behind 1
    else if isNamePart c then
      ((nameBody n rest).map fun (chars, escaped) => (c :: chars, escaped)).behind 1
    else .found ([], false) 0

/-- A reserved word that was written with an escape is a name; it keeps an escape for its first
character, so that its text is not taken for the reserved word. -/
def respell (chars : List Char) : List Char :=
  match chars with
  | [] => []
  | first :: rest =>
    '\\' :: 'u' :: (Quoted.hexDigits4 first.toNat).map Char.toUpper ++ rest

/-- Reads a name, as it is to be spelt. -/
def nameText (text : List Char) : Scan (List Char) :=
  (nameBody (text.length + 1) text).map fun (chars, escaped) =>
    if escaped && isReserved (String.ofList chars) then respell chars else chars

/-- The token for a word: an operator, a keyword, a constant or a name. -/
def wordKind (word : String) : TokenKind :=
  if wordOperators.contains word then .operator word
  else
    match Keyword.ofSpelling? word with
    | some keyword => .keyword keyword
    | none =>
      match Syntax.Atom.ofSpelling? word with
      | some atom => .atom atom
      | none => .name word

/-- Reads the pattern of a regular expression with its closing slash. A slash inside brackets
or behind a backslash closes nothing. -/
def regexpBody : (inClass afterBackslash : Bool) → List Char → Scan (List Char)
  | _, _, [] => .failed .openRegexp 0
  | inClass, true, c :: rest =>
    ((regexpBody inClass false rest).map fun body => '\\' :: c :: body).behind 1
  | inClass, false, c :: rest =>
    if c = '[' then ((regexpBody true false rest).map (c :: ·)).behind 1
    else if c = ']' && inClass then ((regexpBody false false rest).map (c :: ·)).behind 1
    else if c = '/' && !inClass then .found [] 1
    else if c = '\\' then (regexpBody inClass true rest).behind 1
    else ((regexpBody inClass false rest).map (c :: ·)).behind 1

/-- Reads a regular expression from behind its opening slash: pattern and flags. -/
def regexpRest (text : List Char) : Scan (List Char × List Char) :=
  (regexpBody false false text).andThen text fun pattern rest =>
    (nameText rest).map fun flags => (pattern, flags)

/-! ## Numbers and operators -/

/-- What has been met while a number is read. -/
structure NumberState where
  /-- An exponent mark was met. -/
  exponent : Bool
  /-- The exponent mark was met and no digit since, so a sign may follow. -/
  sign : Bool
  /-- A hexadecimal mark was met. -/
  hex : Bool
  /-- A point was met. -/
  point : Bool

/-- The state behind a further character of a number, if the character may belong to it. -/
def NumberState.next? (state : NumberState) (c : Char) : Option NumberState :=
  if c = 'x' || c = 'X' then
    if state.hex then none else some { state with hex := true }
  else if (c = 'e' || c = 'E') && !state.hex then
    if state.exponent then none else some { state with exponent := true, sign := true }
  else if c = '-' || c = '+' then
    if state.sign then some state else none
  else if c = '.' then
    if !state.point && !state.hex && !state.exponent then
      some { state with sign := false, point := true }
    else none
  else if isAlphanumeric c then some { state with sign := false }
  else none

/-- The longest run of characters that may belong to a number. -/
def numberRun : NumberState → List Char → List Char
  | _, [] => []
  | state, c :: rest =>
    match state.next? c with
    | some state => c :: numberRun state rest
    | none => []

/-- The longest operator that grows from the given one by the characters that follow. -/
def operatorRun (operator : List Char) : List Char → List Char
  | [] => operator
  | c :: rest =>
    if isOperator (String.ofList (operator ++ [c])) then operatorRun (operator ++ [c]) rest
    else operator

/-! ## Template text -/

/-- The text before the next marker. -/
def plainText : List Char → List Char
  | [] => []
  | c :: rest => if startsMarker (c :: rest) then [] else c :: plainText rest

end Stencil
