import Stencil.Json.Basic
import Stencil.Number.Decimal
import Stencil.Text.CharClass
/-!
# Reading JSON documents

A document is read from left to right, and the first fault is reported with its line and its
column; columns count bytes. The value of a number is its digits, as far as they fit into 64
bits, times or divided by a power of ten, computed on doubles. Arrays and objects are nested at
most 127 deep, so reading is a recursion on the depth that is left.
-/

set_option autoImplicit false

namespace Stencil.Json

open Stencil.Text (hexValue? isDigit)

/-- What can be wrong with a document. -/
inductive Fault where
  | openList | openObject | openString | openValue
  | missingColon | badList | badObject | badWord | badValue | badEscape | badNumber
  | numberTooGreat | controlCharacter | keyNotString | loneSurrogate | halfPair
  | trailingComma | trailingText | tooDeep
deriving DecidableEq

/-- The wording of the fault. -/
def Fault.message : Fault → String
  | openList => "EOF while parsing a list"
  | openObject => "EOF while parsing an object"
  | openString => "EOF while parsing a string"
  | openValue => "EOF while parsing a value"
  | missingColon => "expected `:`"
  | badList => "expected `,` or `]`"
  | badObject => "expected `,` or `\x7d`"
  | badWord => "expected ident"
  | badValue => "expected value"
  | badEscape => "invalid escape"
  | badNumber => "invalid number"
  | numberTooGreat => "number out of range"
  | controlCharacter => "control character (\\u0000-\\u001F) found while parsing a string"
  | keyNotString => "key must be a string"
  | loneSurrogate => "lone leading surrogate in hex escape"
  | halfPair => "unexpected end of hex escape"
  | trailingComma => "trailing comma"
  | trailingText => "trailing characters"
  | tooDeep => "recursion limit exceeded"

/-- A fault at a place of a document. -/
structure ReadError where
  fault : Fault
  line : Nat
  column : Nat
deriving DecidableEq

/-- The fault in one line. -/
def ReadError.message (e : ReadError) : String :=
  e.fault.message ++ " at line " ++ String.ofList (Nat.toDigits 10 e.line) ++ " column "
    ++ String.ofList (Nat.toDigits 10 e.column)

/-- A place in a document. -/
structure Place where
  rest : List Char
  /-- The line, counted from one. -/
  line : Nat
  /-- The bytes since the last line feed. -/
  column : Nat

namespace Place

/-- The place behind a character. -/
def step (p : Place) (c : Char) (rest : List Char) : Place :=
  if c = '\n' then ⟨rest, p.line + 1, 0⟩ else ⟨rest, p.line, p.column + c.utf8Size⟩

/-- The place behind the blanks that follow. -/
def skipBlanks (p : Place) : Place :=
  go p.rest p.line p.column
where
  /-- Goes over blanks. -/
  go : List Char → Nat → Nat → Place
    | [], line, column => ⟨[], line, column⟩
    | c :: rest, line, column =>
      if c = '\n' then go rest (line + 1) 0
      else if c = ' ' || c = '\t' || c = '\r' then go rest line (column + 1)
      else ⟨c :: rest, line, column⟩

/-- The place some bytes further on, which may be within a character. Where there are fewer, it
is an error with the end of the text. -/
def advance (p : Place) (bytes : Nat) : Except Place Place :=
  go bytes p.rest p.line p.column
where
  /-- Goes over bytes. -/
  go : Nat → List Char → Nat → Nat → Except Place Place
    | 0, rest, line, column => .ok ⟨rest, line, column⟩
    | _ + 1, [], line, column => .error ⟨[], line, column⟩
    | n + 1, c :: rest, line, column =>
      let behind := (⟨[], line, column⟩ : Place).step c rest
      if c.utf8Size ≤ n + 1 then go (n + 1 - c.utf8Size) rest behind.line behind.column
      else .ok ⟨c :: rest, line, column + (n + 1)⟩

end Place

/-- A part of the reader. -/
abbrev Reader := StateT Place (Except ReadError)

namespace Reader

variable {α : Type}

/-- Reports a fault behind what was read. -/
def faultBehind (fault : Fault) : Reader α := do
  let p ← get
  throw ⟨fault, p.line, p.column⟩

/-- Reports a fault at the byte that comes next, which is counted. -/
def faultAt (fault : Fault) : Reader α := do
  let p ← get
  match p.rest with
  | [] => throw ⟨fault, p.line, p.column⟩
  | '\n' :: _ => throw ⟨fault, p.line + 1, 0⟩
  | _ :: _ => throw ⟨fault, p.line, p.column + 1⟩

/-- The next character. -/
def peek : Reader (Option Char) := do
  return (← get).rest.head?

/-- The next character behind blanks. -/
def peekBehindBlanks : Reader (Option Char) := do
  modify Place.skipBlanks
  peek

/-- Goes over the next character. -/
def skip : Reader Unit :=
  modify fun p =>
    match p.rest with
    | [] => p
    | c :: rest => p.step c rest

/-- Takes the next character. -/
def take : Reader (Option Char) := do
  let c ← peek
  skip
  return c

/-- Takes the digits that follow. -/
def takeDigits : Reader (List Char) := do
  let p ← get
  let digits := p.rest.takeWhile isDigit
  set (⟨p.rest.drop digits.length, p.line, p.column + digits.length⟩ : Place)
  return digits

/-- Reads the rest of a word. -/
def word : List Char → Reader Unit
  | [] => return ()
  | wanted :: rest => do
    match ← peek with
    | none => faultBehind .openValue
    | some c =>
      if c = wanted then
        skip
        word rest
      else faultAt .badWord

/-! ## Strings -/

/-- The number that hexadecimal digits make, if they all are such digits. -/
def hexNumber? (digits : List Char) : Option Nat :=
  digits.foldlM (fun total c => (hexValue? c).map (total * 16 + ·)) 0

/-- Reads the four digits of an escape. They are taken as four bytes before they are looked at,
so a fault lies behind those bytes, which may be within a character. -/
def hexEscape : Reader Nat := do
  let p ← get
  match p.advance 4, hexNumber? (p.rest.take 4) with
  | .error stop, _ =>
    set stop
    faultBehind .openString
  | .ok stop, some unit =>
    set stop
    return unit
  | .ok stop, none =>
    set stop
    faultBehind .badEscape

/-- Takes a character that has to be there. -/
def takeWanted (wanted : Char) : Reader Unit := do
  match ← peek with
  | none => faultBehind .openString
  | some c => if c = wanted then skip else faultAt .halfPair

/-- Reads the code point of an escape, which may be written as a surrogate pair. -/
def codePoint : Reader Char := do
  let unit ← hexEscape
  if 0xDC00 ≤ unit && unit ≤ 0xDFFF then faultBehind .loneSurrogate
  else if 0xD800 ≤ unit && unit ≤ 0xDBFF then
    takeWanted '\\'
    takeWanted 'u'
    let low ← hexEscape
    if low < 0xDC00 || 0xDFFF < low then faultBehind .loneSurrogate
    return Char.ofNat (0x10000 + (unit - 0xD800) * 1024 + (low - 0xDC00))
  else return Char.ofNat unit

/-- What an escape of one character stands for. -/
def namedEscape? : Char → Option Char
  | '"' => some '"'
  | '\\' => some '\\'
  | '/' => some '/'
  | 'b' => some '\u0008'
  | 'f' => some '\u000c'
  | 'n' => some '\n'
  | 'r' => some '\r'
  | 't' => some '\t'
  | _ => none

/-- Reads what follows a backslash in a string. -/
def escape : Reader Char := do
  match ← peek with
  | none => faultBehind .openString
  | some 'u' =>
    skip
    codePoint
  | some c =>
    match namedEscape? c with
    | some meaning =>
      skip
      return meaning
    | none => faultAt .badEscape

/-- Reads a string from behind its opening quote. The first argument bounds its length. -/
def stringWithin : Nat → List Char → Reader String
  | 0, _ => faultBehind .openString
  | n + 1, read => do
    match ← take with
    | none => faultBehind .openString
    | some '"' => return String.ofList read.reverse
    | some '\\' =>
      let c ← escape
      stringWithin n (c :: read)
    | some c =>
      if c.toNat < 0x20 then faultBehind .controlCharacter else stringWithin n (c :: read)

/-- Reads a string from its opening quote. -/
def stringLiteral : Reader String := do
  skip
  stringWithin ((← get).rest.length + 1) []

/-! ## Numbers -/

/-- The greatest significand: what fits into 64 bits. -/
def greatestSignificand : Nat := Nat.pow 2 64 - 1

/-- The greatest exponent: what fits into 31 bits. -/
def greatestExponent : Nat := Nat.pow 2 31 - 1

/-- Adds digits to a number as long as it stays below a bound: the number, and how many digits
were left out. -/
def addDigits (greatest : Nat) : Nat → List Char → Nat × Nat
  | total, [] => (total, 0)
  | total, c :: rest =>
    let grown := total * 10 + (c.toNat - '0'.toNat)
    if grown ≤ greatest then addDigits greatest grown rest else (total, rest.length + 1)

/-- Divides by `10 ^ 308` until the exponent is one of a power of ten that a double can hold. -/
def scaleDown : Nat → Float → Int → Float
  | 0, value, _ => value
  | n + 1, value, exponent =>
    if value == 0.0 then value
    else if exponent < -308 then
      scaleDown n (value / Float.ofScientific 1 false 308) (exponent + 308)
    else value / Float.ofScientific 1 false (-exponent).toNat

/-- The double for a significand and a power of ten. -/
def scale (significand : Nat) (exponent : Int) : Reader Float := do
  let value := significand.toFloat
  if exponent < 0 then return scaleDown 8 value exponent
  else if significand = 0 then return value
  else if 308 < exponent then faultBehind .numberTooGreat
  else
    let scaled := value * Float.ofScientific 1 false exponent.toNat
    if scaled.isInf then faultBehind .numberTooGreat else return scaled

/-- Reads the exponent of a number from its mark. -/
def exponentPart (significand : Nat) (exponent : Int) : Reader Float := do
  skip
  let negative ←
    match ← peek with
    | some '+' => do skip; pure false
    | some '-' => do skip; pure true
    | _ => pure false
  match ← peek with
  | none => faultBehind .openValue
  | some c =>
    if !isDigit c then faultAt .badNumber
    else
      let before ← get
      let digits ← takeDigits
      let (size, left) := addDigits greatestExponent 0 digits
      if left = 0 then scale significand (if negative then exponent - size else exponent + size)
      else if significand = 0 || negative then return 0.0
      else throw ⟨.numberTooGreat, before.line, before.column + (digits.length - left) + 1⟩

/-- Reads an exponent, if there is one. -/
def exponentOrEnd (significand : Nat) (exponent : Int) : Reader Float := do
  match ← peek with
  | some 'e' | some 'E' => exponentPart significand exponent
  | _ => scale significand exponent

/-- Reads the fraction of a number from its point. -/
def fractionPart (significand : Nat) (exponent : Int) : Reader Float := do
  skip
  let digits ← takeDigits
  if digits.isEmpty then
    match ← peek with
    | none => faultAt .openValue
    | some _ => faultAt .badNumber
  else
    let (grown, left) := addDigits greatestSignificand significand digits
    exponentOrEnd grown (exponent - (digits.length - left : Nat))

/-- Reads a number from behind its sign. -/
def unsignedNumber : Reader Float := do
  match ← peek with
  | none => faultBehind .openValue
  | some c =>
    if !isDigit c then faultAt .badNumber
    else
      let digits ←
        if c = '0' then do
          skip
          if ((← peek).map isDigit).getD false then faultAt .badNumber
          pure ['0']
        else takeDigits
      let (significand, left) := addDigits greatestSignificand 0 digits
      match ← peek with
      | some '.' => fractionPart significand left
      | some 'e' | some 'E' => exponentPart significand left
      | _ => scale significand left

/-- Reads a number. -/
def numberLiteral : Reader Json := do
  if (← peek) = some '-' then
    skip
    return .number (-(← unsignedNumber))
  else return .number (← unsignedNumber)

/-! ## Arrays, objects and documents -/

/-- Reads the items of an array from behind its opening bracket, and the closing one. The first
argument bounds their number. -/
def itemsWithin (value : Reader Json) : Nat → List Json → Reader (List Json)
  | 0, _ => faultAt .openList
  | n + 1, read => do
    match ← peekBehindBlanks with
    | none => faultAt .openList
    | some ']' =>
      skip
      return read.reverse
    | some c =>
      if !read.isEmpty then
        if c ≠ ',' then faultAt .badList
        skip
        match ← peekBehindBlanks with
        | some ']' => faultAt .trailingComma
        | some _ => pure ()
        | none => faultAt .openValue
      let item ← value
      itemsWithin value n (item :: read)

/-- Reads the members of an object from behind its opening brace, and the closing one. The first
argument bounds their number. -/
def membersWithin (value : Reader Json) : Nat → (first : Bool) → List (String × Json) →
    Reader (List (String × Json))
  | 0, _, _ => faultAt .openObject
  | n + 1, first, read => do
    match ← peekBehindBlanks with
    | none => faultAt .openObject
    | some '\x7d' =>
      skip
      return read
    | some c =>
      if first then
        if c ≠ '"' then faultAt .keyNotString
      else
        if c ≠ ',' then faultAt .badObject
        skip
        match ← peekBehindBlanks with
        | some '"' => pure ()
        | some '\x7d' => faultAt .trailingComma
        | some _ => faultAt .keyNotString
        | none => faultAt .openValue
      let key ← stringLiteral
      match ← peekBehindBlanks with
      | some ':' => skip
      | some _ => faultAt .missingColon
      | none => faultAt .openObject
      let item ← value
      membersWithin value n false (Table.put read key item)

/-- Reads a value in which arrays and objects may be nested less deep than the given bound. -/
def value : Nat → Reader Json
  | 0 => faultAt .tooDeep
  | depth + 1 => do
    match ← peekBehindBlanks with
    | none => faultAt .openValue
    | some 'n' => skip; word "ull".toList; return .null
    | some 't' => skip; word "rue".toList; return .bool true
    | some 'f' => skip; word "alse".toList; return .bool false
    | some '"' => return .string (← stringLiteral)
    | some '[' =>
      if depth = 0 then faultAt .tooDeep
      skip
      return .array (← itemsWithin (value depth) ((← get).rest.length + 1) [])
    | some '\x7b' =>
      if depth = 0 then faultAt .tooDeep
      skip
      return .object (← membersWithin (value depth) ((← get).rest.length + 1) true [])
    | some c => if c = '-' || isDigit c then numberLiteral else faultAt .badValue

/-- Reads a value that is all of the text. -/
def document : Reader Json := do
  let json ← value 128
  match ← peekBehindBlanks with
  | none => return json
  | some _ => faultAt .trailingText

end Reader

/-- Reads a document. -/
def read (text : String) : Except ReadError Json :=
  (Reader.document.run ⟨text.toList, 1, 0⟩).map (·.1)

end Stencil.Json
