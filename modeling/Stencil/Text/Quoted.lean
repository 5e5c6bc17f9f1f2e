import Stencil.Text.Printable
/-!
# Quoted texts

Two ways of writing a text between double quotes. `literal` writes a string literal of the
scripting language: it is read back by the reader of string literals. `shown` writes the form in
which a text is shown in descriptions: there every character that would not be visible is
written as its code point.
-/

set_option autoImplicit false

namespace Stencil.Text.Quoted

/-- The hexadecimal digits of a number, in small letters. -/
def hexDigits (n : Nat) : List Char :=
  Nat.toDigits 16 n

/-- The hexadecimal digits of a number, padded with zeros on the left to four digits. -/
def hexDigits4 (n : Nat) : List Char :=
  let digits := hexDigits n
  List.replicate (4 - digits.length) '0' ++ digits

/-- Control characters: those below the blank, and from U+007F to U+009F. -/
def isControl (c : Char) : Bool :=
  c.toNat < 0x20 || (0x7f ≤ c.toNat && c.toNat ≤ 0x9f)

/-- One character inside a string literal. Quotes, backslashes, control characters, the line
and paragraph separators and the byte order mark are escaped. -/
def literalChar (c : Char) : List Char :=
  if c = '"' then ['\\', '"']
  else if c = '\\' then ['\\', '\\']
  else if c = '\n' then ['\\', 'n']
  else if c = '\r' then ['\\', 'r']
  else if c = '\t' then ['\\', 't']
  else if c = '\u0008' then ['\\', 'b']
  else if c = '\u000c' then ['\\', 'f']
  else if c = '\u000b' then ['\\', 'v']
  else if c = '\u2028' || c = '\u2029' || c = '\ufeff' || isControl c then
    '\\' :: 'u' :: hexDigits4 c.toNat
  else [c]

/-- A text as a string literal in double quotes. -/
def literal (s : String) : String :=
  String.ofList ('"' :: (s.toList.flatMap literalChar ++ ['"']))

/-- One character of a text that is shown in a description. -/
def shownChar (c : Char) : List Char :=
  if c = '"' then ['\\', '"']
  else if c = '\\' then ['\\', '\\']
  else if c = '\n' then ['\\', 'n']
  else if c = '\r' then ['\\', 'r']
  else if c = '\t' then ['\\', 't']
  else if c = '\u0000' then ['\\', '0']
  else if isPrintable c && !isAttaching c then [c]
  else '\\' :: 'u' :: '\x7b' :: (hexDigits c.toNat ++ ['\x7d'])

/-- A text as it is shown in a description. -/
def shown (s : String) : String :=
  String.ofList ('"' :: (s.toList.flatMap shownChar ++ ['"']))

end Stencil.Text.Quoted
