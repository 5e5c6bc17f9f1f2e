import Stencil.Text.Letter
/-!
# Classes of characters

The classes by which a text is cut into tokens: blanks, digits, what starts and what continues
a name, operator characters and punctuation.
-/

set_option autoImplicit false

namespace Stencil.Text

/-- Blanks that may separate two tokens. -/
def isBlank (c : Char) : Bool :=
  c = ' ' || c = '\u00a0' || c = '\n' || c = '\r' || c = '\t' || c = '\u000c' || c = '\u000b' ||
  c = '\u200b' || c = '\u180e' || ('\u2000' ≤ c && c ≤ '\u200a') || c = '\u202f' ||
  c = '\u205f' || c = '\u3000'

/-- The ten decimal digits. -/
def isDigit (c : Char) : Bool :=
  '0' ≤ c && c ≤ '9'

/-- Digits and letters. -/
def isAlphanumeric (c : Char) : Bool :=
  isDigit c || isLetter c

/-- What a name may start with: a dollar sign, an underscore or a letter. -/
def isNameStart (c : Char) : Bool :=
  c = '$' || c = '_' || isLetter c

/-- What a name may hold after its first character: word characters, the dollar sign and the
two joiners of zero width. The underscore is a word character. -/
def isNamePart (c : Char) : Bool :=
  c = '$' || c = '\u200c' || c = '\u200d' || isWordChar c

/-- The characters of which symbolic operators are made. -/
def isOperatorChar (c : Char) : Bool :=
  "+-*&%=<>!?|~^".toList.contains c

/-- Brackets and separators. -/
def isPunctuation (c : Char) : Bool :=
  "[]\x7b\x7d(),;:".toList.contains c

/-- The small letters from a to z. -/
def isSmallLetter (c : Char) : Bool :=
  'a' ≤ c && c ≤ 'z'

/-- The letters from a to z, small or capital. -/
def isPlainLetter (c : Char) : Bool :=
  isSmallLetter c || ('A' ≤ c && c ≤ 'Z')

/-- The value of a hexadecimal digit. -/
def hexValue? (c : Char) : Option Nat :=
  if isDigit c then some (c.toNat - '0'.toNat)
  else if 'a' ≤ c && c ≤ 'f' then some (c.toNat - 'a'.toNat + 10)
  else if 'A' ≤ c && c ≤ 'F' then some (c.toNat - 'A'.toNat + 10)
  else none

/-- The value of an octal digit. -/
def octalValue? (c : Char) : Option Nat :=
  if '0' ≤ c && c ≤ '7' then some (c.toNat - '0'.toNat) else none

/-- Whether a word may stand as a name: a start character and then name characters. -/
def isName : List Char → Bool
  | [] => false
  | c :: rest => isNameStart c && rest.all isNamePart

/-- The underscore continues a word. -/
theorem isWordChar_underscore : isWordChar '_' = true := by decide +kernel

/-- What may start a name may also continue it. -/
theorem isNamePart_of_isNameStart {c : Char} (h : isNameStart c = true) :
    isNamePart c = true := by
  simp only [isNameStart, Bool.or_eq_true, decide_eq_true_eq] at h
  rcases h with (rfl | rfl) | h
  · simp [isNamePart]
  · simp [isNamePart, isWordChar_underscore]
  · simp [isNamePart, isWordChar_of_isLetter h]

end Stencil.Text
