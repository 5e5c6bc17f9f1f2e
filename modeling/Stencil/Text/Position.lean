/-!
# Positions and spans in a text

A position counts what lies before it: bytes of UTF-8, line breaks, and characters since the
last line break. `Position.after` moves a position across a run of characters, and the one law
of the file is that it does so piece by piece (`Position.after_append`).
-/

set_option autoImplicit false

namespace Stencil.Text

/-- A place between two characters of a text. All three counts start at zero. -/
structure Position where
  /-- Bytes of UTF-8 before the place. -/
  byte : Nat
  /-- Line breaks before the place. -/
  line : Nat
  /-- Characters between the last line break, or the start of the text, and the place. -/
  column : Nat
deriving DecidableEq

namespace Position

/-- The place before the first character. -/
def origin : Position := ⟨0, 0, 0⟩

/-- The place after the character that stands at the given place. -/
def next (p : Position) (c : Char) : Position :=
  if c = '\n' then ⟨p.byte + c.utf8Size, p.line + 1, 0⟩
  else ⟨p.byte + c.utf8Size, p.line, p.column + 1⟩

/-- The place after a run of characters. -/
def after (p : Position) (cs : List Char) : Position :=
  cs.foldl next p

@[simp] theorem after_nil (p : Position) : p.after [] = p := rfl

@[simp] theorem after_cons (p : Position) (c : Char) (cs : List Char) :
    p.after (c :: cs) = (p.next c).after cs := rfl

/-- Moving across two runs is moving across the first and then across the second. -/
theorem after_append (p : Position) (cs ds : List Char) :
    p.after (cs ++ ds) = (p.after cs).after ds := by
  simp [after]

end Position

/-- A stretch of text between two places. -/
structure Span where
  /-- Where the stretch begins. -/
  start : Position
  /-- Where the stretch ends, its last character included. -/
  stop : Position
deriving DecidableEq

namespace Span

/-- The empty stretch at one place. -/
def point (p : Position) : Span := ⟨p, p⟩

/-- The stretch from the start of the first span to the end of the second. -/
def through (first last : Span) : Span := ⟨first.start, last.stop⟩

end Span

end Stencil.Text
