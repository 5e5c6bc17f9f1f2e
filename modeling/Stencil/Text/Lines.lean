/-!
# Line breaks

`normalize` gives every text one spelling of the line break, and `lines` cuts a text into its
lines for display. A normalized text holds none of the other line terminators
(`normalize_free`), so it is a fixed point unless it begins with a byte order mark.
-/

set_option autoImplicit false

namespace Stencil.Text

/-- The characters other than the line feed that end a line. -/
def isForeignBreak (c : Char) : Bool :=
  c = '\r' || c = '\u2028' || c = '\u2029'

/-- Writes every line terminator as a line feed; a carriage return and the line feed behind it
are one terminator. -/
def unifyBreaks : List Char → List Char
  | [] => []
  | '\r' :: '\n' :: rest => '\n' :: unifyBreaks rest
  | c :: rest => (if isForeignBreak c then '\n' else c) :: unifyBreaks rest

/-- Drops one leading byte order mark and unifies the line breaks. -/
def normalize : List Char → List Char
  | '\ufeff' :: rest => unifyBreaks rest
  | cs => unifyBreaks cs

/-- After unification the line feed is the only line terminator. -/
theorem isForeignBreak_of_mem_unifyBreaks {cs : List Char} {c : Char} (h : c ∈ unifyBreaks cs) :
    isForeignBreak c = false := by
  fun_induction unifyBreaks cs with
  | case1 => simp at h
  | case2 rest ih =>
    rcases List.mem_cons.1 h with rfl | h
    · rfl
    · exact ih h
  | case3 d rest _ ih =>
    rcases List.mem_cons.1 h with rfl | h
    · split
      · rfl
      · simp_all
    · exact ih h

/-- A normalized text holds no line terminator other than the line feed. -/
theorem normalize_free {cs : List Char} {c : Char} (h : c ∈ normalize cs) :
    isForeignBreak c = false := by
  unfold normalize at h
  split at h <;> exact isForeignBreak_of_mem_unifyBreaks h

/-- Cuts a text at its line feeds. A text that ends in a line feed has an empty last piece. -/
def splitAtBreaks : List Char → List (List Char)
  | [] => [[]]
  | c :: rest =>
    if c = '\n' then [] :: splitAtBreaks rest
    else
      match splitAtBreaks rest with
      | [] => [[c]]
      | line :: others => (c :: line) :: others

/-- Drops a carriage return at the end of a line. -/
def dropReturn (line : List Char) : List Char :=
  if line.getLast? = some '\r' then line.dropLast else line

/-- The lines of a text as they are displayed: the terminator, a line feed with or without a
carriage return before it, is not part of the line, and a terminator at the end of the text
opens no further line. A carriage return at the very end of the text ends nothing and stays. -/
def lines (cs : List Char) : List (List Char) :=
  go (splitAtBreaks cs)
where
  /-- Every piece but the last was ended by a line feed. -/
  go : List (List Char) → List (List Char)
    | [] => []
    | [last] => if last.isEmpty then [] else [last]
    | line :: rest => dropReturn line :: go rest

end Stencil.Text
