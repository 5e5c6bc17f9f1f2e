import Stencil.Text.Position
/-!
# What a position counts

A position is moved character by character, but it is read as three counts of the text before
it: bytes, line breaks, and characters since the last of them. `Position.Counts` says so against
the text itself, in terms of the bytes of the string and without reference to how positions are
moved, and `counts_after` shows that moving keeps it. A span lies in a text (`Span.LiesIn`) when
it goes round a piece of it; both of its ends are then boundaries between characters.
-/

set_option autoImplicit false

namespace Stencil.Text

/-- The position tells what stands before it. -/
structure Position.Counts (p : Position) (before : List Char) : Prop where
  /-- The bytes of the text before the position. -/
  byte : p.byte = (String.ofList before).utf8ByteSize
  /-- The line feeds before the position. -/
  line : p.line = before.count '\n'
  /-- The characters behind the last of them. -/
  column : p.column = (before.reverse.takeWhile (· ≠ '\n')).length

/-- The position is a place of the text: it tells what stands before it there. -/
def Position.TrueIn (text : List Char) (p : Position) : Prop :=
  ∃ before, before <+: text ∧ p.Counts before

/-- The span goes round the piece that stands behind the given beginning of the text. -/
def Span.around (before piece : List Char) : Span :=
  ⟨Position.origin.after before, Position.origin.after (before ++ piece)⟩

/-- The span goes round a piece of the text. -/
def Span.LiesIn (text : List Char) (span : Span) : Prop :=
  ∃ before piece behind, text = before ++ piece ++ behind ∧ span = Span.around before piece

/-- The bytes of a text that goes on with a further character. -/
theorem utf8ByteSize_snoc (before : List Char) (c : Char) :
    (String.ofList (before ++ [c])).utf8ByteSize
      = (String.ofList before).utf8ByteSize + c.utf8Size := by
  rw [String.ofList_append, String.utf8ByteSize_append, ← String.singleton_eq_ofList,
    String.utf8ByteSize_singleton]

/-- Moving across a further character counts that character. -/
theorem Position.Counts.next {p : Position} {before : List Char} (counts : p.Counts before)
    (c : Char) : (p.next c).Counts (before ++ [c]) := by
  have byte := counts.byte
  have line := counts.line
  have column := counts.column
  have grown := utf8ByteSize_snoc before c
  by_cases isBreak : c = '\n'
  · subst isBreak
    constructor
    · rw [grown, ← byte]
      simp [Position.next]
    · simp [Position.next, line]
    · simp [Position.next]
  · constructor
    · rw [grown, ← byte]
      simp [Position.next, isBreak]
    · simp [Position.next, isBreak, line]
    · simp [Position.next, isBreak, column]

/-- Moving across a run of characters counts the run. -/
theorem Position.Counts.after {p : Position} {before : List Char} (counts : p.Counts before)
    (cs : List Char) : (p.after cs).Counts (before ++ cs) := by
  induction cs generalizing p before with
  | nil => simpa using counts
  | cons c cs ih => simpa using ih (counts.next c)

/-- The place behind the beginning of a text counts that beginning. -/
theorem counts_after (before : List Char) : (Position.origin.after before).Counts before := by
  have start : Position.origin.Counts [] := by constructor <;> simp [Position.origin]
  simpa using start.after before

/-- A place of a text is a boundary between two characters of it. -/
theorem Position.TrueIn.boundary {text : List Char} {p : Position} (place : p.TrueIn text) :
    String.Pos.Raw.IsValid (String.ofList text) ⟨p.byte⟩ := by
  obtain ⟨before, ⟨behind, rfl⟩, counts⟩ := place
  rw [String.ofList_append, String.Pos.Raw.isValid_iff_exists_append]
  refine ⟨_, _, rfl, ?_⟩
  rw [counts.byte]
  rfl

/-- Places of one text are ordered as the beginnings they stand behind. -/
theorem byte_after_le (before piece : List Char) :
    (Position.origin.after before).byte ≤ (Position.origin.after (before ++ piece)).byte := by
  rw [(counts_after before).byte, (counts_after (before ++ piece)).byte, String.ofList_append,
    String.utf8ByteSize_append]
  exact Nat.le_add_right _ _

/-- A piece that is not empty takes bytes. -/
theorem byte_after_lt (before : List Char) {piece : List Char} (filled : piece ≠ []) :
    (Position.origin.after before).byte < (Position.origin.after (before ++ piece)).byte := by
  cases piece with
  | nil => exact absurd rfl filled
  | cons c piece =>
    have first : (Position.origin.after (before ++ [c])).byte
        ≤ (Position.origin.after (before ++ [c] ++ piece)).byte := byte_after_le _ _
    rw [List.append_assoc, List.singleton_append] at first
    have step := utf8ByteSize_snoc before c
    rw [← (counts_after before).byte, ← (counts_after (before ++ [c])).byte] at step
    have := c.utf8Size_pos
    omega

namespace Span

variable {text : List Char} {span : Span}

/-- A span of a text starts at a place of it. -/
theorem LiesIn.start (lies : span.LiesIn text) : span.start.TrueIn text := by
  obtain ⟨before, piece, behind, rfl, rfl⟩ := lies
  exact ⟨before, by simp [List.append_assoc], counts_after before⟩

/-- A span of a text ends at a place of it. -/
theorem LiesIn.stop (lies : span.LiesIn text) : span.stop.TrueIn text := by
  obtain ⟨before, piece, behind, rfl, rfl⟩ := lies
  exact ⟨before ++ piece, by simp, counts_after _⟩

/-- A span of a text does not end before it starts. -/
theorem LiesIn.ordered (lies : span.LiesIn text) : span.start.byte ≤ span.stop.byte := by
  obtain ⟨before, piece, behind, rfl, rfl⟩ := lies
  exact byte_after_le before piece

end Span

/-- The bytes between two places of a text are those of the characters between them. -/
theorem extract_around (before piece behind : List Char) :
    (String.ofList (before ++ piece ++ behind)).toByteArray.extract
        (Span.around before piece).start.byte (Span.around before piece).stop.byte
      = (String.ofList piece).toByteArray := by
  have start := (counts_after before).byte
  have stop := (counts_after (before ++ piece)).byte
  rw [String.ofList_append, String.utf8ByteSize_append] at stop
  rw [List.append_assoc, String.ofList_append, String.ofList_append, String.toByteArray_append,
    String.toByteArray_append]
  simp only [Span.around, start, stop]
  exact (ByteArray.extract_append_size_add (i := 0)).trans
    (ByteArray.extract_append_eq_left rfl)

end Stencil.Text
