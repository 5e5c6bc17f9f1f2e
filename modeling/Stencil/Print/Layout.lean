import Stencil.Text.Position
/-!
# Laying out printed code

Printed code is a sequence of pieces: text, line breaks, changes of the indentation, and marks
that tie the place where they stand to a span of the source. `Layout.add` lays out one piece, so
laying out a sequence is a fold, and the code so far is never changed (`add_code`).
-/

set_option autoImplicit false

namespace Stencil.Print

open Stencil.Text (Span)

/-- A piece of printed code. -/
inductive Piece where
  /-- Text, which may hold line breaks of its own. -/
  | text (text : String)
  /-- What follows comes from the span, if one is given. -/
  | mark (span : Option Span)
  /-- A line break and the indentation. -/
  | newline
  /-- Lines are indented by one more unit from here on. -/
  | indent
  /-- Lines are indented by one unit less from here on. -/
  | dedent

/-- A place of the printed code and the place of the source it comes from. -/
structure Mapping where
  line : Nat
  column : Nat
  sourceLine : Nat
  sourceColumn : Nat
deriving DecidableEq

/-- Printed code with its mappings. -/
structure Printed where
  code : String
  mappings : List Mapping

/-- How code is laid out. -/
structure Style where
  /-- The unit of indentation. -/
  unit : String
  /-- Whether marks are kept as mappings. -/
  mappings : Bool

/-- Code that is being laid out. -/
structure Layout where
  code : String
  /-- Line breaks in the code so far. -/
  line : Nat
  /-- Characters since the last line break. -/
  column : Nat
  /-- Units of indentation. -/
  depth : Nat
  mappings : List Mapping

namespace Layout

/-- Nothing is laid out yet. -/
def empty : Layout := ⟨"", 0, 0, 0, []⟩

/-- Line and column behind a character. -/
def move (place : Nat × Nat) (c : Char) : Nat × Nat :=
  if c = '\n' then (place.1 + 1, 0) else (place.1, place.2 + 1)

/-- Adds text. -/
def push (layout : Layout) (text : String) : Layout :=
  let (line, column) := text.toList.foldl move (layout.line, layout.column)
  { layout with code := layout.code ++ text, line, column }

/-- A unit of indentation, repeated. -/
def indentation (unit : String) (depth : Nat) : String :=
  String.join (List.replicate depth unit)

/-- Adds a piece. -/
def add (style : Style) (layout : Layout) : Piece → Layout
  | .text text => layout.push text
  | .mark none => layout
  | .mark (some span) =>
    if style.mappings then
      { layout with
        mappings := layout.mappings ++
          [⟨layout.line, layout.column, span.start.line, span.start.column⟩] }
    else layout
  | .newline => (layout.push "\n").push (indentation style.unit layout.depth)
  | .indent => { layout with depth := layout.depth + 1 }
  | .dedent => { layout with depth := layout.depth - 1 }

/-- Adding text puts it behind the code so far. -/
@[simp] theorem push_code (layout : Layout) (text : String) :
    (layout.push text).code = layout.code ++ text := rfl

/-- The code so far is the beginning of the code behind a further piece. -/
theorem add_code (style : Style) (layout : Layout) (piece : Piece) :
    ∃ more, (layout.add style piece).code = layout.code ++ more := by
  cases piece with
  | text text => exact ⟨text, rfl⟩
  | mark span =>
    cases span with
    | none => exact ⟨"", by simp [add]⟩
    | some span => exact ⟨"", by by_cases h : style.mappings <;> simp [add, h]⟩
  | newline =>
    exact ⟨"\n" ++ indentation style.unit layout.depth, by simp [add, String.append_assoc]⟩
  | indent => exact ⟨"", by simp [add]⟩
  | dedent => exact ⟨"", by simp [add]⟩

/-- Adds pieces in their order. -/
def addAll (style : Style) (layout : Layout) (pieces : List Piece) : Layout :=
  pieces.foldl (add style) layout

/-- The code and the mappings so far. -/
def printed (layout : Layout) : Printed := ⟨layout.code, layout.mappings⟩

end Layout

/-- Lays out pieces. -/
def layOut (style : Style) (pieces : List Piece) : Printed :=
  (Layout.empty.addAll style pieces).printed

/-- The code of pieces that stand inside an expression. -/
def inlineCode (pieces : List Piece) : String :=
  (layOut ⟨"  ", false⟩ pieces).code

end Stencil.Print
