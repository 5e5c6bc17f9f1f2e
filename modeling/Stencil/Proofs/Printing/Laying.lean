import Stencil.Proofs.Printing.ExprText
/-!
# Laying out statements

What a sequence of pieces writes, and the tokens it spells. The unit of indentation may be any run
of blanks. A sequence that belongs together leaves the depth of indentation as it found it, so its
text does not depend on what is laid out behind it (`Writes`).
-/

set_option autoImplicit false

namespace Stencil.Print

open Stencil.Lexing
open Stencil.Syntax
open Stencil.Text

/-! ## What pieces write -/

attribute [simp] stmtPieces blockPieces casePieces

/-- The characters that pieces write, from a depth of indentation on. -/
def written (unit : String) : Nat → List Piece → List Char
  | _, [] => []
  | depth, .text text :: rest => text.toList ++ written unit depth rest
  | depth, .mark _ :: rest => written unit depth rest
  | depth, .newline :: rest =>
    '\n' :: ((Layout.indentation unit depth).toList ++ written unit depth rest)
  | depth, .indent :: rest => written unit (depth + 1) rest
  | depth, .dedent :: rest => written unit (depth - 1) rest

/-- Laying out pieces adds what they write to the code. -/
theorem addAll_code (style : Style) (pieces : List Piece) :
    ∀ layout : Layout, (layout.addAll style pieces).code.toList
      = layout.code.toList ++ written style.unit layout.depth pieces := by
  induction pieces with
  | nil => simp [Layout.addAll, written]
  | cons piece pieces ih =>
    intro layout
    have step := ih (layout.add style piece)
    rw [Layout.addAll, List.foldl_cons, ← Layout.addAll, step]
    cases piece with
    | text text => simp [Layout.add, Layout.push, written]
    | mark span =>
      cases span with
      | none => rfl
      | some span =>
        simp only [Layout.add]
        split <;> rfl
    | newline => simp [Layout.add, Layout.push, written]
    | indent => rfl
    | dedent => rfl

/-- The code of pieces that stand inside an expression. -/
theorem inlineCode_toList (pieces : List Piece) :
    (inlineCode pieces).toList = written "  " 0 pieces := by
  rw [inlineCode, layOut, Layout.printed, addAll_code]
  rfl

/-- The pieces write the text and leave the depth of indentation as it is. -/
def Writes (unit : String) (depth : Nat) (pieces : List Piece) (text : List Char) : Prop :=
  ∀ rest, written unit depth (pieces ++ rest) = text ++ written unit depth rest

namespace Writes

variable {unit : String} {depth : Nat} {pieces more : List Piece} {text after : List Char}

/-- Pieces that nothing stands behind. -/
theorem alone (writes : Writes unit depth pieces text) : written unit depth pieces = text := by
  have same := writes []
  rwa [List.append_nil, written, List.append_nil] at same

/-- No pieces write nothing. -/
theorem nil : Writes unit depth [] [] := fun _ => rfl

/-- Pieces in a row write the texts of both. -/
theorem append (first : Writes unit depth pieces text) (second : Writes unit depth more after) :
    Writes unit depth (pieces ++ more) (text ++ after) := by
  intro rest
  rw [List.append_assoc, first, second, List.append_assoc]

/-- Texts write themselves. -/
theorem texts (unit : String) (depth : Nat) (fronts : List String) :
    Writes unit depth (fronts.map .text) (fronts.flatMap String.toList) := by
  intro rest
  induction fronts with
  | nil => rfl
  | cons front fronts ih =>
    rw [List.map_cons, List.cons_append, written, ih, List.flatMap_cons, List.append_assoc]

/-- A mark writes nothing. -/
theorem mark (span : Option Span) (writes : Writes unit depth pieces text) :
    Writes unit depth (.mark span :: pieces) text :=
  fun rest => writes rest

/-- A line break writes itself and the indentation. -/
theorem newline (writes : Writes unit depth pieces text) :
    Writes unit depth (.newline :: pieces)
      ('\n' :: ((Layout.indentation unit depth).toList ++ text)) := by
  intro rest
  rw [List.cons_append, written, writes, List.cons_append, List.append_assoc]

/-- Pieces that are indented by one more unit. -/
theorem indented (writes : Writes unit (depth + 1) pieces text) :
    Writes unit depth (.indent :: (pieces ++ [.dedent])) text := by
  intro rest
  rw [List.cons_append, written, List.append_assoc, writes]
  rfl

end Writes

/-! ## Indentation -/

/-- Whether the unit of indentation consists of blanks. -/
def IsIndentation (unit : String) (s : Phase) : Prop :=
  ∀ c ∈ unit.toList, isBlank c = true ∧ (c = '\r' → s.returns = true)

/-- The unit inside expressions is two blanks. -/
theorem isIndentation_inline (s : Phase) : IsIndentation "  " s := by
  intro c listed
  have table : ∀ c ∈ "  ".toList, isBlank c = true ∧ c ≠ '\r' := by decide
  exact ⟨(table c listed).1, fun same => absurd same (table c listed).2⟩

/-- The phase behind a line break. -/
def fresh (s : Phase) : Phase := { s with broke := true, last := none }

/-- A blank behind a line break changes nothing. -/
theorem fresh_past (s : Phase) (c : Char) : (fresh s).past c = fresh s := rfl

/-- Behind a line break every text may stand. -/
theorem open_fresh (s : Phase) : (fresh s).Open :=
  fun _ _ last => absurd last (by simp [fresh])

/-- Blanks behind a line break. -/
theorem spells_blanks {s s' : Phase} {blanks text : List Char} {faces : List Face}
    (all : ∀ c ∈ blanks, isBlank c = true ∧ (c = '\r' → s.returns = true))
    (rest : Spells (fresh s) faces text s') : Spells (fresh s) faces (blanks ++ text) s' := by
  induction blanks with
  | nil => exact rest
  | cons c blanks ih =>
    obtain ⟨blank, allowed⟩ := all c (by simp)
    refine .blank blank (fun same => ⟨allowed same, rfl, rfl⟩) ?_
    rw [fresh_past]
    exact ih fun d listed => all d (List.mem_cons_of_mem _ listed)

/-- A line break and the indentation before a text. -/
theorem spells_newline {unit : String} {s s' : Phase} {text : List Char} {faces : List Face}
    (indentation : IsIndentation unit s) (depth : Nat) (rest : Spells (fresh s) faces text s') :
    Spells s faces ('\n' :: ((Layout.indentation unit depth).toList ++ text)) s' := by
  have past : s.past '\n' = fresh s := by simp [Phase.past, fresh]
  refine .blank (by decide) (by simp) ?_
  rw [past]
  refine spells_blanks ?_ rest
  intro c listed
  rw [Layout.indentation, String.toList_join] at listed
  obtain ⟨text, listed, inside⟩ := List.mem_flatMap.1 listed
  obtain ⟨-, rfl⟩ := List.mem_replicate.1 listed
  exact indentation c inside

/-! ## Pieces that spell tokens -/

/-- The pieces spell the tokens where every text may stand, and end in a token with a property. -/
def Laid (faces : List Face) (pieces : List Piece) (good : TokenKind → Prop) : Prop :=
  ∀ unit depth, ∃ text, Writes unit depth pieces text ∧
    ∀ s : Phase, IsIndentation unit s → s.Open →
      ∃ kind, Spells s faces text (s.closed kind) ∧ good kind

/-- Whether a token ends a statement. -/
def EndsStmt (kind : TokenKind) : Prop := kind = .punctuation ';' ∨ kind = .punctuation '\x7d'

/-- Behind a statement every text may stand. -/
theorem EndsStmt.opened {kind : TokenKind} (ends : EndsStmt kind) (s : Phase) :
    (s.closed kind).Open := by
  intro text last same c first
  obtain rfl := Option.some.inj same
  rcases ends with rfl | rfl <;> rfl

/-- The pieces spell the tokens behind a statement, and end as a statement does. -/
def LaidBehind (faces : List Face) (pieces : List Piece) : Prop :=
  ∀ unit depth, ∃ text, Writes unit depth pieces text ∧
    ∀ (s : Phase) (kind : TokenKind), IsIndentation unit s → EndsStmt kind →
      ∃ last, Spells (s.closed kind) faces text (s.closed last) ∧ EndsStmt last

/-- Whether two phases are at the same level of the same text. -/
structure Level (s s' : Phase) : Prop where
  mode : s'.mode = s.mode
  returns : s'.returns = s.returns
  depth : s'.depth = s.depth

/-- At the same level the same indentation may stand. -/
theorem Level.indentation {unit : String} {s s' : Phase} (level : Level s s')
    (indentation : IsIndentation unit s) : IsIndentation unit s' := by
  intro c listed
  rw [level.returns]
  exact indentation c listed

/-- Lines in braces, of which the closing one stands on a line of its own. -/
theorem spells_block {unit : String} {s s' : Phase} {faces : List Face} {text : List Char}
    (indentation : IsIndentation unit s) (depth : Nat) (opened : s.Open)
    (spelt : Spells (s.behind (.punctuation '\x7b')) faces text s')
    (level : Level (s.behind (.punctuation '\x7b')) s') :
    Spells s (braced faces)
      ('\x7b' :: ((text ++ '\n' :: (Layout.indentation unit depth).toList) ++ ['\x7d']))
      (s.closed (.punctuation '\x7d')) := by
  have closing : Spells s' [] ('\n' :: (Layout.indentation unit depth).toList) (fresh s') := by
    have breaks := spells_newline (level.indentation indentation) depth
      (.nil : Spells (fresh s') [] [] _)
    rwa [List.append_nil] at breaks
  have inside := spelt.append closing
  rw [List.append_nil] at inside
  exact spells_between (by decide) (opened _) inside ⟨level.mode, level.returns⟩ level.depth
    (open_fresh _ _)

/-- The pieces spell the tokens on lines of their own. -/
def Lines (faces : List Face) (pieces : List Piece) : Prop :=
  ∀ unit depth, ∃ text, Writes unit depth pieces text ∧
    ∀ s : Phase, IsIndentation unit s → ∃ s', Spells s faces text s' ∧ Level s s'

section Laid

variable {faces more : List Face} {pieces others : List Piece} {good better : TokenKind → Prop}

/-- A weaker property of the last token. -/
theorem Laid.mono (laid : Laid faces pieces good) (weaker : ∀ kind, good kind → better kind) :
    Laid faces pieces better := by
  intro unit depth
  obtain ⟨text, writes, spells⟩ := laid unit depth
  refine ⟨text, writes, fun s indentation opened => ?_⟩
  obtain ⟨kind, spelt, fine⟩ := spells s indentation opened
  exact ⟨kind, spelt, weaker kind fine⟩

/-- A mark before the pieces. -/
theorem Laid.mark (span : Option Span) (laid : Laid faces pieces good) :
    Laid faces (.mark span :: pieces) good := by
  intro unit depth
  obtain ⟨text, writes, spells⟩ := laid unit depth
  exact ⟨text, writes.mark span, spells⟩

/-- A single text. -/
theorem Laid.ofText {text : String}
    (spells : ∀ s : Phase, s.Open → ∃ kind, Spells s faces text.toList (s.closed kind) ∧ good kind) :
    Laid faces [.text text] good := by
  intro unit depth
  refine ⟨text.toList, ?_, fun s _ opened => spells s opened⟩
  have writes := Writes.texts unit depth [text]
  rwa [List.flatMap_cons, List.flatMap_nil, List.append_nil] at writes

/-- Texts before the pieces, with a blank between them. -/
theorem Laid.before (more : List Face) (fronts : List String)
    (spells : ∀ s : Phase, s.Open →
      ∃ kind, Spells s more (fronts.flatMap String.toList) ((s.closed kind).past ' '))
    (laid : Laid faces pieces good) : Laid (more ++ faces) (fronts.map .text ++ pieces) good := by
  intro unit depth
  obtain ⟨text, writes, spelt⟩ := laid unit depth
  refine ⟨_, (Writes.texts unit depth fronts).append writes, fun s indentation opened => ?_⟩
  obtain ⟨kind, front⟩ := spells s opened
  obtain ⟨last, back, fine⟩ := spelt ((s.closed kind).past ' ') indentation (Phase.open_past _ _)
  exact ⟨last, front.append back, fine⟩

/-- Pieces in a row, of which the first end as a statement does. -/
theorem Laid.append (first : Laid faces pieces good) (second : LaidBehind more others)
    (ends : ∀ kind, good kind → EndsStmt kind) : Laid (faces ++ more) (pieces ++ others) EndsStmt := by
  intro unit depth
  obtain ⟨text, writes, spells⟩ := first unit depth
  obtain ⟨after, writes', spells'⟩ := second unit depth
  refine ⟨_, writes.append writes', fun s indentation opened => ?_⟩
  obtain ⟨kind, spelt, fine⟩ := spells s indentation opened
  obtain ⟨last, spelt', fine⟩ := spells' s kind indentation (ends kind fine)
  exact ⟨last, spelt.append spelt', fine⟩

/-- Nothing behind a statement. -/
theorem LaidBehind.nil : LaidBehind [] [] := fun _ _ =>
  ⟨[], .nil, fun _ kind _ ends => ⟨kind, .nil, ends⟩⟩

/-- What may stand where every text may, may stand behind a statement. -/
theorem Laid.behind (laid : Laid faces pieces good) (ends : ∀ kind, good kind → EndsStmt kind) :
    LaidBehind faces pieces := by
  intro unit depth
  obtain ⟨text, writes, spells⟩ := laid unit depth
  refine ⟨text, writes, fun s kind indentation known => ?_⟩
  obtain ⟨last, spelt, fine⟩ := spells (s.closed kind) indentation (known.opened s)
  exact ⟨last, spelt, ends last fine⟩

/-- Pieces in a row behind a statement. -/
theorem LaidBehind.append (first : LaidBehind faces pieces) (second : LaidBehind more others) :
    LaidBehind (faces ++ more) (pieces ++ others) := by
  intro unit depth
  obtain ⟨text, writes, spells⟩ := first unit depth
  obtain ⟨after, writes', spells'⟩ := second unit depth
  refine ⟨_, writes.append writes', fun s kind indentation known => ?_⟩
  obtain ⟨last, spelt, fine⟩ := spells s kind indentation known
  obtain ⟨end_, spelt', fine⟩ := spells' s last indentation fine
  exact ⟨end_, spelt.append spelt', fine⟩

/-- No lines. -/
theorem Lines.nil : Lines [] [] := fun _ _ => ⟨[], .nil, fun s _ => ⟨s, .nil, rfl, rfl, rfl⟩⟩

/-- One more line. -/
theorem Lines.cons (line : Laid faces pieces good) (rest : Lines more others) :
    Lines (faces ++ more) (.newline :: (pieces ++ others)) := by
  intro unit depth
  obtain ⟨text, writes, spells⟩ := line unit depth
  obtain ⟨after, writes', spells'⟩ := rest unit depth
  refine ⟨_, (writes.append writes').newline, fun s indentation => ?_⟩
  obtain ⟨kind, spelt, -⟩ := spells (fresh s) indentation (open_fresh s)
  obtain ⟨s', spelt', level⟩ := spells' (s.closed kind) indentation
  exact ⟨s', spells_newline indentation depth (spelt.append spelt'),
    level.mode, level.returns, level.depth⟩

/-- Lines in braces. -/
theorem Lines.braced (lines : Lines faces pieces) :
    Laid (braced faces)
      ([.text "\x7b", .indent] ++ pieces ++ [.dedent, .newline, .text "\x7d"])
      (· = .punctuation '\x7d') := by
  intro unit depth
  obtain ⟨text, writes, spells⟩ := lines unit (depth + 1)
  refine ⟨'\x7b' :: ((text ++ '\n' :: (Layout.indentation unit depth).toList) ++ ['\x7d']), ?_, ?_⟩
  · intro rest
    have inner := writes ([.dedent, .newline, .text "\x7d"] ++ rest)
    simp only [List.cons_append, List.nil_append, List.append_assoc] at inner ⊢
    simp [written, inner]
  · intro s indentation opened
    obtain ⟨s', spelt, level⟩ := spells (s.behind (.punctuation '\x7b')) indentation
    exact ⟨_, spells_block indentation depth opened spelt level, rfl⟩

/-- A line with further lines below it, which are indented. -/
theorem Lines.below (front : List Face) (text : String) {kind : TokenKind}
    (spells : ∀ s : Phase, s.Open → Spells s front text.toList (s.closed kind))
    (below : Lines faces pieces) (rest : Lines more others) :
    Lines (front ++ (faces ++ more))
      ([.newline, .text text, .indent] ++ pieces ++ [.dedent] ++ others) := by
  intro unit depth
  obtain ⟨inside, writes, spelt⟩ := below unit (depth + 1)
  obtain ⟨after, writes', spelt'⟩ := rest unit depth
  have all := ((Writes.texts unit depth [text]).append
    (writes.indented.append writes')).newline
  refine ⟨_, by simpa using all, fun s indentation => ?_⟩
  obtain ⟨s', body, level⟩ := spelt ((fresh s).closed kind) indentation
  obtain ⟨s'', others, level'⟩ := spelt' s' (level.indentation indentation)
  refine ⟨s'', ?_, level'.mode.trans level.mode, level'.returns.trans level.returns,
    level'.depth.trans level.depth⟩
  have whole := (spells (fresh s) (open_fresh s)).append (body.append others)
  simpa using spells_newline indentation depth whole

end Laid

end Stencil.Print
