import Stencil.Proofs.Printing.Faces
import Stencil.Proofs.Printing.StmtText
import Stencil.Proofs.Syntax.Outline
/-!
# The text of templates

The printed text of faithful chunks tells their tokens, and the marks among the pieces stand where
the chunks begin. No piece of a template breaks a line or changes the indentation by itself, so the
place of every piece is the place behind the texts before it.
-/

set_option autoImplicit false

namespace Stencil.Print

open Stencil.Lexing
open Stencil.Syntax
open Stencil.Text

/-! ## Flat pieces -/

/-- The characters of a piece, where it is neither a line break nor a change of the indentation. -/
def Piece.chars : Piece → List Char
  | .text string => string.toList
  | _ => []

/-- Whether a piece is text or a mark. -/
def Piece.isFlat : Piece → Bool
  | .text _ => true
  | .mark _ => true
  | _ => false

/-- The characters of flat pieces. -/
def flatText (pieces : List Piece) : List Char := pieces.flatMap Piece.chars

/-- The marks among flat pieces, each with the place where it stands. -/
def marks : Position → List Piece → List (Position × Option Span)
  | _, [] => []
  | place, .mark span :: rest => (place, span) :: marks place rest
  | place, piece :: rest => marks (place.after piece.chars) rest

attribute [simp] Piece.chars marks

/-- The characters of no pieces. -/
@[simp] theorem flatText_nil : flatText [] = [] := rfl

/-- The characters of a piece and those behind it. -/
@[simp] theorem flatText_cons (piece : Piece) (pieces : List Piece) :
    flatText (piece :: pieces) = piece.chars ++ flatText pieces := List.flatMap_cons

/-- The characters of pieces in a row. -/
@[simp] theorem flatText_append (pieces more : List Piece) :
    flatText (pieces ++ more) = flatText pieces ++ flatText more :=
  List.flatMap_append

/-- The marks among pieces in a row. -/
@[simp] theorem marks_append (pieces more : List Piece) (place : Position) :
    marks place (pieces ++ more) =
      marks place pieces ++ marks (place.after (flatText pieces)) more := by
  induction pieces generalizing place with
  | nil => rfl
  | cons piece pieces ih =>
    cases piece <;> simp [ih, Position.after_append]

/-- The mapping of a mark, if it has a span. -/
def mapping? : Position × Option Span → Option Mapping
  | (_, none) => none
  | (place, some span) => some ⟨place.line, place.column, span.start.line, span.start.column⟩

/-- Whether something is laid out up to a place. -/
def Reaches (layout : Layout) (place : Position) : Prop :=
  layout.line = place.line ∧ layout.column = place.column

/-- Text that is pushed moves on the place. -/
theorem Reaches.push {layout : Layout} {place : Position} (reaches : Reaches layout place)
    (text : String) : Reaches (layout.push text) (place.after text.toList) := by
  have moved : ∀ (cs : List Char) (line column : Nat) (place : Position),
      line = place.line → column = place.column →
      cs.foldl Layout.move (line, column) = ((place.after cs).line, (place.after cs).column) := by
    intro cs
    induction cs with
    | nil => rintro _ _ place rfl rfl; rfl
    | cons c cs ih =>
      rintro _ _ place rfl rfl
      rw [List.foldl_cons, Layout.move]
      split
      · rename_i same
        exact ih _ _ (place.next c) (by simp [Position.next, same]) (by simp [Position.next, same])
      · rename_i other
        exact ih _ _ (place.next c) (by simp [Position.next, other])
          (by simp [Position.next, other])
  have there := moved text.toList _ _ place reaches.1 reaches.2
  unfold Reaches Layout.push
  rw [there]
  exact ⟨rfl, rfl⟩

/-- Laying out flat pieces adds their characters to the code and their marks to the mappings. -/
theorem addAll_flat (style : Style) {pieces : List Piece} (flat : pieces.all Piece.isFlat = true) :
    ∀ {layout : Layout} {place : Position}, Reaches layout place →
      (layout.addAll style pieces).code.toList = layout.code.toList ++ flatText pieces ∧
      (layout.addAll style pieces).mappings =
        layout.mappings ++ if style.mappings then (marks place pieces).filterMap mapping? else [] := by
  induction pieces with
  | nil => simp [Layout.addAll, flatText, marks]
  | cons piece pieces ih =>
    intro layout place reaches
    rw [List.all_cons, Bool.and_eq_true] at flat
    rw [Layout.addAll, List.foldl_cons, ← Layout.addAll]
    cases piece with
    | text text =>
      obtain ⟨code, mappings⟩ := ih flat.2 (reaches.push text)
      refine ⟨?_, mappings⟩
      rw [Layout.add, code]
      simp [Layout.push]
    | mark span =>
      cases span with
      | none =>
        obtain ⟨code, mappings⟩ := ih flat.2 reaches
        exact ⟨code, mappings⟩
      | some span =>
        have added : layout.add style (.mark (some span)) =
            { layout with mappings := layout.mappings ++
                if style.mappings then
                  [⟨layout.line, layout.column, span.start.line, span.start.column⟩]
                else [] } := by
          unfold Layout.add
          cases style.mappings <;> simp
        have reaches' : Reaches (layout.add style (.mark (some span))) place := by
          rw [added]
          exact reaches
        obtain ⟨code, mappings⟩ := ih flat.2 reaches'
        constructor
        · rw [code, added]
          simp
        · rw [mappings, added, marks]
          cases style.mappings <;> simp [mapping?, reaches.1, reaches.2]
    | newline => exact absurd flat.1 (by decide)
    | indent => exact absurd flat.1 (by decide)
    | dedent => exact absurd flat.1 (by decide)

/-- The code and the mappings of flat pieces. -/
theorem layOut_flat (style : Style) {pieces : List Piece} (flat : pieces.all Piece.isFlat = true) :
    (layOut style pieces).code.toList = flatText pieces ∧
      (layOut style pieces).mappings =
        if style.mappings then (marks .origin pieces).filterMap mapping? else [] := by
  obtain ⟨code, mappings⟩ := @addAll_flat style _ flat .empty .origin ⟨rfl, rfl⟩
  refine ⟨?_, ?_⟩
  · rw [layOut, Layout.printed, code]
    rfl
  · rw [layOut, Layout.printed, mappings]
    rfl

attribute [simp] chunkPieces

/-- The pieces of chunks are flat if those of each are. -/
theorem flat_chunks {chunks : List Chunk}
    (each : ∀ c ∈ chunks, ∀ afterText, (chunkPieces afterText c).all Piece.isFlat = true) :
    ∀ afterText, (chunksPieces afterText chunks).all Piece.isFlat = true := by
  induction chunks with
  | nil => intro afterText; rfl
  | cons c chunks ih =>
    intro afterText
    rw [chunksPieces, List.all_append, each c (by simp),
      ih fun d listed => each d (List.mem_cons_of_mem _ listed)]
    rfl

/-- The pieces of conditional branches are flat if those of their chunks are. -/
theorem flat_elseIfs {branches : List ElseIf}
    (each : ∀ condition body, .mk condition body ∈ branches →
      ∀ c ∈ body, ∀ afterText, (chunkPieces afterText c).all Piece.isFlat = true) :
    (elseIfPieces branches).all Piece.isFlat = true := by
  induction branches with
  | nil => rfl
  | cons branch branches ih =>
    obtain ⟨condition, body⟩ := branch
    rw [elseIfPieces, List.all_cons, List.all_append, flat_chunks (each condition body (by simp)),
      ih fun condition body listed => each condition body (List.mem_cons_of_mem _ listed)]
    rfl

/-- The pieces of every chunk are flat. -/
theorem flat_steps :
    ChunkInduction fun c => ∀ afterText, (chunkPieces afterText c).all Piece.isFlat = true where
  html s text afterText := by
    rw [chunkPieces, List.all_cons, htmlPieces]
    split <;> rfl
  echo s value afterText := rfl
  inclusion s args name afterText := rfl
  each s bindings collection body ih afterText := by
    simp [flat_chunks ih, Piece.isFlat]
  ifElse s condition thenBranch elseIfs elseBranch ih ih' ih'' afterText := by
    cases elseBranch with
    | none => simp [flat_chunks ih, flat_elseIfs ih', Piece.isFlat]
    | some branch =>
      simp [flat_chunks ih, flat_elseIfs ih', flat_chunks (ih'' branch rfl), Piece.isFlat]
  rawHtml s value afterText := rfl
  layout s name afterText := rfl
  var s defs afterText := rfl

/-- The pieces of a template are flat. -/
theorem flat_template (chunks : List Chunk) (afterText : Bool) :
    (chunksPieces afterText chunks).all Piece.isFlat = true :=
  flat_chunks (fun c _ => flat_steps.chunk c) afterText

/-! ## Marks and spans -/

/-- The marks among pieces belong to the spans, and the other spans begin where the marks stand. -/
structure Marked (place : Position) (pieces : List Piece) (spans located : List (Option Span)) :
    Prop where
  spans : (marks place pieces).map (·.2) = spans
  places : (marks place pieces).map (fun mark => some (Span.point mark.1)) = located

namespace Marked

variable {place : Position} {pieces more : List Piece} {spans spans' located located' : List (Option Span)}

/-- Pieces in a row. -/
theorem append (first : Marked place pieces spans located)
    (second : Marked (place.after (flatText pieces)) more spans' located') :
    Marked place (pieces ++ more) (spans ++ spans') (located ++ located') where
  spans := by rw [marks_append, List.map_append, first.spans, second.spans]
  places := by rw [marks_append, List.map_append, first.places, second.places]

/-- A mark before pieces. -/
theorem mark (span : Option Span) (behind : Marked place pieces spans located) :
    Marked place (.mark span :: pieces) (span :: spans) (some (Span.point place) :: located) where
  spans := by rw [marks, List.map_cons, behind.spans]
  places := by rw [marks, List.map_cons, behind.places]

/-- Text before pieces. -/
theorem text (text : String)
    (behind : Marked (place.after text.toList) pieces spans located) :
    Marked place (.text text :: pieces) spans located where
  spans := behind.spans
  places := behind.places

/-- No pieces. -/
theorem nil (place : Position) : Marked place [] [] [] := ⟨rfl, rfl⟩

end Marked

/-! ## Commands -/

/-- Behind a marker every text may stand. -/
theorem open_entered (mode : Mode) (marker : Marker) : (entered mode marker).Open := by
  intro text kind last c first
  obtain rfl := Option.some.inj last
  rfl

/-- The phase inside of a command. -/
abbrev inCommand : Phase := entered .command .commandOpen

/-- A text that stands between the braces of a command, and the tokens it spells. -/
structure SpellsCommand (command : Command) (faces : List Face) (code : List Char) : Prop where
  /-- The command is one that opens code. -/
  other : command ≠ .verbatim ∧ command ≠ .remark
  /-- The text begins with the name of the command. -/
  named : ∃ follower more, CommandMarker.isFollower follower = true ∧
    code ++ ['\x7d'] = command.spelling.toList ++ follower :: more
  spells : ∃ kind, Spells inCommand faces code (inCommand.closed kind) ∧ EndsItem kind

/-- A command tells its tokens. -/
theorem tells_command {command : Command} {faces inner : List Face} {place : Position}
    {start : Option Position} (placed : ∀ p, start = some p → p = place) {code after : List Char}
    (spelt : SpellsCommand command inner code) {text : String}
    (text_ : text.toList = '\x7b' :: '\x7b' :: (code ++ ['\x7d', '\x7d']))
    (tells : Tells (place.after text.toList) faces after) :
    Tells place
      (markerFace start .commandOpen :: (inner ++ markerFace none .commandClose :: faces))
      (text.toList ++ after) := by
  obtain ⟨follower, more, follows, named⟩ := spelt.named
  obtain ⟨kind, spells, ends⟩ := spelt.spells
  rw [text_] at tells ⊢
  have told := Tells.command spelt.other named follows spells rfl rfl
    (Phase.admits_closed (ends '\x7d' (by decide))) placed tells
  simpa using told

/-- The word that names a command. -/
theorem word_command {command : Command} (other : command ≠ .verbatim ∧ command ≠ .remark) :
    isName command.spelling.toList = true := by
  have table : ∀ command ∈ Command.all, command ≠ .remark →
      isName command.spelling.toList = true := by
    decide
  exact table command (by cases command <;> decide) other.2

/-- Code behind the name of a command and a blank. -/
theorem spells_behindCommand {command : Command} (other : command ≠ .verbatim ∧ command ≠ .remark)
    {faces : List Face} {code : List Char}
    (spelt : ∀ s : Phase, s.Open → ∃ kind, Spells s faces code (s.closed kind) ∧ EndsItem kind) :
    SpellsCommand command (word command.spelling :: faces)
      (command.spelling.toList ++ ' ' :: code) where
  other := other
  named := ⟨' ', code ++ ['\x7d'], by decide, by simp⟩
  spells := by
    obtain ⟨kind, spells, ends⟩ := spelt ((inCommand.closed (wordKind command.spelling)).past ' ')
      (Phase.open_past _ _)
    exact ⟨kind, spells_plainWord (word_command other) (open_entered _ _ _) (spells_gap spells), ends⟩

/-- A list in parentheses and code behind the name of a command. -/
theorem spells_behindList {command : Command} (other : command ≠ .verbatim ∧ command ≠ .remark)
    {listed faces : List Face} {list : String} {code : List Char}
    (front : ∀ s : Phase, s.Admits ['('] →
      Spells s (enclosed listed) (inParentheses list).toList (s.closed (.punctuation ')')))
    (spelt : ∀ s : Phase, s.Open → ∃ kind, Spells s faces code (s.closed kind) ∧ EndsItem kind) :
    SpellsCommand command (word command.spelling :: (enclosed listed ++ faces))
      (command.spelling.toList ++ ((inParentheses list).toList ++ ' ' :: code)) where
  other := other
  named := ⟨'(', list.toList ++ ')' :: ' ' :: (code ++ ['\x7d']), by decide, by simp [inParentheses]⟩
  spells := by
    have stops : (inCommand.closed (wordKind command.spelling)).Admits ['('] :=
      Phase.admits_closed (stopsAt_word command.spelling '(' (by decide))
    obtain ⟨kind, spells, ends⟩ :=
      spelt ((inCommand.closed (.punctuation ')')).past ' ') (Phase.open_past _ _)
    exact ⟨kind, spells_plainWord (word_command other) (open_entered _ _ _)
      ((front _ stops).append (spells_gap spells)), ends⟩

/-! ## Chunks -/

/-- Behind a chunk there may be a text, or before one that is text a marker. -/
def MayStand (c : Chunk) (after : List Char) : Prop := isText c = true → BeginsMarker after

/-- The text of a chunk tells its tokens: those of the chunk, with spans that begin where the text of
each chunk inside it does. -/
def ChunkTold (c : Chunk) : Prop :=
  Everywhere Faithful c.parts →
    ∀ (afterText : Bool) (place : Position) (faces : List Face) (after : List Char),
      MayStand c after → Tells (place.after (flatText (chunkPieces afterText c))) faces after →
        ∃ located, located.eraseSpans = c.eraseSpans ∧ Everywhere Faithful located.parts ∧
          Marked place (chunkPieces afterText c) c.spans located.spans ∧
          Tells place (chunkFaces located ++ faces) (flatText (chunkPieces afterText c) ++ after)

/-- A chunk that stands somewhere else is as faithful. -/
theorem faithful_moved {c d : Chunk} {parts : List Part} (own : c.parts = .chunk c :: parts)
    (own' : d.parts = .chunk d :: parts)
    (same : FaithfulChunk c → FaithfulChunk d) (faithful : Everywhere Faithful c.parts) :
    Everywhere Faithful d.parts := by
  rw [own, everywhere_cons] at faithful
  rw [own', everywhere_cons]
  exact ⟨same faithful.1, faithful.2⟩

/-- A text that holds no marker is plain. -/
theorem plainText_of_holdsMarker {text : List Char} (plain : holdsMarker text = false) :
    plainText text = text := by
  induction text with
  | nil => rfl
  | cons c text ih =>
    rw [holdsMarker, Bool.or_eq_false_iff] at plain
    rw [plainText, if_neg (by simp [plain.1]), ih plain.2]

/-- Text, plain where it can be. -/
theorem told_html (s : Option Span) (text : String) : ChunkTold (.html s text) := by
  intro faithful afterText place faces after may tells
  have fine : IsFineText text := by simpa [Faithful, FaithfulChunk] using faithful
  have moved := faithful_moved (d := .html (some (Span.point place)) text) rfl rfl
    (fun _ => fine) faithful
  refine ⟨.html (some (Span.point place)) text, rfl, moved, ?_, ?_⟩
  · simp only [chunkPieces, htmlPieces]
    split
    · exact .mark s (.text _ (.text _ (.text _ (.nil _))))
    · exact .mark s (.text _ (.nil _))
  · have placed : ∀ p, startOf (some (Span.point place)) = some p → p = place := by
      intro p same
      exact (Option.some.inj same).symm
    have kind : text = String.ofList text.toList := by simp
    simp only [chunkPieces, htmlPieces] at tells ⊢
    by_cases wrapped : (afterText || needsVerbatim text) = true
    · rw [if_pos wrapped] at tells ⊢
      have text_ : flatText [.mark s, .text "\x7b\x7bverbatim\x7d\x7d", .text text,
          .text "\x7b\x7b/verbatim\x7d\x7d"] = verbatimStart ++ (text.toList ++ verbatimEnd) := by
        simp only [flatText_cons, flatText_nil, Piece.chars, List.nil_append, List.append_nil]
        rfl
      rw [text_] at tells ⊢
      have told := Tells.verbatim fine.unclosed fine.unbroken placed tells
      rw [← kind] at told
      simpa using told
    · rw [if_neg wrapped] at tells ⊢
      simp only [needsVerbatim, Bool.or_eq_true, not_or, Bool.not_eq_true, decide_eq_true_eq] at wrapped
      obtain ⟨-, ⟨nonempty, last⟩, unmarked⟩ := wrapped
      have told := Tells.plain (List.isEmpty_eq_false_iff.1 nonempty)
        (plainText_of_holdsMarker unmarked) last fine.unbroken (may rfl) placed (by simpa using tells)
      rw [← kind] at told
      simpa using told

/-- A chunk that begins at a place is known to begin there. -/
theorem startOf_point (place : Position) :
    ∀ p, startOf (some (Span.point place)) = some p → p = place :=
  fun _ same => (Option.some.inj same).symm

/-- Nothing is known of a place that is not given. -/
theorem startOf_none (place : Position) : ∀ p, startOf none = some p → p = place :=
  fun _ same => absurd same (by simp [startOf])

/-- An echo. -/
theorem told_echo (s : Option Span) (value : Expr) : ChunkTold (.echo s value) := by
  intro faithful afterText place faces after may tells
  have moved := faithful_moved (d := .echo (some (Span.point place)) value) rfl rfl
    (fun _ => trivial) faithful
  refine ⟨.echo (some (Span.point place)) value, rfl, moved, .mark s (.text _ (.nil _)), ?_⟩
  obtain ⟨kind, spelt, ends⟩ := spells_expr (exprSpelt value) ((everywhere_cons _ _).1 faithful).2
    sequenceLevel (open_entered .echo .echoOpen)
  have text_ : flatText (chunkPieces afterText (.echo s value)) =
      '$' :: '\x7b' :: ((exprText sequenceLevel value).toList ++ ['\x7d']) := by
    simp
  rw [text_] at tells ⊢
  have told := Tells.echo spelt rfl rfl (Phase.admits_closed (ends '\x7d' (by decide)))
    (startOf_point place) tells
  simpa using told

/-- A command without a body tells its tokens where its text does. -/
theorem told_simple {c : Chunk} {s : Option Span} {inner : List Face} {text : String}
    (command : Command) (code : List Char)
    (text_ : text.toList = '\x7b' :: '\x7b' :: (code ++ ['\x7d', '\x7d']))
    (pieces : ∀ afterText, chunkPieces afterText c = [.mark s, .text text])
    (spans : c.spans = [s]) (placedAt : Option Span → Chunk)
    (located : ∀ s, (placedAt s).eraseSpans = c.eraseSpans ∧ (placedAt s).spans = [s] ∧
      chunkFaces (placedAt s) = commandFaces s inner)
    (moved : ∀ s, Everywhere Faithful c.parts → Everywhere Faithful (placedAt s).parts)
    (spelt : Everywhere Faithful c.parts → SpellsCommand command inner code) : ChunkTold c := by
  intro faithful afterText place faces after may tells
  obtain ⟨erased, spans', faces_⟩ := located (some (Span.point place))
  refine ⟨placedAt (some (Span.point place)), erased, moved _ faithful, ?_, ?_⟩
  · rw [pieces, spans, spans']
    exact .mark s (.text _ (.nil _))
  · have flat : flatText (chunkPieces afterText c) = text.toList := by simp [pieces]
    rw [flat] at tells ⊢
    rw [faces_]
    have told := tells_command (startOf_point place) (spelt faithful) text_ tells
    simpa [commandFaces] using told

/-- An expression of a faithful tree, where every text may stand. -/
theorem spells_faithful {e : Expr} (faithful : Everywhere Faithful e.parts) (s : Phase)
    (opened : s.Open) :
    ∃ kind, Spells s (exprFaces sequenceLevel e) (ofExpr e).toList (s.closed kind) ∧
      EndsItem kind :=
  spells_expr (exprSpelt e) faithful sequenceLevel opened

/-- Raw output. -/
theorem told_rawHtml (s : Option Span) (value : Expr) : ChunkTold (.rawHtml s value) :=
  told_simple .html ("html".toList ++ ' ' :: (ofExpr value).toList) (by simp [ofExpr]) (fun _ => rfl) rfl
    (fun s => .rawHtml s value) (fun _ => ⟨rfl, rfl, rfl⟩) (fun _ => faithful_moved rfl rfl id)
      fun faithful =>
      spells_behindCommand (by decide)
        (spells_faithful ((everywhere_cons _ _).1 faithful).2)

/-- A layout. -/
theorem told_layout (s : Option Span) (name : Expr) : ChunkTold (.layout s name) :=
  told_simple .layout ("layout".toList ++ ' ' :: (ofExpr name).toList) (by simp [ofExpr]) (fun _ => rfl) rfl
    (fun s => .layout s name) (fun _ => ⟨rfl, rfl, rfl⟩) (fun _ => faithful_moved rfl rfl id)
      fun faithful =>
      spells_behindCommand (by decide)
        (spells_faithful ((everywhere_cons _ _).1 faithful).2)

/-- A declaration. -/
theorem told_var (s : Option Span) (defs : List VarDef) : ChunkTold (.var s defs) := by
  refine told_simple .var ("var".toList ++ ' ' :: (commaSeparated (varDefTexts defs)).toList) (by simp)
    (fun _ => rfl) rfl (fun s => .var s defs) (fun _ => ⟨rfl, rfl, rfl⟩)
      (fun _ => faithful_moved rfl rfl id) ?_
  intro faithful
  rw [Chunk.parts, everywhere_cons] at faithful
  rw [varDefsFaces_eq, varDefTexts_eq]
  refine spells_behindCommand (by decide) fun t opened => ?_
  exact spells_varDefs false faithful.1 (fun _ value _ => exprSpelt value) faithful.2 opened

/-- An inclusion. -/
theorem told_inclusion (s : Option Span) (args : Option (List Expr)) (name : Expr) :
    ChunkTold (.include s args name) := by
  cases args with
  | none =>
    refine told_simple .tmpl ("tmpl".toList ++ ' ' :: (ofExpr name).toList) (by simp [ofExpr, argsText])
      (fun _ => rfl) rfl (fun s => .include s none name) (fun _ => ⟨rfl, rfl, rfl⟩)
      (fun _ => faithful_moved rfl rfl id) ?_
    intro faithful
    rw [Chunk.parts, everywhere_cons, everywhere_append] at faithful
    exact spells_behindCommand (by decide) (spells_faithful faithful.2.2)
  | some args =>
    refine told_simple .tmpl ("tmpl".toList ++ ((inParentheses (commaSeparated (exprTexts args))).toList
        ++ ' ' :: (ofExpr name).toList)) (by simp [ofExpr, argsText])
      (fun _ => rfl) rfl (fun s => .include s (some args) name) (fun _ => ⟨rfl, rfl, rfl⟩)
      (fun _ => faithful_moved rfl rfl id) ?_
    intro faithful
    rw [Chunk.parts, everywhere_cons, everywhere_append] at faithful
    exact spells_behindList (by decide)
      (fun t admits => spells_arguments (fun e _ => exprSpelt e) faithful.2.1 admits)
      (spells_faithful faithful.2.2)

/-! ## Blocks -/

/-- The pieces of the default branch of a conditional, if it has one. -/
def elsePieces : Option (List Chunk) → List Piece
  | none => []
  | some branch => .text "\x7b\x7belse\x7d\x7d" :: chunksPieces false branch

/-- The pieces of a conditional. -/
theorem chunkPieces_ifElse (afterText : Bool) (s : Option Span) (condition : Expr)
    (thenBranch : List Chunk) (elseIfs : List ElseIf) (elseBranch : Option (List Chunk)) :
    chunkPieces afterText (.ifElse s condition thenBranch elseIfs elseBranch) =
      .mark s :: .text ("\x7b\x7bif " ++ exprText sequenceLevel condition ++ "\x7d\x7d") ::
        (chunksPieces false thenBranch ++ (elseIfPieces elseIfs
          ++ (elsePieces elseBranch ++ [.text "\x7b\x7b/if\x7d\x7d"]))) := by
  cases elseBranch <;> simp [elsePieces]

/-- The marker that closes a block tells its tokens. -/
theorem told_closer {command : Command} (block : command.isBlock = true) {face : Face}
    (named : face = word command.spelling) {faces : List Face} {place : Position} {text : String}
    {after : List Char} (text_ : text.toList =
      '\x7b' :: '\x7b' :: '/' :: (command.spelling.toList ++ ['\x7d', '\x7d']))
    (tells : Tells (place.after text.toList) faces after) :
    Tells place (closerFaces face ++ faces) (text.toList ++ after) := by
  have plain : isName command.spelling.toList = true := by
    cases command <;> first | exact absurd block (by decide) | decide
  have spelt : Spells (entered .command .closerOpen) [face] (command.spelling.toList ++ [])
      ((entered .command .closerOpen).closed (wordKind command.spelling)) := by
    rw [named]
    exact spells_plainWord plain (open_entered _ _ _) .nil
  rw [List.append_nil] at spelt
  rw [text_] at tells ⊢
  have told := Tells.closing block spelt rfl rfl
    (Phase.admits_closed (stopsAt_word command.spelling '\x7d' (by decide))) tells
  simpa [closerFaces] using told

/-- Chunks in their order tell their tokens, if each does, behind a text as well as behind a
marker. -/
def ChunksTold (chunks : List Chunk) : Prop :=
  ∀ (afterText : Bool) (place : Position) (faces : List Face) (after : List Char),
    BeginsMarker after → Tells (place.after (flatText (chunksPieces afterText chunks))) faces after →
      ∃ located, eraseChunks located = eraseChunks chunks ∧
        Everywhere Faithful (partsOfChunks located) ∧
        Marked place (chunksPieces afterText chunks) (spansOfChunks chunks) (spansOfChunks located) ∧
        Tells place (chunksFaces located ++ faces)
          (flatText (chunksPieces afterText chunks) ++ after)

/-- The name of a command opens a marker. -/
theorem begins_opening (command : Command) {follower : Char}
    (follows : CommandMarker.isFollower follower = true) (rest : List Char) :
    BeginsMarker ('\x7b' :: '\x7b' :: (command.spelling.toList ++ follower :: rest)) := by
  right
  rw [startsMarker_eq (by simp), at?_opening command follows]
  rfl

/-- The marker that closes a block is one. -/
theorem begins_closer {command : Command} (block : command.isBlock = true) {text : String}
    (text_ : text.toList =
      '\x7b' :: '\x7b' :: '/' :: (command.spelling.toList ++ ['\x7d', '\x7d'])) (rest : List Char) :
    BeginsMarker (text.toList ++ rest) := by
  right
  have whole : text.toList ++ rest =
      '\x7b' :: '\x7b' :: '/' :: (command.spelling.toList ++ '\x7d' :: '\x7d' :: rest) := by
    simp [text_]
  rw [whole, startsMarker_eq (by simp), at?_closing block (by decide)]
  rfl

/-- Behind a text every chunk begins with a marker. -/
theorem chunk_begins {c : Chunk} {afterText : Bool} (wrapped : isText c = true → afterText = true)
    (after : List Char) : BeginsMarker (flatText (chunkPieces afterText c) ++ after) := by
  cases c with
  | html s text =>
    rw [wrapped rfl]
    simpa [htmlPieces, Command.spelling] using @begins_opening .verbatim '\x7d'
      (by decide) ('\x7d' :: (text.toList ++ ("\x7b\x7b/verbatim\x7d\x7d".toList ++ after)))
  | echo s value => exact .inr (by simp [startsMarker])
  | «include» s args name =>
    cases args with
    | none =>
      simpa [argsText, Command.spelling] using @begins_opening .tmpl ' ' (by decide)
        ((exprText sequenceLevel name).toList ++ "\x7d\x7d".toList ++ after)
    | some args =>
      simpa [argsText, inParentheses, Command.spelling] using
        @begins_opening .tmpl '(' (by decide)
          ((commaSeparated (exprTexts args)).toList ++ (") ".toList
            ++ ((exprText sequenceLevel name).toList ++ ("\x7d\x7d".toList ++ after))))
  | each s bindings collection body =>
    cases bindings with
    | none =>
      have begins := @begins_opening .each ' ' (by decide)
      simp [Command.spelling] at begins
      simp [bindingsText, begins]
    | some names =>
      have begins := @begins_opening .each '(' (by decide)
      simp [Command.spelling] at begins
      simp [bindingsText, inParentheses, begins]
  | ifElse s condition thenBranch elseIfs elseBranch =>
    have begins := @begins_opening .if ' ' (by decide)
    simp [Command.spelling] at begins
    rw [chunkPieces_ifElse]
    simp [begins]
  | rawHtml s value =>
    simpa [Command.spelling] using @begins_opening .html ' ' (by decide)
      ((exprText sequenceLevel value).toList ++ ("\x7d\x7d".toList ++ after))
  | layout s name =>
    simpa [Command.spelling] using @begins_opening .layout ' ' (by decide)
      ((exprText sequenceLevel name).toList ++ ("\x7d\x7d".toList ++ after))
  | var s defs =>
    simpa [Command.spelling] using @begins_opening .var ' ' (by decide)
      ((commaSeparated (varDefTexts defs)).toList ++ ("\x7d\x7d".toList ++ after))

/-- Chunks behind a text begin with a marker. -/
theorem chunks_begin {chunks : List Chunk} {after : List Char} (begins : BeginsMarker after) :
    BeginsMarker (flatText (chunksPieces true chunks) ++ after) := by
  cases chunks with
  | nil => exact begins
  | cons c rest =>
    rw [chunksPieces, flatText_append, List.append_assoc]
    exact chunk_begins (fun _ => rfl) _

/-- Chunks tell their tokens if each of them does. -/
theorem told_chunks {chunks : List Chunk} (each : ∀ c ∈ chunks, ChunkTold c)
    (faithful : Everywhere Faithful (partsOfChunks chunks)) : ChunksTold chunks := by
  induction chunks with
  | nil => exact fun _ place faces after _ tells => ⟨[], rfl, everywhere_nil, .nil _, tells⟩
  | cons c chunks ih =>
    intro afterText place faces after begins tells
    rw [partsOfChunks, everywhere_append] at faithful
    rw [chunksPieces, flatText_append] at tells ⊢
    rw [Position.after_append] at tells
    obtain ⟨others, erased', fine', marked', tells⟩ :=
      ih (fun d listed => each d (List.mem_cons_of_mem _ listed)) faithful.2 (isText c) _ _ _ begins
        tells
    have may : MayStand c (flatText (chunksPieces (isText c) chunks) ++ after) := by
      intro text
      rw [text]
      exact chunks_begin begins
    obtain ⟨located, erased, fine, marked, tells⟩ :=
      each c (by simp) faithful.1 afterText place _ _ may tells
    refine ⟨located :: others, ?_, ?_, ?_, ?_⟩
    · rw [eraseChunks, eraseChunks, erased, erased']
    · exact (everywhere_append _ _).2 ⟨fine, fine'⟩
    · exact marked.append marked'
    · rw [chunksFaces, List.append_assoc, List.append_assoc]
      exact tells

/-- An iteration. -/
theorem told_each (s : Option Span) (bindings : Option (List String)) (collection : Expr)
    (body : List Chunk) (ih : ∀ c ∈ body, ChunkTold c) :
    ChunkTold (.each s bindings collection body) := by
  intro faithful afterText place faces after may tells
  rw [Chunk.parts, everywhere_cons, everywhere_append] at faithful
  have spelt : ∃ code, SpellsCommand .each
      (named "each" :: (bindingFaces bindings ++ exprFaces sequenceLevel collection)) code ∧
      ("\x7b\x7beach" ++ bindingsText bindings ++ " " ++ exprText sequenceLevel collection
        ++ "\x7d\x7d").toList = '\x7b' :: '\x7b' :: (code ++ ['\x7d', '\x7d']) := by
    cases bindings with
    | none =>
      refine ⟨_, spells_behindCommand (by decide) (spells_faithful faithful.2.1), ?_⟩
      simp [bindingsText, ofExpr, Command.spelling]
    | some names =>
      refine ⟨_, spells_behindList (by decide)
        (fun t admits => spells_names names faithful.1.2 admits)
        (spells_faithful faithful.2.1), ?_⟩
      simp [bindingsText, ofExpr, Command.spelling]
  obtain ⟨code, spelt, text_⟩ := spelt
  generalize opening : "\x7b\x7beach" ++ bindingsText bindings ++ " "
    ++ exprText sequenceLevel collection ++ "\x7d\x7d" = text at text_
  have pieces : chunkPieces afterText (.each s bindings collection body) =
      .mark s :: .text text :: (chunksPieces false body ++ [.text "\x7b\x7b/each\x7d\x7d"]) := by
    rw [← opening]
    simp
  rw [pieces] at tells ⊢
  simp only [flatText_cons, flatText_append, flatText_nil, Piece.chars, List.nil_append,
    List.append_nil, Position.after_append] at tells ⊢
  have closer : "\x7b\x7b/each\x7d\x7d".toList =
      '\x7b' :: '\x7b' :: '/' :: (Command.each.spelling.toList ++ ['\x7d', '\x7d']) := by
    decide
  have closed := told_closer rfl (show named "each" = _ from rfl) closer tells
  obtain ⟨located, erased, fine, marked, tells⟩ := told_chunks ih faithful.2.2 false _ _ _
    (begins_closer rfl closer _) closed
  refine ⟨.each (some (Span.point place)) bindings collection located, ?_, ?_, ?_, ?_⟩
  · simp only [Chunk.eraseSpans, erased]
  · rw [Chunk.parts, everywhere_cons, everywhere_append]
    refine ⟨?_, faithful.2.1, fine⟩
    cases bindings with
    | none => exact faithful.1
    | some names => exact faithful.1
  · exact .mark s (.text _ (by simpa using marked.append (.text _ (.nil _))))
  · have told := tells_command (startOf_point place) spelt text_ tells
    simpa [commandFaces] using told

/-- The marker of a conditional branch, or of the default one. -/
theorem begins_else {text : String} {follower : Char} {more : List Char}
    (follows : CommandMarker.isFollower follower = true)
    (text_ : text.toList = '\x7b' :: '\x7b' :: (Command.else.spelling.toList ++ follower :: more))
    (rest : List Char) : BeginsMarker (text.toList ++ rest) := by
  rw [text_]
  simpa using begins_opening .else follows (more ++ rest)

/-- Conditional branches, and what stands behind them, begin with a marker. -/
theorem elseIfs_begin {branches : List ElseIf} {after : List Char} (begins : BeginsMarker after) :
    BeginsMarker (flatText (elseIfPieces branches) ++ after) := by
  cases branches with
  | nil => exact begins
  | cons branch branches =>
    obtain ⟨condition, body⟩ := branch
    rw [elseIfPieces, flatText_cons, List.append_assoc]
    have text_ : ("\x7b\x7belse " ++ exprText sequenceLevel condition ++ "\x7d\x7d").toList =
        '\x7b' :: '\x7b' :: (Command.else.spelling.toList ++
          ' ' :: (exprText sequenceLevel condition ++ "\x7d\x7d").toList) := by
      simp [Command.spelling]
    exact begins_else (by decide) text_ _

/-- Conditional branches tell their tokens if the chunks in them do. -/
theorem told_elseIfs {branches : List ElseIf}
    (each : ∀ condition body, .mk condition body ∈ branches → ∀ c ∈ body, ChunkTold c)
    (faithful : Everywhere Faithful (partsOfElseIfs branches)) (place : Position)
    (faces : List Face) (after : List Char) (begins : BeginsMarker after)
    (tells : Tells (place.after (flatText (elseIfPieces branches))) faces after) :
    ∃ located, eraseElseIfs located = eraseElseIfs branches ∧
      Everywhere Faithful (partsOfElseIfs located) ∧
      Marked place (elseIfPieces branches) (spansOfElseIfs branches) (spansOfElseIfs located) ∧
      Tells place (elseIfsFaces located ++ faces) (flatText (elseIfPieces branches) ++ after) := by
  induction branches generalizing place with
  | nil => exact ⟨[], rfl, everywhere_nil, .nil _, tells⟩
  | cons branch branches ih =>
    obtain ⟨condition, body⟩ := branch
    rw [partsOfElseIfs, everywhere_append, ElseIf.parts, everywhere_cons, everywhere_append]
      at faithful
    generalize opening : "\x7b\x7belse " ++ exprText sequenceLevel condition ++ "\x7d\x7d" = text
    have text_ : text.toList = '\x7b' :: '\x7b' ::
        ((Command.else.spelling.toList ++ ' ' :: (ofExpr condition).toList) ++ ['\x7d', '\x7d']) := by
      rw [← opening]
      simp [ofExpr, Command.spelling]
    have spelt := @spells_behindCommand .else (by decide) _ _
      (spells_faithful faithful.1.2.1)
    simp only [elseIfPieces, opening, flatText_cons, flatText_append, Piece.chars,
      Position.after_append] at tells ⊢
    obtain ⟨others, erased', fine', marked', tells⟩ :=
      ih (fun condition body listed => each condition body (List.mem_cons_of_mem _ listed))
        faithful.2 _ tells
    obtain ⟨located, erased, fine, marked, tells⟩ := told_chunks (each condition body (by simp))
      faithful.1.2.2 false _ _ _ (elseIfs_begin begins) tells
    refine ⟨.mk condition located :: others, ?_, ?_, .text _ (marked.append marked'), ?_⟩
    · simp only [eraseElseIfs, ElseIf.eraseSpans, erased, erased']
    · rw [partsOfElseIfs, everywhere_append, ElseIf.parts, everywhere_cons, everywhere_append]
      exact ⟨⟨trivial, faithful.1.2.1, fine⟩, fine'⟩
    · have face : word Command.else.spelling = keyword .else := rfl
      have told := tells_command (startOf_none place) spelt text_ tells
      simpa [elseIfsFaces, commandFaces, face] using told

/-- The default branch of a conditional. -/
theorem told_elseBranch {elseBranch : Option (List Chunk)}
    (ih : ∀ body, elseBranch = some body → ∀ c ∈ body, ChunkTold c)
    (faithful : ∀ body, elseBranch = some body → Everywhere Faithful (partsOfChunks body))
    (place : Position) (faces : List Face) (after : List Char) (begins : BeginsMarker after)
    (tells : Tells (place.after (flatText (elsePieces elseBranch))) faces after) :
    ∃ located : Option (List Chunk),
      located.map eraseChunks = elseBranch.map eraseChunks ∧
      (∀ body, located = some body → Everywhere Faithful (partsOfChunks body)) ∧
      Marked place (elsePieces elseBranch) ((elseBranch.map spansOfChunks).getD [])
        ((located.map spansOfChunks).getD []) ∧
      Tells place (elseFaces located ++ faces) (flatText (elsePieces elseBranch) ++ after) := by
  cases elseBranch with
  | none => exact ⟨none, rfl, by simp, .nil _, tells⟩
  | some branch =>
    have spelt : SpellsCommand .else [keyword .else] "else".toList := by
      refine ⟨by decide, ⟨'\x7d', [], by decide, by simp [Command.spelling]⟩, ?_⟩
      refine ⟨_, ?_, fun c listed => stopsAt_word "else" c (by simp [listed])⟩
      have plain : isName "else".toList = true := by decide
      exact spells_plainWord plain (open_entered _ _ _) .nil
    have text_ : "\x7b\x7belse\x7d\x7d".toList =
        '\x7b' :: '\x7b' :: ("else".toList ++ ['\x7d', '\x7d']) := by
      decide
    simp only [elsePieces, flatText_cons, Piece.chars, Position.after_append] at tells ⊢
    obtain ⟨located, erased, fine, marked, tells⟩ :=
      told_chunks (ih branch rfl) (faithful branch rfl) false _ _ _ begins tells
    refine ⟨some located, by simp only [Option.map_some, erased], by simpa using fine,
      .text _ marked, ?_⟩
    have told := tells_command (startOf_none place) spelt text_ tells
    simpa [elseFaces, commandFaces] using told

/-- The default branch, if there is one, and what stands behind it, begin with a marker. -/
theorem elseBranch_begins {elseBranch : Option (List Chunk)} {after : List Char}
    (begins : BeginsMarker after) : BeginsMarker (flatText (elsePieces elseBranch) ++ after) := by
  cases elseBranch with
  | none => exact begins
  | some branch =>
    rw [elsePieces, flatText_cons, List.append_assoc]
    have text_ : "\x7b\x7belse\x7d\x7d".toList =
        '\x7b' :: '\x7b' :: (Command.else.spelling.toList ++ '\x7d' :: ['\x7d']) := by
      decide
    exact begins_else (by decide) text_ _

/-- A conditional. -/
theorem told_ifElse (s : Option Span) (condition : Expr) (thenBranch : List Chunk)
    (elseIfs : List ElseIf) (elseBranch : Option (List Chunk))
    (ih : ∀ c ∈ thenBranch, ChunkTold c)
    (ih' : ∀ condition body, .mk condition body ∈ elseIfs → ∀ c ∈ body, ChunkTold c)
    (ih'' : ∀ body, elseBranch = some body → ∀ c ∈ body, ChunkTold c) :
    ChunkTold (.ifElse s condition thenBranch elseIfs elseBranch) := by
  intro faithful afterText place faces after may tells
  obtain ⟨own, tested, fineThen, fineElseIfs, fineElse⟩ := everywhere_conditional.1 faithful
  generalize opening : "\x7b\x7bif " ++ exprText sequenceLevel condition ++ "\x7d\x7d" = text
  have text_ : text.toList = '\x7b' :: '\x7b' ::
      ((Command.if.spelling.toList ++ ' ' :: (ofExpr condition).toList) ++ ['\x7d', '\x7d']) := by
    rw [← opening]
    simp [ofExpr, Command.spelling]
  have spelt := @spells_behindCommand .if (by decide) _ _ (spells_faithful tested)
  have closer : "\x7b\x7b/if\x7d\x7d".toList =
      '\x7b' :: '\x7b' :: '/' :: (Command.if.spelling.toList ++ ['\x7d', '\x7d']) := by
    decide
  rw [chunkPieces_ifElse, opening] at tells ⊢
  simp only [flatText_cons, flatText_append, flatText_nil, Piece.chars, List.nil_append,
    List.append_nil, List.append_assoc, Position.after_append] at tells ⊢
  -- from the last marker to the first: each part is told with what stands behind it
  have closed := told_closer rfl (show keyword .if = _ from rfl) closer tells
  obtain ⟨others, erased'', fine'', marked'', told⟩ :=
    told_elseBranch ih'' fineElse _ _ _ (begins_closer rfl closer _) closed
  obtain ⟨branches, erased', fine', marked', told⟩ :=
    told_elseIfs ih' fineElseIfs _ _ _ (elseBranch_begins (begins_closer rfl closer _)) told
  obtain ⟨located, erased, fine, marked, told⟩ :=
    told_chunks ih fineThen false _ _ _
      (elseIfs_begin (elseBranch_begins (begins_closer rfl closer _))) told
  refine ⟨.ifElse (some (Span.point place)) condition located branches others, ?_, ?_, ?_, ?_⟩
  · rw [eraseSpans_ifElse, eraseSpans_ifElse, erased, erased', erased'']
  · exact everywhere_conditional.2 ⟨trivial, tested, fine, fine', fine''⟩
  · rw [spans_ifElse, spans_ifElse]
    exact .mark s (.text _ (marked.append (marked'.append (by
      simpa using marked''.append (.text _ (.nil _))))))
  · have face : word Command.if.spelling = keyword .if := rfl
    have told := tells_command (startOf_point place) spelt text_ told
    rw [chunkFaces_ifElse]
    simpa [commandFaces, face] using told

/-- The text of every chunk tells its tokens. -/
theorem told_steps : ChunkInduction ChunkTold where
  html := told_html
  echo := told_echo
  inclusion := told_inclusion
  each := told_each
  ifElse := told_ifElse
  rawHtml := told_rawHtml
  layout := told_layout
  var := told_var

end Stencil.Print
