import Stencil.Proofs.Parsing.Blocks
import Stencil.Proofs.Parsing.Statements
import Stencil.Proofs.Printing.Faces
import Stencil.Proofs.Syntax.Outline
/-!
# Reading chunks

Every faithful chunk is read back from its tokens, with the same outline: it is the same without its
spans, and where spans are wanted, it and the chunks inside it begin where their first tokens do.
-/

set_option autoImplicit false

namespace Stencil.Grammar

open Stencil.Lexing (Face Word markerFace)
open Stencil.Print
open Stencil.Syntax
open Stencil.Text (Position Span)

/-- A chunk is read back: with its outline, and what follows is left. -/
def ReadChunk (o : Options) (chunk : Chunk) (rest : List Face) (result : Chunk) (behind : Cursor) :
    Prop :=
  result.outline o.positions = chunk.outline o.positions ∧ behind.Shows rest

/-- What is to be shown of a chunk: if it is faithful, and it is known where it and the chunks inside
it begin, it is read back. -/
def ChunkReads (o : Options) (chunk : Chunk) : Prop :=
  Everywhere Faithful chunk.parts → (∀ s ∈ chunk.spans, s.isSome = true) →
    ∀ n rest c, (chunkFaces chunk).length ≤ n → rest ≠ [] → c.Shows (chunkFaces chunk ++ rest) →
      Ends (Parser.chunk (.upTo n)) o c (ReadChunk o chunk rest) Never

section

variable {o : Options} {rest : List Face} {x y : Face} {c : Cursor} {e : Expr}

/-- The span of a chunk is the first of those of the chunks inside it. -/
theorem span_mem_spans (chunk : Chunk) : chunk.span ∈ chunk.spans := by
  cases chunk with
  | ifElse s condition thenBranch elseIfs elseBranch =>
    rw [spans_ifElse]
    exact List.mem_cons_self
  | _ => simp [Chunk.span]

/-! ## Markers -/

/-- The span of a chunk begins where its first token does. -/
theorem beginning_spanAt (s : Span) :
    beginning o.positions (spanAt o c s.start) = beginning o.positions (some s) := by
  unfold beginning spanAt
  cases o.positions <;> rfl

/-- A command is read from behind its opening marker. -/
theorem command_shown {s : Span} {inner : List Face} {rules : Rules}
    (shows : c.Shows (commandFaces (some s) inner ++ rest)) {good : Chunk → Cursor → Prop}
    (then_ : ∀ opening c', opening.start = s.start →
      c'.Shows (inner ++ markerFace none .commandClose :: rest) →
      Ends (Parser.command rules opening) o c' good Never) :
    Ends (Parser.chunk rules) o c good Never := by
  simp only [commandFaces, List.cons_append, List.append_assoc, List.nil_append] at shows
  have kind : c.token.kind = .marker .commandOpen := shows.kind
  have start : c.token.span.start = s.start := shows.1.start _ rfl
  simp only [Parser.chunk, ends_bind, ends_current, kind]
  exact advance_shown (by simp) shows fun c shows => then_ _ c start shows

/-- An expression at the end of a command. -/
theorem commandExpression_shown (readable : Readable o e) {n : Nat}
    (room : (exprFaces sequenceLevel e).length ≤ n) (some_ : rest ≠ [])
    (shows : c.Shows (exprFaces sequenceLevel e ++ markerFace none .commandClose :: rest))
    {good : Expr → Cursor → Prop}
    (then_ : ∀ result c', result.eraseSpans = e.eraseSpans → c'.Shows rest → good result c') :
    Ends (Parser.commandExpression (.upTo (n + 1))) o c good Never := by
  simp only [Parser.commandExpression, ends_bind, ends_pure]
  refine expression_shown readable room rfl shows fun result c erased shows => ?_
  exact expectMarker_shown some_ shows rfl (then_ result · erased)

/-- An expression whose text begins with no parenthesis does not begin with one. -/
theorem exprFaces_bareStart (faithful : Everywhere Faithful e.parts)
    (bare : ¬beginsWithParenthesis (ofExpr e)) :
    ∃ x more, exprFaces sequenceLevel e = x :: more ∧ x.kind ≠ .punctuation '(' := by
  obtain ⟨x, more, regexp, word, text, same, spelt, chars⟩ := exprText_begins faithful
  refine ⟨x, more, same, fun paren => bare ?_⟩
  rw [paren] at spelt
  have begins : word = ['('] := by
    generalize kinds : TokenKind.punctuation '(' = kind at spelt
    cases spelt with
    | name => exact absurd kinds.symm (Lexing.wordKind_ne_punctuation _ _)
    | punctuation => rw [TokenKind.punctuation.inj kinds]
    | point => exact absurd (TokenKind.punctuation.inj kinds) (by decide)
    | _ => cases kinds
  rw [beginsWithParenthesis, ofExpr, chars, begins]
  rfl

/-! ## Chunks without a body -/

/-- Text. -/
theorem reads_html (s : Option Span) (text : String) : ChunkReads o (.html s text) := by
  intro _ located n rest c _ some_ shows
  obtain ⟨span, rfl⟩ := Option.isSome_iff_exists.1 (located s (span_mem_spans (.html s text)))
  have kind : c.token.kind = .html text := shows.kind
  have start : c.token.span.start = span.start := shows.1.start _ rfl
  simp only [Parser.chunk, ends_bind, ends_current, kind, ends_spanFrom, ends_pure, start]
  refine advance_shown some_ shows fun c shows => ⟨?_, shows⟩
  simp [Chunk.outline, Chunk.span, beginning_spanAt]

/-- An echo. -/
theorem reads_echo (lenient : o.strict = false) (s : Option Span) (value : Expr) :
    ChunkReads o (.echo s value) := by
  intro faithful located n rest c room some_ shows
  obtain ⟨span, rfl⟩ := Option.isSome_iff_exists.1 (located s (span_mem_spans (.echo s value)))
  rw [Chunk.parts, everywhere_cons] at faithful
  simp only [chunkFaces, List.length_cons, List.length_append] at room
  simp only [chunkFaces, List.cons_append, List.append_assoc, List.nil_append] at shows
  obtain ⟨n, rfl⟩ := Nat.exists_eq_succ_of_ne_zero (n := n) (by omega)
  have kind : c.token.kind = .marker .echoOpen := shows.kind
  have start : c.token.span.start = span.start := shows.1.start _ rfl
  simp only [Parser.chunk, ends_bind, ends_current, kind, ends_spanFrom, ends_pure, start]
  refine advance_shown (by simp) shows fun c shows => ?_
  refine expression_shown (exprReads lenient value faithful.2) (by omega) rfl shows
    fun result c erased shows => ?_
  refine expectMarker_shown some_ shows rfl fun c shows => ⟨?_, shows⟩
  simp [Chunk.outline, Chunk.span, beginning_spanAt, erased]

/-- Raw output. -/
theorem reads_rawHtml (lenient : o.strict = false) (s : Option Span) (value : Expr) :
    ChunkReads o (.rawHtml s value) := by
  intro faithful located n rest c room some_ shows
  obtain ⟨span, rfl⟩ := Option.isSome_iff_exists.1 (located s (span_mem_spans (.rawHtml s value)))
  rw [Chunk.parts, everywhere_cons] at faithful
  simp only [chunkFaces, commandFaces, List.length_cons, List.length_append] at room
  obtain ⟨n, rfl⟩ := Nat.exists_eq_succ_of_ne_zero (n := n) (by omega)
  refine command_shown shows fun opening c start shows => ?_
  have kind : c.token.kind = .name "html" := shows.kind
  simp only [Parser.command, ends_bind, ends_currentKind, kind, ends_spanFrom, ends_pure, start]
  refine advance_shown (by simp) shows fun c shows => ?_
  refine commandExpression_shown (exprReads lenient value faithful.2) (by omega) some_ shows
    fun result c erased shows => ⟨?_, shows⟩
  simp [Chunk.outline, Chunk.span, beginning_spanAt, erased]

/-- A layout. -/
theorem reads_layout (lenient : o.strict = false) (s : Option Span) (name : Expr) :
    ChunkReads o (.layout s name) := by
  intro faithful located n rest c room some_ shows
  obtain ⟨span, rfl⟩ := Option.isSome_iff_exists.1 (located s (span_mem_spans (.layout s name)))
  rw [Chunk.parts, everywhere_cons] at faithful
  simp only [chunkFaces, commandFaces, List.length_cons, List.length_append] at room
  obtain ⟨n, rfl⟩ := Nat.exists_eq_succ_of_ne_zero (n := n) (by omega)
  refine command_shown shows fun opening c start shows => ?_
  have kind : c.token.kind = .name "layout" := shows.kind
  simp only [Parser.command, ends_bind, ends_currentKind, kind, ends_spanFrom, ends_pure, start]
  refine advance_shown (by simp) shows fun c shows => ?_
  refine commandExpression_shown (exprReads lenient name faithful.2) (by omega) some_ shows
    fun result c erased shows => ⟨?_, shows⟩
  simp [Chunk.outline, Chunk.span, beginning_spanAt, erased]

/-- Variables. -/
theorem reads_var (lenient : o.strict = false) (s : Option Span) (defs : List VarDef) :
    ChunkReads o (.var s defs) := by
  intro faithful located n rest c room some_ shows
  obtain ⟨span, rfl⟩ := Option.isSome_iff_exists.1 (located s (span_mem_spans (.var s defs)))
  rw [Chunk.parts, everywhere_cons] at faithful
  simp only [chunkFaces, commandFaces, varDefsFaces_eq, List.length_cons, List.length_append] at room
  simp only [chunkFaces, varDefsFaces_eq] at shows
  obtain ⟨n, rfl⟩ := Nat.exists_eq_succ_of_ne_zero (n := n) (by omega)
  refine command_shown shows fun opening c start shows => ?_
  have kind : c.token.kind = .keyword .var := shows.kind
  simp only [Parser.command, ends_bind, ends_currentKind, kind, ends_spanFrom, ends_pure, start]
  refine advance_shown (by simp) shows fun c shows => ?_
  refine definitions_shown faithful.1 ((reading_steps lenient).varDefs defs) faithful.2 (by simp)
    (by omega) rfl shows fun results c erased shows => ?_
  refine expectMarker_shown some_ shows rfl fun c shows => ⟨?_, shows⟩
  simp only [eraseVarDefs_eq] at erased
  simp [Chunk.outline, Chunk.span, beginning_spanAt, erased]

/-- An inclusion. -/
theorem reads_inclusion (lenient : o.strict = false) (s : Option Span) (args : Option (List Expr))
    (name : Expr) : ChunkReads o (.include s args name) := by
  intro faithful located n rest c room some_ shows
  obtain ⟨span, rfl⟩ := Option.isSome_iff_exists.1 (located s (span_mem_spans (.include s args name)))
  rw [Chunk.parts, everywhere_cons, everywhere_append] at faithful
  simp only [chunkFaces, commandFaces, List.length_cons, List.length_append] at room
  obtain ⟨n, rfl⟩ := Nat.exists_eq_succ_of_ne_zero (n := n) (by omega)
  refine command_shown shows fun opening c start shows => ?_
  have kind : c.token.kind = .name "tmpl" := shows.kind
  simp only [Parser.command, ends_bind, ends_currentKind, kind]
  simp only [List.cons_append, List.append_assoc] at shows
  refine advance_shown (by simp) shows fun c shows => ?_
  cases args with
  | none =>
    obtain ⟨x, more, same, noParen⟩ := exprFaces_bareStart faithful.2.2 faithful.1
    simp only [argFaces, List.nil_append] at shows
    have other : c.token.isPunctuation '(' = false := by
      rw [same] at shows
      exact isPunctuation_of_ne (shows.kind ▸ noParen)
    simp only [Parser.inclusion, ends_bind, ends_atPunctuation, other, Bool.false_eq_true, if_false,
      ends_pure, ends_spanFrom, start]
    refine commandExpression_shown (exprReads lenient name faithful.2.2) (by omega) some_ shows
      fun result c erased shows => ⟨?_, shows⟩
    simp [Chunk.outline, Chunk.span, beginning_spanAt, erased]
  | some args =>
    have fine : Everywhere Faithful (partsOfExprs args) := faithful.2.1
    simp only [argFaces, enclosed, List.length_cons, List.length_append] at room
    simp only [argFaces, enclosed, List.cons_append, List.append_assoc, List.nil_append] at shows
    have paren : c.token.isPunctuation '(' = true := by
      have kind : c.token.kind = .punctuation '(' := shows.kind
      simp [Token.isPunctuation, kind]
    simp only [Parser.inclusion, ends_bind, ends_atPunctuation, paren, if_true, ends_pure,
      ends_spanFrom, start]
    refine advance_shown (by simp) shows fun c shows => ?_
    obtain ⟨z, more, begins⟩ := List.exists_cons_of_ne_nil
      (l := exprFaces sequenceLevel name ++ markerFace none .commandClose :: rest) (by simp)
    rw [begins] at shows
    refine expressionList_shown
      (fun e listed => exprReads lenient e (everywhere_exprs.1 fine e listed)) (by decide) _ _
      (by omega) shows fun results c erasedArgs shows => ?_
    rw [← begins] at shows
    refine commandExpression_shown (exprReads lenient name faithful.2.2) (by omega) some_ shows
      fun result c erased shows => ⟨?_, shows⟩
    simp only [eraseExprs_eq] at erasedArgs
    simp [Chunk.outline, Chunk.span, beginning_spanAt, erased, erasedArgs]

/-! ## Blocks -/

/-- The tokens begin as a chunk does. -/
def BeginsChunk (faces : List Face) : Prop :=
  ∃ x more, faces = x :: more ∧ ((∃ text, x.kind = .html text) ∨ x.kind = .marker .echoOpen ∨
    x.kind = .marker .commandOpen ∧ ∃ y others, more = y :: others ∧ y.kind ≠ .keyword .else)

/-- The tokens go on as it must be behind the chunks of a block. -/
def EndsBlock (branches : Bool) (faces : List Face) : Prop :=
  ∃ x more, faces = x :: more ∧ (x.kind = .marker .closerOpen ∨
    branches = true ∧ x.kind = .marker .commandOpen ∧
      ∃ y others, more = y :: others ∧ y.kind = .keyword .else)

/-- The tokens of a command begin as a chunk does if its name is not that of a branch. -/
theorem beginsChunk_command (s : Option Span) {name : Face} (inner : List Face)
    (other : name.kind ≠ .keyword .else) : BeginsChunk (commandFaces s (name :: inner)) :=
  ⟨_, _, rfl, .inr (.inr ⟨rfl, _, _, rfl, other⟩)⟩

/-- Tokens that begin as a chunk does, with others behind. -/
theorem BeginsChunk.append {faces : List Face} (begins : BeginsChunk faces) (more : List Face) :
    BeginsChunk (faces ++ more) := by
  obtain ⟨x, tail, rfl, html | echo | ⟨command, y, others, rfl, other⟩⟩ := begins
  · exact ⟨x, tail ++ more, rfl, .inl html⟩
  · exact ⟨x, tail ++ more, rfl, .inr (.inl echo)⟩
  · exact ⟨x, y :: others ++ more, rfl, .inr (.inr ⟨command, y, others ++ more, rfl, other⟩)⟩

/-- The tokens of a chunk begin as a chunk does. -/
theorem chunkFaces_begins (chunk : Chunk) : BeginsChunk (chunkFaces chunk) := by
  cases chunk with
  | html s text => exact ⟨_, _, rfl, .inl ⟨text, rfl⟩⟩
  | echo s value => exact ⟨_, _, rfl, .inr (.inl rfl)⟩
  | «include» s args name => exact beginsChunk_command s _ (by simp [named])
  | each s bindings collection body => exact (beginsChunk_command s _ (by simp [named])).append _
  | ifElse s condition thenBranch elseIfs elseBranch =>
    rw [chunkFaces_ifElse]
    exact (beginsChunk_command s _ (by simp [keyword])).append _
  | rawHtml s value => exact beginsChunk_command s _ (by simp [named])
  | layout s name => exact beginsChunk_command s _ (by simp [named])
  | var s defs => exact beginsChunk_command s _ (by simp [keyword])

/-- The tokens of a chunk are no more than those of all. -/
theorem length_le_chunksFaces {chunk : Chunk} {chunks : List Chunk} (listed : chunk ∈ chunks) :
    (chunkFaces chunk).length ≤ (chunksFaces chunks).length := by
  rw [chunksFaces_eq]
  exact (List.sublist_flatten_of_mem (List.mem_map_of_mem listed)).length_le

/-- The spans of a chunk are among those of all. -/
theorem mem_spansOfChunks {chunk : Chunk} {chunks : List Chunk} (listed : chunk ∈ chunks)
    {s : Option Span} (inside : s ∈ chunk.spans) : s ∈ spansOfChunks chunks := by
  induction chunks with
  | nil => exact absurd listed List.not_mem_nil
  | cons first chunks ih =>
    rw [spansOfChunks, List.mem_append]
    rcases List.mem_cons.1 listed with rfl | listed
    · exact .inl inside
    · exact .inr (ih listed)

/-- Before a chunk the loop goes on. -/
theorem bodyStep_goesOn {rules : Rules} {block : OpenBlock} {chunks : List Chunk}
    {faces : List Face} (begins : BeginsChunk faces) (shows : c.Shows faces)
    {good : List Chunk ⊕ List Chunk → Cursor → Prop}
    (then_ : Ends rules.chunk o c (fun chunk => good (.inl (chunks ++ [chunk]))) Never) :
    Ends (bodyStep rules block chunks) o c good Never := by
  obtain ⟨x, more, rfl, begins⟩ := begins
  have going : c.token.isEof = false := by
    refine Token.isEof_of_ne (shows.kind ▸ ?_)
    rcases begins with ⟨text, kind⟩ | kind | ⟨kind, -⟩ <;> simp [kind]
  have open_ : c.token.isMarker .closerOpen = false := by
    unfold Token.isMarker
    rw [shows.kind]
    rcases begins with ⟨text, kind⟩ | kind | ⟨kind, -⟩ <;> simp [kind]
  simp only [bodyStep, ends_bind, ends_current, going, open_, Bool.false_eq_true, if_false]
  split
  · next branching =>
    obtain ⟨-, command⟩ := (Bool.and_eq_true _ _).mp branching
    obtain ⟨-, y, others, rfl, other⟩ : x.kind = .marker .commandOpen ∧
        ∃ y others, more = y :: others ∧ y.kind ≠ .keyword .else := by
      unfold Token.isMarker at command
      rw [shows.kind] at command
      rcases begins with ⟨text, kind⟩ | kind | begins
      · simp [kind] at command
      · simp [kind] at command
      · exact begins
    rw [ends_bind]
    refine following_shown shows fun token kind => ?_
    have other : token.isKeyword .else = false := isKeyword_of_ne (kind ▸ other)
    simp only [other, Bool.false_eq_true, if_false, ends_bind, ends_pure]
    exact then_
  · simp only [ends_bind, ends_pure]
    exact then_

/-- At the end of a block the loop ends. -/
theorem bodyStep_stops {rules : Rules} {block : OpenBlock} {chunks : List Chunk}
    {faces : List Face} (ends : EndsBlock block.branches faces) (shows : c.Shows faces) :
    Ends (bodyStep rules block chunks) o c
      (fun outcome c' => outcome = .inr chunks ∧ c'.Shows faces) Never := by
  obtain ⟨x, more, rfl, closer | ⟨branching, command, y, others, rfl, kind⟩⟩ := ends
  · have here : c.token.kind = .marker .closerOpen := shows.kind.trans closer
    simp only [bodyStep, ends_bind, ends_current, Token.isEof, Token.isMarker, here,
      Bool.false_eq_true, if_false, decide_true, if_true, ends_pure]
    exact ⟨trivial, shows⟩
  · have here : c.token.kind = .marker .commandOpen := shows.kind.trans command
    have other : c.token.isMarker .closerOpen = false := by simp [Token.isMarker, here]
    have here : c.token.isMarker .commandOpen = true := by simp [Token.isMarker, here]
    have going : c.token.isEof = false := Token.isEof_of_ne (by simp [shows.kind, command])
    simp only [bodyStep, ends_bind, ends_current, going, other, here, branching, Bool.and_true,
      Bool.false_eq_true, if_false, if_true]
    refine following_shown shows fun token same => ?_
    have else_ : token.isKeyword .else = true := by simp [Token.isKeyword, same, kind]
    simp only [else_, if_true, ends_pure]
    exact ⟨trivial, shows⟩

/-- What is known of the chunks of a block, and what is to be shown of them. -/
structure BodyFine (o : Options) (chunks : List Chunk) : Prop where
  reads : ∀ chunk ∈ chunks, ChunkReads o chunk
  faithful : Everywhere Faithful (partsOfChunks chunks)
  located : ∀ s ∈ spansOfChunks chunks, s.isSome = true

/-- Chunks are read back by a loop that goes on before each and stops behind the last. -/
theorem chunks_shown {step : List Chunk → Parser (List Chunk ⊕ List Chunk)} {chunks : List Chunk}
    (fine : BodyFine o chunks) {n : Nat} (room : (chunksFaces chunks).length ≤ n)
    (goesOn : ∀ done faces c, BeginsChunk faces → c.Shows faces →
      ∀ good : List Chunk ⊕ List Chunk → Cursor → Prop,
        Ends (Parser.chunk (.upTo n)) o c (fun chunk => good (.inl (done ++ [chunk]))) Never →
          Ends (step done) o c good Never)
    (stops : ∀ done c, c.Shows rest →
      Ends (step done) o c (fun outcome c' => outcome = .inr done ∧ c'.Shows rest) Never)
    (some_ : rest ≠ []) (shows : c.Shows (chunksFaces chunks ++ rest))
    {good : List Chunk → Cursor → Prop}
    (then_ : ∀ results c', results.map (·.outline o.positions) = chunks.map (·.outline o.positions) →
      c'.Shows rest → good results c') :
    Ends (Parser.loop step []) o c good Never := by
  have nonempty (chunk : Chunk) : chunkFaces chunk ≠ [] := by
    obtain ⟨x, more, same, -⟩ := chunkFaces_begins chunk
    simp [same]
  have each (chunk : Chunk) (listed : chunk ∈ chunks) (done : List Chunk) (more : List Face)
      (c : Cursor) (_ : True) (next : more ≠ []) (shows : c.Shows (chunkFaces chunk ++ more)) :
      Ends (step done) o c
        (fun outcome c' => ∃ result, outcome = .inl (done ++ [result]) ∧
          result.outline o.positions = chunk.outline o.positions ∧ c'.Shows more) Never := by
    refine goesOn done _ c ((chunkFaces_begins chunk).append more) shows _ ?_
    have fits := length_le_chunksFaces listed
    refine (fine.reads chunk listed (everywhere_chunks.1 fine.faithful chunk listed)
      (fun s inside => fine.located s (mem_spansOfChunks listed inside)) n more c (by omega) next
      shows).mono ?_ fun _ bad => bad
    rintro result c' ⟨same, shows⟩
    exact ⟨result, rfl, same, shows⟩
  rw [chunksFaces_eq] at shows
  refine loop_shown shows fun k enough => ?_
  refine (gather_shown (fun _ => True) (fun _ _ => trivial) nonempty chunks each
    (fun chunk _ more => by simp [nonempty chunk]) some_ some_ (fun done c _ shows => stops done c shows)
    [] k c trivial shows enough).mono ?_ fun _ bad => bad
  rintro results c' ⟨more, rfl, same, shows⟩
  exact then_ _ c' (by simpa using same) shows

/-- The chunks of a block are read back. -/
theorem blockBody_shown (block : OpenBlock) {chunks : List Chunk} (fine : BodyFine o chunks)
    {n : Nat} (room : (chunksFaces chunks).length ≤ n) (ends : EndsBlock block.branches rest)
    (shows : c.Shows (chunksFaces chunks ++ rest)) {good : List Chunk → Cursor → Prop}
    (then_ : ∀ results c', results.map (·.outline o.positions) = chunks.map (·.outline o.positions) →
      c'.Shows rest → good results c') :
    Ends (Parser.blockBody (.upTo (n + 1)) block.name block.opening block.branches) o c good Never := by
  have some_ : rest ≠ [] := by
    obtain ⟨x, more, rfl, -⟩ := ends
    simp
  rw [blockBody_eq]
  refine chunks_shown fine room (fun done faces c begins shows good ends => ?_)
    (fun done c => bodyStep_stops ends) some_ shows then_
  refine bodyStep_goesOn begins shows ?_
  rw [upTo_chunk]
  exact ends

/-- The marker that closes a block. -/
theorem closeBlock_shown {face : Face} {name : String} {opening : Span}
    (named : ∀ token : Token, token.kind = face.kind → Parser.spells token name = true)
    (some_ : rest ≠ []) (shows : c.Shows (closerFaces face ++ rest))
    {good : Unit → Cursor → Prop} (then_ : ∀ c', c'.Shows rest → good () c') :
    Ends (Parser.closeBlock name opening) o c good Never := by
  simp only [closerFaces, List.cons_append, List.nil_append] at shows
  simp only [Parser.closeBlock, ends_bind, ends_current]
  refine expectMarker_shown (by simp) shows rfl fun c shows => ?_
  simp only [named c.token shows.kind, Bool.not_true, Bool.false_eq_true, if_false, ends_bind]
  refine advance_shown (by simp) shows fun c shows => ?_
  exact expectMarker_shown some_ shows rfl then_

end

end Stencil.Grammar
