import Stencil.Proofs.Parsing.Chunks
import Stencil.Proofs.Parsing.Scripts
import Stencil.Proofs.Printing.ChunkText
/-!
# Reading blocks and templates

With the chunks inside them, iterations and conditionals are read back, and so is every faithful
chunk (`reading_chunkSteps`). A template is read back chunk by chunk, to the end of its tokens; and as
its canonical text is read as these tokens, it is read back from that (`parseTemplate_printed`).
-/

set_option autoImplicit false

namespace Stencil.Grammar

open Stencil.Lexing (Face markerFace textFace endOfText)
open Stencil.Print
open Stencil.Syntax
open Stencil.Text (Position Span)

section

variable {o : Options} {rest : List Face} {x : Face} {c : Cursor} {collection : Expr} {n : Nat}

/-- A token that begins an expression is no marker. -/
theorem isMarker_of_starts {token : Token} {marker : Marker}
    (starts : startsExpression token.kind = true) : token.isMarker marker = false := by
  unfold Token.isMarker
  split
  · next kind => simp [kind, startsExpression] at starts
  · rfl

/-! ## Iterations -/

/-- The names that an iteration binds are those that were listed. -/
theorem bindingNames_shown (listSpan : Span) {names : List String} {items : List Expr}
    (erased : items.map Expr.eraseSpans = names.map (.name none))
    {good : List String → Cursor → Prop} {bad : Failure → Prop} (then_ : good names c) :
    Ends (Parser.bindingNames listSpan items) o c good bad := by
  induction names generalizing items good with
  | nil =>
    obtain rfl := List.map_eq_nil_iff.1 erased
    exact then_
  | cons name names ih =>
    cases items with
    | nil => exact absurd erased (by simp)
    | cons item items =>
      obtain ⟨first, others⟩ := List.cons.inj erased
      cases item with
      | name span same =>
        obtain rfl : same = name := by simpa using first
        simp only [Parser.bindingNames, ends_bind, ends_pure]
        exact ih others then_
      | _ => exact absurd first (by simp)

/-- The head of an iteration that lists names. -/
theorem eachHead_names (lenient : o.strict = false) {names : List String} (some_ : names ≠ [])
    (fine : ∀ name ∈ names, IsFineName name) (readable : Readable o collection)
    (room : (nameFaces names).length + (exprFaces sequenceLevel collection).length ≤ n)
    (ends : binds false x.kind = none)
    (shows : c.Shows (enclosed (nameFaces names) ++ (exprFaces sequenceLevel collection ++ x :: rest)))
    {good : Option (List String) × Expr → Cursor → Prop}
    (then_ : ∀ result c', result.eraseSpans = collection.eraseSpans → c'.Shows (x :: rest) →
      good (some names, result) c') :
    Ends (Parser.eachHead (.upTo (n + 1))) o c good Never := by
  have paren : c.token.isPunctuation '(' = true := by
    have kind : c.token.kind = .punctuation '(' := shows.kind
    simp [Token.isPunctuation, kind]
  obtain ⟨y, more, begins, starts, -⟩ := exprFaces_opens collection sequenceLevel
  simp only [enclosed, List.cons_append, List.append_assoc, List.nil_append] at shows
  simp only [Parser.eachHead, ends_bind, ends_current, ends_atPunctuation, paren, if_true]
  refine advance_shown (by simp) shows fun c shows => ?_
  rw [begins, List.cons_append] at shows
  have each (name : String) (listed : name ∈ names) : ∃ bareIn,
      ReadsAssignment o bareIn [named name] (.name none name) :=
    ⟨_, (exprReads lenient (.name none name)
      ((everywhere_cons _ _).2 ⟨fine name listed, everywhere_nil⟩)).assignment⟩
  refine expressionItems_shown (fun name _ => exprFaces_opens (.name none name) assignmentLevel) each
    (by decide) _ _ (show (nameFaces names).length ≤ n by omega) shows fun items c erased shows => ?_
  have other : c.token.isMarker .commandClose = false :=
    isMarker_of_starts (shows.kind ▸ starts)
  simp only [ends_atMarker, other, Bool.false_eq_true, if_false, ends_bind]
  refine bindingNames_shown _ erased ?_
  rw [← List.cons_append, ← begins] at shows
  refine expression_shown readable (by omega) ends shows fun result c erased shows => ?_
  have full : names.isEmpty = false := List.isEmpty_eq_false_iff.2 some_
  simp only [full, Bool.false_eq_true, if_false, ends_pure]
  exact then_ result c erased shows

/-- The head of an iteration over a regular expression, which stands in parentheses. -/
theorem eachHead_regexp (span : Option Span) (pattern flags : String)
    (room : 1 ≤ n) (shows : c.Shows (exprFaces sequenceLevel (.regexp span pattern flags)
      ++ markerFace none .commandClose :: rest))
    {good : Option (List String) × Expr → Cursor → Prop}
    (then_ : ∀ result c', result.eraseSpans = (Expr.regexp span pattern flags).eraseSpans →
      c'.Shows (markerFace none .commandClose :: rest) → good (none, result) c') :
    Ends (Parser.eachHead (.upTo (n + 1))) o c good Never := by
  have paren : c.token.isPunctuation '(' = true := by
    have kind : c.token.kind = .punctuation '(' := shows.kind
    simp [Token.isPunctuation, kind]
  simp only [Parser.eachHead, ends_bind, ends_current, ends_atPunctuation, paren, if_true]
  refine advance_shown (by simp) shows fun c shows => ?_
  have opens : ∀ u ∈ [()], Opens ([{ kind := .regexp pattern flags }] : List Face) :=
    fun _ _ => opens_single rfl
  have reads : ∀ u ∈ [()], ∃ bareIn, ReadsAssignment o bareIn [{ kind := .regexp pattern flags }]
      (.regexp span pattern flags) := fun _ _ => ⟨false, assignment_regexp span pattern flags⟩
  refine expressionItems_shown opens reads
    (by decide) _ _ room shows fun items c erased shows => ?_
  have marker : c.token.isMarker .commandClose = true := by
    have kind : c.token.kind = .marker .commandClose := shows.kind
    simp [Token.isMarker, kind]
  obtain ⟨result, rfl⟩ := List.length_eq_one_iff.1 (by simpa using congrArg List.length erased)
  simp only [ends_atMarker, marker, if_true, ends_pure]
  exact then_ result c (by simpa using erased) shows

/-- The head of an iteration that lists no names. -/
theorem eachHead_bare (faithful : Everywhere Faithful collection.parts) (readable : Readable o collection)
    (bare : beginsWithParenthesis (ofExpr collection) → IsRegexp collection)
    (room : (exprFaces sequenceLevel collection).length ≤ n)
    (shows : c.Shows (exprFaces sequenceLevel collection ++ markerFace none .commandClose :: rest))
    {good : Option (List String) × Expr → Cursor → Prop}
    (then_ : ∀ result c', result.eraseSpans = collection.eraseSpans →
      c'.Shows (markerFace none .commandClose :: rest) → good (none, result) c') :
    Ends (Parser.eachHead (.upTo (n + 1))) o c good Never := by
  by_cases wrapped : beginsWithParenthesis (ofExpr collection)
  · cases collection with
    | regexp span pattern flags =>
      exact eachHead_regexp span pattern flags (Nat.le_trans (Nat.le_add_left 1 2) room) shows then_
    | _ => exact (bare wrapped).elim
  · obtain ⟨y, more, begins, noParen⟩ := exprFaces_bareStart faithful wrapped
    have other : c.token.isPunctuation '(' = false := by
      rw [begins] at shows
      exact isPunctuation_of_ne (shows.kind ▸ noParen)
    simp only [Parser.eachHead, ends_bind, ends_current, ends_atPunctuation, other,
      Bool.false_eq_true, if_false, ends_pure]
    exact expression_shown readable room rfl shows then_

/-- The head of an iteration. -/
theorem eachHead_shown (lenient : o.strict = false) {s : Option Span} {bindings : Option (List String)}
    {body : List Chunk} (fine : FaithfulChunk (.each s bindings collection body))
    (faithful : Everywhere Faithful collection.parts)
    (room : (bindingFaces bindings).length + (exprFaces sequenceLevel collection).length ≤ n)
    (shows : c.Shows (bindingFaces bindings
      ++ (exprFaces sequenceLevel collection ++ markerFace none .commandClose :: rest)))
    {good : Option (List String) × Expr → Cursor → Prop}
    (then_ : ∀ result c', result.eraseSpans = collection.eraseSpans →
      c'.Shows (markerFace none .commandClose :: rest) → good (bindings, result) c') :
    Ends (Parser.eachHead (.upTo (n + 1))) o c good Never := by
  have readable := exprReads lenient collection faithful
  cases bindings with
  | none =>
    exact eachHead_bare faithful readable fine (by simpa [bindingFaces] using room) shows then_
  | some names =>
    simp only [bindingFaces, enclosed, List.length_cons, List.length_append] at room
    exact eachHead_names lenient fine.1 fine.2 readable (by omega) rfl shows then_

/-- An iteration. -/
theorem reads_each (lenient : o.strict = false) (s : Option Span) (bindings : Option (List String))
    (collection : Expr) (body : List Chunk) (ih : ∀ c ∈ body, ChunkReads o c) :
    ChunkReads o (.each s bindings collection body) := by
  intro faithful located n rest c room some_ shows
  obtain ⟨span, rfl⟩ := Option.isSome_iff_exists.1
    (located s (span_mem_spans (.each s bindings collection body)))
  rw [Chunk.parts, everywhere_cons, everywhere_append] at faithful
  simp only [chunkFaces, commandFaces, closerFaces, List.length_cons, List.length_append] at room
  obtain ⟨n, rfl⟩ := Nat.exists_eq_succ_of_ne_zero (n := n) (by omega)
  simp only [chunkFaces, List.append_assoc] at shows
  refine command_shown shows fun opening c start shows => ?_
  have kind : c.token.kind = .name "each" := shows.kind
  simp only [Parser.command, ends_bind, ends_currentKind, kind]
  simp only [List.cons_append, List.append_assoc] at shows
  refine advance_shown (by simp) shows fun c shows => ?_
  simp only [Parser.eachBlock, ends_bind]
  refine eachHead_shown lenient faithful.1 faithful.2.1 (by omega) shows fun result c erased shows => ?_
  refine expectMarker_shown (by simp [closerFaces]) shows rfl fun c shows => ?_
  have fine : BodyFine o body := ⟨ih, faithful.2.2, fun s listed => located s (by simp [listed])⟩
  refine blockBody_shown (.each opening) fine (by omega) ⟨_, _, rfl, .inl rfl⟩ shows fun results c same shows => ?_
  refine closeBlock_shown (fun token kind => ?_) some_ shows fun c shows => ?_
  · simp [Parser.spells, kind, named]
  obtain ⟨erasedBody, spans⟩ := of_outlines same
  simp only [ends_spanFrom, ends_pure, start]
  refine ⟨?_, shows⟩
  rw [eraseChunks_eq, eraseChunks_eq] at erasedBody
  simp [Chunk.outline, beginning_spanAt, erased, erasedBody, spans]

/-! ## Conditionals -/

/-- Default branches with the same outlines are the same without their spans, and their chunks begin
at the same places. -/
theorem of_outlinesOptional {keep : Bool} {branch other : Option (List Chunk)}
    (same : branch.map (List.map (·.outline keep)) = other.map (List.map (·.outline keep))) :
    branch.map eraseChunks = other.map eraseChunks ∧
      ((branch.map spansOfChunks).getD []).map (beginning keep) =
        ((other.map spansOfChunks).getD []).map (beginning keep) := by
  cases branch with
  | none =>
    obtain rfl := Option.map_eq_none_iff.1 same.symm
    exact ⟨rfl, rfl⟩
  | some chunks =>
    cases other with
    | none => exact absurd same (by simp)
    | some others =>
      obtain ⟨erased, spans⟩ := of_outlines (Option.some.inj same)
      exact ⟨congrArg some erased, spans⟩

/-- Behind the chunks of a branch there is a further branch or the closer. -/
theorem branches_end (branches : List ElseIf) (elseBranch : Option (List Chunk)) (rest : List Face) :
    EndsBlock true (elseIfsFaces branches
      ++ (elseFaces elseBranch ++ (closerFaces (keyword .if) ++ rest))) := by
  cases branches with
  | cons branch branches =>
    obtain ⟨condition, body⟩ := branch
    exact ⟨_, _, rfl, .inr ⟨rfl, rfl, _, _, rfl, rfl⟩⟩
  | nil =>
    cases elseBranch with
    | none => exact ⟨_, _, rfl, .inl rfl⟩
    | some branch => exact ⟨_, _, rfl, .inr ⟨rfl, rfl, _, _, rfl, rfl⟩⟩

/-- The spans of the chunks of a conditional branch are among those of all. -/
theorem mem_spansOfElseIfs {branches : List ElseIf} {condition : Expr} {body : List Chunk}
    (listed : .mk condition body ∈ branches) {s : Option Span} (inside : s ∈ spansOfChunks body) :
    s ∈ spansOfElseIfs branches := by
  induction branches with
  | nil => exact absurd listed List.not_mem_nil
  | cons branch branches ih =>
    obtain ⟨first, others⟩ := branch
    rw [spansOfElseIfs, List.mem_append]
    rcases List.mem_cons.1 listed with same | listed
    · obtain ⟨-, rfl⟩ := ElseIf.mk.inj same
      exact .inl inside
    · exact .inr (ih listed)

/-- What is known of conditional branches, and what is to be shown of their chunks. -/
structure BranchesFine (o : Options) (branches : List ElseIf) : Prop where
  bodies : ∀ condition body, .mk condition body ∈ branches → BodyFine o body
  readable : ∀ condition body, .mk condition body ∈ branches → Readable o condition

/-- Everything is known of the conditional branches of a faithful conditional. -/
theorem branchesFine (lenient : o.strict = false) {branches : List ElseIf}
    (reads : ∀ condition body, .mk condition body ∈ branches → ∀ c ∈ body, ChunkReads o c)
    (faithful : Everywhere Faithful (partsOfElseIfs branches))
    (located : ∀ s ∈ spansOfElseIfs branches, s.isSome = true) : BranchesFine o branches := by
  have each (condition : Expr) (body : List Chunk) (listed : .mk condition body ∈ branches) :
      Everywhere Faithful condition.parts ∧ Everywhere Faithful (partsOfChunks body) := by
    have fine := everywhere_elseIfs.1 faithful _ listed
    rw [ElseIf.parts, everywhere_cons, everywhere_append] at fine
    exact fine.2
  refine ⟨fun condition body listed => ⟨reads condition body listed, (each condition body listed).2,
    fun s inside => located s (mem_spansOfElseIfs listed inside)⟩,
    fun condition body listed => exprReads lenient condition (each condition body listed).1⟩

/-- A marker that opens a branch of a conditional, up to its name. -/
theorem branchStep_shown {rules : Rules} {opening : Span} {faces : List Face} (some_ : faces ≠ [])
    {state : List ElseIf × Option (List Chunk)}
    (shows : c.Shows (markerFace none .commandOpen :: keyword .else :: faces))
    {good : (List ElseIf × Option (List Chunk)) ⊕ (List ElseIf × Option (List Chunk)) →
      Cursor → Prop}
    (then_ : ∀ elseSpan c', c'.Shows faces →
      Ends (branchBody rules opening elseSpan state) o c' good Never) :
    Ends (branchStep rules opening state) o c good Never := by
  have marker : c.token.isMarker .commandOpen = true := by
    have kind : c.token.kind = .marker .commandOpen := shows.kind
    simp [Token.isMarker, kind]
  simp only [branchStep, ends_bind, ends_atMarker, marker, Bool.not_true, Bool.false_eq_true, if_false]
  refine advance_shown (by simp) shows fun c shows => ?_
  simp only [ends_current]
  exact advance_shown some_ shows fun c shows => then_ _ c shows

/-- A conditional branch. -/
theorem elseIf_shown {opening : Span} {condition : Expr} {body : List Chunk}
    (readable : Readable o condition) (fine : BodyFine o body)
    (room : (exprFaces sequenceLevel condition).length + (chunksFaces body).length ≤ n)
    (ends : EndsBlock true rest)
    (shows : c.Shows (commandFaces none (keyword .else :: exprFaces sequenceLevel condition)
      ++ (chunksFaces body ++ rest))) {done : List ElseIf} :
    Ends (branchStep (.upTo (n + 1)) opening (done, none)) o c
      (fun outcome c' => ∃ branch, outcome = .inl (done ++ [branch], none) ∧
        branch.outline o.positions = (ElseIf.mk condition body).outline o.positions ∧ c'.Shows rest)
      Never := by
  simp only [commandFaces, List.cons_append, List.append_assoc, List.nil_append] at shows
  refine branchStep_shown (by simp) shows fun elseSpan c shows => ?_
  obtain ⟨y, more, begins, starts, -⟩ := exprFaces_opens condition sequenceLevel
  have going : c.token.isMarker .commandClose = false := by
    rw [begins] at shows
    exact isMarker_of_starts (shows.kind ▸ starts)
  simp only [branchBody, ends_bind, ends_atMarker, going, Bool.false_eq_true, if_false,
    Option.isSome_none]
  have some_ : chunksFaces body ++ rest ≠ [] := by
    obtain ⟨x, more, rfl, -⟩ := ends
    simp
  refine commandExpression_shown readable (by omega) some_ shows fun result c erased shows => ?_
  refine blockBody_shown (.cond opening false) fine (by omega) ends shows
    fun results c same shows => ?_
  obtain ⟨erasedBody, spans⟩ := of_outlines same
  refine ⟨_, rfl, ?_, shows⟩
  rw [eraseChunks_eq, eraseChunks_eq] at erasedBody
  simp [ElseIf.outline, ElseIf.eraseSpans, erased, erasedBody, spans]

/-- The default branch. -/
theorem default_shown {opening : Span} {body : List Chunk} (fine : BodyFine o body)
    (room : (chunksFaces body).length ≤ n) (ends : EndsBlock true rest)
    (shows : c.Shows (commandFaces none [keyword .else] ++ (chunksFaces body ++ rest)))
    {done : List ElseIf} :
    Ends (branchStep (.upTo (n + 1)) opening (done, none)) o c
      (fun outcome c' => ∃ results, outcome = .inl (done, some results) ∧
        results.map (·.outline o.positions) = body.map (·.outline o.positions) ∧ c'.Shows rest)
      Never := by
  simp only [commandFaces, List.cons_append, List.nil_append] at shows
  have some_ : chunksFaces body ++ rest ≠ [] := by
    obtain ⟨x, more, rfl, -⟩ := ends
    simp
  refine branchStep_shown (by simp) shows fun elseSpan c shows => ?_
  have marker : c.token.isMarker .commandClose = true := by
    have kind : c.token.kind = .marker .commandClose := shows.kind
    simp [Token.isMarker, kind]
  simp only [branchBody, ends_bind, ends_atMarker, marker, Bool.false_eq_true, if_false, if_true,
    Option.isSome_none]
  refine advance_shown some_ shows fun c shows => ?_
  refine blockBody_shown (.cond opening false) fine room ends shows fun results c same shows => ?_
  exact ⟨_, rfl, same, shows⟩

/-- The branches of a conditional. -/
theorem branches_shown {opening : Span} {elseBranch : Option (List Chunk)}
    (other : ∀ body, elseBranch = some body → BodyFine o body) :
    ∀ (branches : List ElseIf), BranchesFine o branches → ∀ (done : List ElseIf) (k : Nat) (c : Cursor),
      (elseIfsFaces branches).length + (elseFaces elseBranch).length ≤ n →
      c.Shows (elseIfsFaces branches
        ++ (elseFaces elseBranch ++ (closerFaces (keyword .if) ++ rest))) →
      (elseIfsFaces branches
        ++ (elseFaces elseBranch ++ (closerFaces (keyword .if) ++ rest))).length ≤ k →
      Ends (Parser.loopWithin (branchStep (.upTo (n + 1)) opening) k (done, none)) o c
        (fun outcome c' => ∃ results default_, outcome = (done ++ results, default_) ∧
          results.map (·.outline o.positions) = branches.map (·.outline o.positions) ∧
          default_.map (List.map (·.outline o.positions)) =
            elseBranch.map (List.map (·.outline o.positions)) ∧
          c'.Shows (closerFaces (keyword .if) ++ rest)) Never := by
  have stops (state : List ElseIf × Option (List Chunk)) (k : Nat) (c : Cursor)
      (shows : c.Shows (closerFaces (keyword .if) ++ rest))
      (room : (closerFaces (keyword .if) ++ rest).length ≤ k) :
      Ends (Parser.loopWithin (branchStep (.upTo (n + 1)) opening) k state) o c
        (fun outcome c' => outcome = state ∧ c'.Shows (closerFaces (keyword .if) ++ rest)) Never := by
    obtain ⟨k, rfl⟩ := Nat.exists_eq_succ_of_ne_zero (n := k) (by simp [closerFaces] at room; omega)
    have other : c.token.isMarker .commandOpen = false := by
      have kind : c.token.kind = .marker .closerOpen := shows.kind
      simp [Token.isMarker, kind]
    rw [ends_loopWithin]
    simp only [branchStep, ends_bind, ends_atMarker, other, Bool.not_false, if_true, ends_pure]
    exact ⟨trivial, shows⟩
  intro branches
  induction branches with
  | nil =>
    intro fine done k c room shows enough
    simp only [elseIfsFaces, List.nil_append, List.length_nil] at room shows enough
    cases elseBranch with
    | none =>
      refine (stops _ k c shows enough).mono ?_ fun _ bad => bad
      rintro _ c' ⟨rfl, shows⟩
      exact ⟨[], none, by simp, rfl, rfl, shows⟩
    | some body =>
      simp only [elseFaces, List.append_assoc] at shows
      simp only [elseFaces, List.length_append] at room enough
      obtain ⟨k, rfl⟩ := Nat.exists_eq_succ_of_ne_zero (n := k) (by simp [commandFaces] at enough; omega)
      rw [ends_loopWithin]
      refine (default_shown (other body rfl) (by omega) (branches_end [] none rest) shows).mono ?_
        fun _ bad => bad
      rintro _ c' ⟨results, rfl, same, shows⟩
      refine (stops _ k c' shows (by simp [commandFaces] at enough ⊢; omega)).mono ?_ fun _ bad => bad
      rintro _ c' ⟨rfl, shows⟩
      exact ⟨[], some results, by simp, rfl, by simp [same], shows⟩
  | cons branch branches ih =>
    intro fine done k c room shows enough
    obtain ⟨condition, body⟩ := branch
    simp only [elseIfsFaces, List.append_assoc] at shows
    simp only [elseIfsFaces, commandFaces, List.length_append, List.length_cons] at room enough
    obtain ⟨k, rfl⟩ := Nat.exists_eq_succ_of_ne_zero (n := k) (by omega)
    rw [ends_loopWithin]
    refine (elseIf_shown (fine.readable condition body (by simp)) (fine.bodies condition body (by simp))
      (by omega)
      (branches_end branches elseBranch rest) shows).mono ?_ fun _ bad => bad
    rintro _ c' ⟨result, rfl, same, shows⟩
    have others : BranchesFine o branches :=
      ⟨fun condition body listed => fine.bodies _ _ (List.mem_cons_of_mem _ listed),
        fun condition body listed => fine.readable _ _ (List.mem_cons_of_mem _ listed)⟩
    refine (ih others (done ++ [result]) k c' (by omega) shows
      (by simp only [List.length_append]; omega)).mono ?_ fun _ bad => bad
    rintro _ c' ⟨results, default_, rfl, sames, sameDefault, shows⟩
    exact ⟨result :: results, default_, by simp, by simp [same, sames], sameDefault, shows⟩

/-- A conditional. -/
theorem reads_conditionalChunk (lenient : o.strict = false) (s : Option Span) (condition : Expr)
    (thenBranch : List Chunk) (elseIfs : List ElseIf) (elseBranch : Option (List Chunk))
    (ih : ∀ c ∈ thenBranch, ChunkReads o c)
    (ih' : ∀ condition body, .mk condition body ∈ elseIfs → ∀ c ∈ body, ChunkReads o c)
    (ih'' : ∀ body, elseBranch = some body → ∀ c ∈ body, ChunkReads o c) :
    ChunkReads o (.ifElse s condition thenBranch elseIfs elseBranch) := by
  intro faithful located n rest c room some_ shows
  obtain ⟨span, rfl⟩ := Option.isSome_iff_exists.1
    (located s (span_mem_spans (.ifElse s condition thenBranch elseIfs elseBranch)))
  obtain ⟨-, tested, fineThen, fineElseIfs, fineElse⟩ := everywhere_conditional.1 faithful
  rw [spans_ifElse] at located
  simp only [chunkFaces_ifElse, commandFaces, closerFaces, List.length_cons, List.length_append] at room
  obtain ⟨n, rfl⟩ := Nat.exists_eq_succ_of_ne_zero (n := n) (by omega)
  simp only [chunkFaces_ifElse, List.append_assoc] at shows
  refine command_shown shows fun opening c start shows => ?_
  have kind : c.token.kind = .keyword .if := shows.kind
  simp only [Parser.command, ends_bind, ends_currentKind, kind]
  simp only [List.cons_append] at shows
  refine advance_shown (by simp) shows fun c shows => ?_
  simp only [Parser.ifBlock, ends_bind]
  refine commandExpression_shown (exprReads lenient condition tested) (by omega)
    (by simp [closerFaces]) shows fun result c erased shows => ?_
  have body : BodyFine o thenBranch := ⟨ih, fineThen, fun s listed => located s (by simp [listed])⟩
  refine blockBody_shown (.cond opening false) body (by omega) (branches_end _ _ _) shows
    fun results c same shows => ?_
  rw [elseBranches_eq]
  have branches : BranchesFine o elseIfs :=
    branchesFine lenient ih' fineElseIfs fun s listed => located s (by simp [listed])
  have other : ∀ body, elseBranch = some body → BodyFine o body := by
    rintro body rfl
    exact ⟨ih'' body rfl, fineElse body rfl, fun s listed => located s (by simp [listed])⟩
  refine loop_shown shows fun k enough => ?_
  refine (branches_shown other elseIfs branches [] k c (by omega) shows enough).mono ?_ fun _ bad => bad
  rintro _ c ⟨others, default_, rfl, sames, sameDefault, shows⟩
  refine closeBlock_shown (fun token kind => ?_) some_ shows fun c shows => ?_
  · simp [Parser.spells, kind, keyword, Keyword.spelling]
  simp only [ends_spanFrom, ends_pure, start]
  refine ⟨?_, shows⟩
  obtain ⟨erasedThen, spansThen⟩ := of_outlines same
  obtain ⟨erasedOthers, spansOthers⟩ := of_outlinesElseIf sames
  obtain ⟨erasedElse, spansElse⟩ := of_outlinesOptional sameDefault
  rw [Chunk.outline, Chunk.outline, eraseSpans_ifElse, eraseSpans_ifElse, spans_ifElse, spans_ifElse]
  simp only [List.nil_append, List.map_cons, List.map_append, beginning_spanAt, erased, erasedThen,
    erasedOthers, erasedElse, spansThen, spansOthers, spansElse]

/-! ## Templates -/

/-- Every faithful chunk is read back. -/
theorem reading_chunkSteps (lenient : o.strict = false) : ChunkInduction (ChunkReads o) where
  html := reads_html
  echo := reads_echo lenient
  inclusion := reads_inclusion lenient
  each := reads_each lenient
  ifElse := reads_conditionalChunk lenient
  rawHtml := reads_rawHtml lenient
  layout := reads_layout lenient
  var := reads_var lenient

/-- The chunks of a template are read back, each where it begins. -/
theorem template_shown (lenient : o.strict = false) {chunks : List Chunk}
    (faithful : Everywhere Faithful (partsOfChunks chunks))
    (located : ∀ s ∈ spansOfChunks chunks, s.isSome = true) (room : (chunksFaces chunks).length ≤ n)
    (shows : c.Shows (chunksFaces chunks ++ [endOfText])) :
    Ends (Parser.template (.upTo n)) o c
      (fun result _ => eraseChunks result.chunks = eraseChunks chunks ∧
        (spansOfChunks result.chunks).map (beginning o.positions) =
          (spansOfChunks chunks).map (beginning o.positions)) Never := by
  have fine : BodyFine o chunks :=
    ⟨fun c _ => (reading_chunkSteps lenient).chunk c, faithful, located⟩
  rw [template_eq, ends_bind]
  refine chunks_shown fine room (fun done faces c begins shows good ends => ?_) (fun done c shows => ?_)
    (by simp) shows fun results c' same _ => of_outlines same
  · have going : c.token.isEof = false := by
      obtain ⟨x, more, rfl, html | echo | ⟨command, -⟩⟩ := begins
      · obtain ⟨text, kind⟩ := html
        exact Token.isEof_of_ne (by simp [shows.kind, kind])
      · exact Token.isEof_of_ne (by simp [shows.kind, echo])
      · exact Token.isEof_of_ne (by simp [shows.kind, command])
    simp only [templateStep, ends_bind, ends_current, going, Bool.false_eq_true, if_false]
    exact ends
  · have kind : c.token.kind = .eof := shows.kind
    simp only [templateStep, ends_bind, ends_current, Token.isEof, kind, if_true, ends_pure]
    exact ⟨trivial, shows⟩

end

end Stencil.Grammar

namespace Stencil.Print

open Stencil.Lexing
open Stencil.Syntax
open Stencil.Text

/-! ## The text of a template -/

/-- The text of a template does not begin with a byte order mark. -/
def Unmarked (chunks : List Chunk) : Prop :=
  ∀ s text rest, chunks = .html s text :: rest → text.toList.head? ≠ some '\ufeff'

/-- Whether the first chunk is a text that begins with a byte order mark. -/
def beginsMarked : List Chunk → Bool
  | .html _ text :: _ => text.toList.head? = some '\ufeff'
  | _ => false

theorem beginsMarked_eq_false {chunks : List Chunk} :
    beginsMarked chunks = false ↔ Unmarked chunks := by
  unfold beginsMarked
  split
  · next s text rest =>
    rw [decide_eq_false_iff_not]
    constructor
    · rintro apart _ _ _ ⟨⟩
      exact apart
    · exact fun unmarked => unmarked s text rest rfl
  · next other => exact iff_of_true rfl fun s text rest same => absurd same (other s text rest)

instance : DecidablePred Unmarked := fun _ => decidable_of_iff _ beginsMarked_eq_false

/-- Text that begins a template begins with a byte order mark only if it holds one. -/
theorem htmlPieces_unmarked {text : String} (unmarked : text.toList.head? ≠ some '\ufeff')
    (rest after : List Char) : flatText (htmlPieces false text) ++ after ≠ '\ufeff' :: rest := by
  unfold htmlPieces
  split
  · simp
  · next plain =>
    obtain ⟨c, cs, same⟩ : ∃ c cs, text.toList = c :: cs := by
      refine List.exists_cons_of_ne_nil fun none_ => plain ?_
      simp [needsVerbatim, none_]
    rintro begins
    simp [same] at begins unmarked
    exact unmarked begins.1

/-- The text of chunks does not begin with a byte order mark if the first one is no such text. -/
theorem chunks_unmarked {chunks : List Chunk} (unmarked : Unmarked chunks) (rest : List Char) :
    flatText (chunksPieces false chunks) ≠ '\ufeff' :: rest := by
  cases chunks with
  | nil => simp [chunksPieces]
  | cons c chunks =>
    rw [chunksPieces, flatText_append]
    by_cases plain : isText c = true
    · cases c with
      | html s text =>
        rw [chunkPieces, flatText_cons]
        exact htmlPieces_unmarked (unmarked s text chunks rfl) rest _
      | _ => exact absurd plain (by simp [isText])
    · intro begins
      have marker := @chunk_begins c false (fun text => absurd text plain)
        (flatText (chunksPieces (isText c) chunks))
      rw [begins] at marker
      obtain none_ | ⟨_, same⟩ | ⟨_, same⟩ := marker.cases
      · cases none_
      · cases same
      · cases same

/-- The tokens of the text of a faithful template, with the places where its chunks begin. -/
theorem template_streams {t : Template} (faithful : Everywhere Faithful t.parts)
    (unmarked : Unmarked t.chunks) :
    ∃ located, eraseChunks located = eraseChunks t.chunks ∧
      Everywhere Faithful (partsOfChunks located) ∧
      Marked .origin (chunksPieces false t.chunks) (spansOfChunks t.chunks) (spansOfChunks located) ∧
      Streams (Lexer.ofSource true (flatText (chunksPieces false t.chunks)))
        (chunksFaces located ++ [endOfText]) := by
  obtain ⟨located, erased, fine, marked, tells⟩ :=
    told_chunks (fun c _ => told_steps.chunk c) faithful false .origin [endOfText] [] (.inl rfl)
      Tells.done
  refine ⟨located, erased, fine, marked, ?_⟩
  rw [List.append_nil] at tells
  have normal : Text.normalize (flatText (chunksPieces false t.chunks)) =
      flatText (chunksPieces false t.chunks) := by
    refine Text.normalize_of_unbroken tells.unbroken fun marked => ?_
    obtain ⟨rest, text⟩ := List.head?_eq_some_iff.1 marked
    exact chunks_unmarked unmarked rest text
  refine tells.streams _ ⟨rfl, ?_, rfl⟩
  exact normal

end Stencil.Print

namespace Stencil.Grammar

open Stencil.Lexing
open Stencil.Print
open Stencil.Syntax

/-- The canonical text of a faithful template is read back as that template, up to its spans; and where
spans are wanted, its chunks begin where the marks of the chunks stand in the text. -/
theorem parseTemplate_printed {o : Options} (lenient : o.strict = false) (style : Style)
    (t : Template) (faithful : Everywhere Faithful t.parts) (unmarked : Unmarked t.chunks) :
    ∃ result located, parseTemplate o (ofTemplate style t).code = .ok result ∧
      result.eraseSpans = t.eraseSpans ∧
      Marked .origin (chunksPieces false t.chunks) (spansOfChunks t.chunks) located ∧
      (spansOfChunks result.chunks).map (beginning o.positions) =
        located.map (beginning o.positions) := by
  obtain ⟨code, -⟩ := layOut_flat style (flat_template t.chunks false)
  obtain ⟨located, erased, fine, marked, streams⟩ := template_streams faithful unmarked
  have begins : ∀ s ∈ spansOfChunks located, s.isSome = true := by
    intro s listed
    rw [← marked.places] at listed
    obtain ⟨mark, -, rfl⟩ := List.mem_map.1 listed
    rfl
  obtain ⟨x, faces, same⟩ := List.exists_cons_of_ne_nil
    (l := chunksFaces located ++ [endOfText]) (by simp)
  have read : ∀ n c, faces.length ≤ n → c.Shows (x :: faces) →
      Ends (Parser.template (.upTo (n + 1))) o c
        (fun result _ => eraseChunks result.chunks = eraseChunks located ∧
          (spansOfChunks result.chunks).map (beginning o.positions) =
            (spansOfChunks located).map (beginning o.positions)) Never := by
    intro n c room shows
    rw [← same] at shows
    refine template_shown lenient fine begins ?_ shows
    have length := congrArg List.length same
    simp only [List.length_append, List.length_cons, List.length_nil] at length
    omega
  rw [same] at streams
  obtain ⟨result, parsed, erased', spans⟩ := run_shown streams read
  refine ⟨result, spansOfChunks located, ?_, ?_, marked, spans⟩
  · rw [parseTemplate, ofTemplate, code, parsed]
    rfl
  · rw [Template.eraseSpans, Template.eraseSpans, erased', erased]

end Stencil.Grammar
