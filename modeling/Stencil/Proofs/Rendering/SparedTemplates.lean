import Stencil.Proofs.Rendering.SparedLoops
/-!
# Templates that name a collection only in heads of iterations

Such a template is rendered alike on twin data, and with it the templates that it includes and its
layouts. So a rendering that asks for the stream at most once comes to the same text or failure as one
that is given the array (`outcome_of_twins`).
-/

set_option autoImplicit false

namespace Stencil.Render

open Stencil.Error (Kind)
open Stencil.Stream (Item)
open Stencil.Syntax
open Stencil.Text (Span)

namespace RenderM

variable {swap : Swap} {provider : Provider} {settings : Settings}

theorem alike_collectionOf {left : Option (List String)} {value value' : Value}
    (sight : Corresponds swap left value value') :
    Alike swap provider (fun collection collection' => ∃ rest,
      Pair swap.array swap.stream rest collection collection')
      (collectionOf settings value) (collectionOf settings value') := by
  have same : ∀ value : Value, Alike swap provider (fun collection collection' => ∃ rest,
      Pair swap.array swap.stream rest collection collection')
      (collectionOf settings value) (collectionOf settings value) := by
    intro value
    unfold collectionOf
    split
    · exact (alike_call _ _).mono fun collection collection' same => ⟨[], .inl same⟩
    · exact alike_pure ⟨[], .inl rfl⟩
  cases left with
  | none =>
    obtain rfl : value = value' := sight
    exact same value
  | some rest =>
    rcases sight with rfl | twins
    · exact same value
    · -- Neither an array nor a stream nor an object is called.
      have plain : collectionOf settings value = pure value ∧ collectionOf settings value' = pure value' := by
        cases twins with
        | here => exact ⟨rfl, rfl⟩
        | inside => exact ⟨rfl, rfl⟩
      rw [plain.1, plain.2]
      exact alike_pure ⟨rest, .inr twins⟩

theorem alike_templateName (what : String) (value : Value) :
    Alike swap provider Eq (templateName settings what value) (templateName settings what value) := by
  unfold templateName
  split
  · exact alike_pure rfl
  · exact alike_fail _ _

theorem alike_evaluateEach {items : List Expr} (spares : ListSpares swap.path items) :
    Alike swap provider Eq (evaluateEach settings items) (evaluateEach settings items) := by
  induction items with
  | nil => exact alike_pure rfl
  | cons e rest ih => exact (alike_spared e spares.1).bind fun _ _ _ => ih spares.2

/-- The data for a template that is included: the same, or the data that holds the collection. -/
theorem alike_includeData {args : Option (List Expr)}
    (spares : match args with
      | some (first :: others) =>
        (ExprSpares swap.path first ∨ trail swap.path first = some swap.path) ∧ ListSpares swap.path others
      | _ => True) :
    Alike swap provider (Pair swap.array swap.stream swap.path) (includeData settings (args.getD []))
      (includeData settings (args.getD [])) := by
  have none_ : Alike swap provider (Pair swap.array swap.stream swap.path) (includeData settings [])
      (includeData settings []) :=
    alike_freshIdentity.bind fun number number' same => alike_pure (.inl (by rw [same]))
  match args with
  | none | some [] => exact none_
  | some (first :: others) =>
    obtain ⟨head, tail⟩ := spares
    have data : Alike swap provider (Pair swap.array swap.stream swap.path) (evaluate settings first)
        (evaluate settings first) := by
      rcases head with spares | whole
      · exact (alike_spared first spares).mono fun _ _ same => .inl same
      · refine (alike_evaluate first (.inr ⟨_, whole⟩)).mono fun _ _ sight => ?_
        rw [Sight, whole] at sight
        exact sight
    exact data.bind fun data data' pair =>
      ((alike_evaluateEach tail).keeping _ _).bind fun _ _ _ => alike_pure pair

theorem alike_setVariables : ∀ defs : List VarDef,
    (∀ name value, VarDef.mk name (some value) ∈ defs → ExprSpares swap.path value) →
    Alike swap provider Eq (setVariables settings defs) (setVariables settings defs)
  | [], _ => alike_pure rfl
  | .mk name initial :: rest, spares => by
    have value : Alike swap provider Eq (initialValue settings initial) (initialValue settings initial) := by
      cases initial with
      | none => exact alike_pure rfl
      | some e => exact alike_spared e (spares name e (List.mem_cons_self ..))
    refine value.bind fun value value' same => ?_
    subst same
    refine (alike_modifyScope fun _ _ twins => twins.modifyFrame fun _ _ inner =>
      inner.setLocal name (.inl rfl)).bind fun _ _ _ => ?_
    exact alike_setVariables rest fun name value listed => spares name value (List.mem_cons_of_mem _ listed)

section

variable {n : Nat} (templates : ∀ name,
  Alike swap provider Eq (renderTemplate settings n name) (renderTemplate settings n name))

include templates

set_option linter.unusedSectionVars false

mutual

theorem alike_renderChunk : ∀ chunk : Chunk, ChunkSpares swap.path chunk →
    Alike swap provider Eq (renderChunk settings (renderTemplate settings n) chunk)
      (renderChunk settings (renderTemplate settings n) chunk)
  | .html _ text, _ => alike_pure rfl
  | .echo _ value, spares | .rawHtml _ value, spares => by
    rw [renderChunk]
    exact (alike_spared value spares).bind fun value value' same => alike_pure (by rw [same])
  | .include span args name, spares => by
    rw [renderChunk]
    refine (alike_includeData spares.1).bind fun data data' pair => ?_
    refine ((alike_spared name spares.2).keeping _ _).bind fun value value' same => ?_
    subst same
    refine (alike_templateName _ value).bind fun name name' same => ?_
    subst same
    exact (templates name).within ((FrameTwins.ofTemplate name pair).openedBy span)
  | .each span bindings collection body, spares => by
    rw [renderChunk]
    refine (alike_evaluate collection spares.1).bind fun value value' sight => ?_
    rw [sourceOf, sourceOf, bind_assoc, bind_assoc]
    refine (alike_collectionOf sight).bind fun collection collection' related => ?_
    obtain ⟨rest, pair⟩ := related
    let loop : Loop := ⟨span, bindings, body, n⟩
    have inner : Alike swap provider Eq (loop.body settings) (loop.body settings) :=
      alike_renderChunks body spares.2
    exact alike_iterate inner pair
  | .ifElse _ condition thenBranch elseIfs none, ⟨condition_, then_, elseIfs_, _⟩ => by
    rw [renderChunk]
    refine (alike_spared condition condition_).bind fun value value' same => ?_
    subst same
    split
    · exact alike_renderChunks thenBranch then_
    · refine (alike_renderElseIfs elseIfs elseIfs_).bind fun text text' same => ?_
      subst same
      split <;> exact alike_pure rfl
  | .ifElse _ condition thenBranch elseIfs (some branch), ⟨condition_, then_, elseIfs_, else_⟩ => by
    rw [renderChunk]
    refine (alike_spared condition condition_).bind fun value value' same => ?_
    subst same
    split
    · exact alike_renderChunks thenBranch then_
    · refine (alike_renderElseIfs elseIfs elseIfs_).bind fun text text' same => ?_
      subst same
      split
      · exact alike_pure rfl
      · exact alike_renderChunks branch else_
  | .layout span name, spares => by
    rw [renderChunk]
    refine (alike_spared name spares).bind fun value value' same => ?_
    subst same
    refine (alike_templateName _ value).bind fun name name' same => ?_
    subst same
    exact (alike_modifyScope fun _ _ twins => twins.declareLayout name span).bind
      fun _ _ _ => alike_pure rfl
  | .var _ defs, spares => by
    rw [renderChunk]
    exact (alike_setVariables defs spares).bind fun _ _ _ => alike_pure rfl

theorem alike_renderChunks : ∀ chunks : List Chunk, ChunksSpare swap.path chunks →
    Alike swap provider Eq (renderChunks settings (renderTemplate settings n) chunks)
      (renderChunks settings (renderTemplate settings n) chunks)
  | [], _ => alike_pure rfl
  | chunk :: rest, ⟨first, others⟩ => by
    rw [renderChunks]
    refine (alike_saveToken chunk.span).bind fun _ _ _ => ?_
    refine (alike_renderChunk chunk first).bind fun text text' same => ?_
    exact (alike_renderChunks rest others).bind fun behind behind' equal =>
      alike_pure (by rw [same, equal])

theorem alike_renderElseIfs : ∀ branches : List ElseIf, ElseIfsSpare swap.path branches →
    Alike swap provider Eq (renderElseIfs settings (renderTemplate settings n) branches)
      (renderElseIfs settings (renderTemplate settings n) branches)
  | [], _ => alike_pure rfl
  | .mk condition body :: rest, ⟨condition_, body_, rest_⟩ => by
    rw [renderElseIfs]
    refine (alike_spared condition condition_).bind fun value value' same => ?_
    subst same
    split
    · exact (alike_renderChunks body body_).bind fun text text' same => alike_pure (by rw [same])
    · exact alike_renderElseIfs rest rest_

end

end

/-! ## Templates -/

theorem alike_storeLoaded (name : String) {loaded : Except Cause String}
    (told : loaded = provider.load name) :
    Alike swap provider (fun parsed parsed' => parsed = parsed' ∧ Coherent settings provider name parsed)
      (storeLoaded settings name loaded) (storeLoaded settings name loaded) := by
  cases loaded with
  | error cause => exact alike_failWith _ _ _
  | ok source =>
    rw [storeLoaded_ok]
    split
    · exact (alike_saveToken _).bind fun _ _ _ => alike_failWith _ _ _
    · rename_i parsed same
      exact (alike_ask rfl).bind fun _ _ _ => alike_pure ⟨rfl, source, told.symm, same⟩

/-- The answer to a question about no source is the one that every view gives. -/
theorem alike_ask_told {request : Request} (apart : request.source? = none) :
    Alike swap provider (fun answer answer' =>
      answer = answer' ∧ ∀ v : View, answer = (v.answer provider request).1) (ask request) (ask request) := by
  intro hole state state' v v' linked
  obtain ⟨answer, same⟩ := View.answer_plain provider apart
  refine .inr ?_
  rw [start_ask, start_ask]
  simp only [Process.outcome, same]
  exact ⟨.ok ⟨rfl, fun _ => rfl⟩, linked, le_rfl, .refl _ _ _ _⟩

theorem alike_parsedTemplate (name : String) :
    Alike swap provider (fun parsed parsed' => parsed = parsed' ∧ Coherent settings provider name parsed)
      (parsedTemplate settings name) (parsedTemplate settings name) := by
  let nothing : View := ⟨fun _ => none, fun _ => none, fun _ => 0⟩
  refine (alike_ask_told rfl).bind fun found found' related => ?_
  obtain ⟨rfl, told⟩ := related
  obtain rfl : found = none := told nothing
  refine (alike_ask_told rfl).bind fun loaded loaded' related => ?_
  obtain ⟨rfl, told⟩ := related
  exact alike_storeLoaded name (told nothing)

theorem alike_takeLayout : Alike swap provider Eq takeLayout takeLayout := by
  refine alike_scope.bind fun scope scope' twins => ?_
  refine (alike_modifyScope fun _ _ twins => twins.modifyFrame fun _ _ inner => inner.dropLayout).bind
    fun _ _ _ => ?_
  exact alike_pure twins.frame.layout

theorem alike_renderTemplate (spare : TemplatesSpare settings provider swap.path) (n : Nat) :
    ∀ name, Alike swap provider Eq (renderTemplate settings n name) (renderTemplate settings n name) := by
  induction n with
  | zero => exact fun _ => alike_throw _
  | succ n ih =>
    intro name
    rw [renderTemplate]
    refine (alike_parsedTemplate name).bind fun parsed parsed' related => ?_
    obtain ⟨rfl, coherent⟩ := related
    refine (alike_renderChunks ih parsed.chunks (spare name parsed coherent)).bind fun text text' same => ?_
    subst same
    refine alike_takeLayout.bind fun layout layout' same => ?_
    subst same
    split
    · exact alike_pure rfl
    · rename_i layout origin
      refine alike_scope.bind fun scope scope' twins => ?_
      exact (ih layout).within
        (((FrameTwins.ofTemplate layout twins.frame.data).setLocal "body" (.inl rfl)).openedBy origin)

end RenderM

open RenderM

/-- A rendering that is given the stream, and asks for it at most once, has the result of one that is
given the array. -/
theorem outcome_of_twins {swap : Swap} {provider : Provider} {settings : Settings}
    (spare : TemplatesSpare settings provider swap.path) (name : String) {data data' : Value}
    (pair : Pair swap.array swap.stream swap.path data data') (fresh : Nat) {v : View}
    (streams : v.streams swap.handle = some swap.script) (sources : ∀ source, v.sources source = none)
    (once : ((render settings name data' fresh).outcome provider v).2.asked swap.handle ≤ 1) :
    ((render settings name data fresh).outcome provider v).1 =
      ((render settings name data' fresh).outcome provider v).1 := by
  have linked : Linked swap ∅ { scope := { frame := Frame.ofTemplate name data }, fresh }
      { scope := { frame := Frame.ofTemplate name data' }, fresh } v v :=
    { scopes := .cons (FrameTwins.ofTemplate name pair) .nil
      fresh := rfl
      below := fun _ listed => listed.elim
      sources := fun _ _ => rfl
      unopened := fun source _ => sources source
      streams := fun _ _ => rfl
      script := fun _ => streams }
  have alike := alike_renderTemplate spare settings.limit name ∅ _ _ v v linked
  have process : ∀ data, (render settings name data fresh).outcome provider v =
      (let out := ((renderTemplate settings settings.limit name).start
        { scope := { frame := Frame.ofTemplate name data }, fresh }).outcome provider v
      (out.1.1, out.2)) :=
    fun data => Process.outcome_bind provider _ _ _
  rw [process] at once ⊢
  rw [process]
  unfold AlikeAt at alike
  generalize ((renderTemplate settings settings.limit name).start
    { scope := { frame := Frame.ofTemplate name data }, fresh }).outcome provider v = out at *
  generalize ((renderTemplate settings settings.limit name).start
    { scope := { frame := Frame.ofTemplate name data' }, fresh }).outcome provider v = out' at *
  obtain ⟨⟨result, behind⟩, w⟩ := out
  obtain ⟨⟨result', behind'⟩, w'⟩ := out'
  rcases alike with twice | ⟨agree, -, -, -⟩
  · exact absurd (twice.trans once) (by omega)
  · cases agree with
    | ok same => exact congrArg Except.ok same
    | error failure => rfl

end Stencil.Render
