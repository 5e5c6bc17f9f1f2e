import Stencil.Proofs.Rendering.Order
/-!
# Rendering templates is orderly

Whatever a template does, the process of rendering it keeps to the rules of orderly processes: a
source that an iteration opens is read up to its end, its failure or the failure of the body, and
given back; and a template is put into the cache only as it was loaded and parsed.
-/

set_option autoImplicit false

namespace Stencil.Render

open Stencil.Error (Kind)
open Stencil.Stream (Item)
open Stencil.Syntax
open Stencil.Text (Span)

section

variable {known : Set Handle}

theorem Knows.setLocal {frame : Frame} (knows : Knows known frame.values) {value : Value}
    (new : Knows known [value]) (name : String) : Knows known (frame.setLocal name value).values := by
  unfold Frame.values at *
  rw [knows_cons] at knows ⊢
  exact ⟨knows.1, knows.2.put new name⟩

theorem knows_ofTemplate {data : Value} (knows : Knows known [data]) (name : String) :
    Knows known (Frame.ofTemplate name data).values := by
  have bare : Knows known ({ data, template := some name } : Frame).values := knows
  exact bare.setLocal knows "$data"

theorem values_modifyTemplateFrames {f : Frame → Frame} (same : ∀ frame, (f frame).values = frame.values)
    (frames : List Frame) :
    (Scope.modifyTemplateFrames f frames).flatMap Frame.values = frames.flatMap Frame.values := by
  induction frames with
  | nil => rfl
  | cons frame rest ih =>
    rw [Scope.modifyTemplateFrames]
    split
    · simp [same]
    · simp [ih]

/-- Declaring a layout brings no values. -/
theorem values_declareLayout (scope : Scope) (name : String) (origin : Option Span) :
    (scope.declareLayout 0 name origin).values = scope.values := by
  unfold Scope.declareLayout
  dsimp only
  split
  · rfl
  · simp only [Scope.values, Scope.frames, List.flatMap_cons]
    rw [@values_modifyTemplateFrames (Frame.setLayout · name origin) fun _ => rfl]

end

namespace RenderM

variable {α β : Type} {settings : Settings} {provider : Provider} {before : List Value}

/-! ## Iterations -/

theorem knows_itemFrame {known : Set Handle} {item : Item} (knows : Knows known item.values)
    (bindings : Option (List String)) (origin : Option Span) (index : Nat) :
    Knows known (itemFrame bindings origin index item).values := by
  unfold Item.values at knows
  obtain ⟨key, value⟩ := knows_append.1 knows
  have position : Knows known [Value.number index.toFloat] := knows_of_bare rfl
  have bare : Knows known (Frame.ofItem item.value).values := value
  refine ((bare.setLocal position _).setLocal value _).setLocal ?_ _
  cases same : item.key with
  | none => exact position
  | some key_ =>
    rw [same] at key
    exact key

section Iteration

variable {frame : Nat → Item → Frame} {body : RenderM String}
  (frames : ∀ known index item, Knows known item.values → Knows known (frame index item).values)
  (tidy : Tidy settings provider [] body fun _ => [])

include frames tidy

/-- The body of an iteration is run in the frame of an item that is known. -/
theorem tidy_round (index : Nat) (item : Item) :
    Tidy settings provider item.values (within (frame index item) body) fun _ => [] :=
  tidy.within fun known knows => frames known index item knows

/-- An iteration over an array that is in use. -/
theorem tidyAt_forEach_items {identity : Nat} {items : List Value} (n : Nat) :
    ∀ {state : State} {rest : List Value} (index : Nat) (written : String),
      Value.array identity items ∈ state.inUse → (∀ value ∈ rest, value ∈ items) →
      TidyAt settings provider state []
        (forEach settings frame body n (.items (.array identity items) rest) index written)
        fun _ => [] := by
  induction n with
  | zero => exact fun _ _ _ _ => TidyAt.of_error rfl
  | succ n ih =>
    intro state rest index written inUse part known readable knows bound
    rw [List.append_nil] at knows
    refine ⟨?_, trivial, trivial, fun known held _ _ _ => ?_⟩
    · rw [List.forall_mem_append]
      exact ⟨knows_iff.2 knows, fun _ listed => nomatch listed⟩
    rw [List.forall_mem_append] at held
    have held := knows_iff.1 held.1
    cases rest with
    | nil => exact ⟨rfl, rfl, le_rfl, held, fun _ _ => knows_nil⟩
    | cons value rest =>
      have goes : TidyAt settings provider state [value]
          (within (frame index ⟨none, value⟩) body >>= fun text =>
            forEach settings frame body n (.items (.array identity items) rest) (index + 1)
              (written ++ text))
          fun _ => [] := by
        refine TidyAt.bind (tidy_round frames tidy index ⟨none, value⟩ state)
          fun text behind same => ?_
        refine (ih (index + 1) (written ++ text) (same ▸ inUse)
          fun other listed => part other (List.mem_cons_of_mem _ listed)).weaken
            (fun _ _ => knows_nil) fun _ _ knows => knows
      -- The array is held, and with it all of its items.
      have array : Knows known [Value.array identity items] :=
        held.of_mem (List.mem_append_right _ inUse)
      have item := (knows_array.1 array).of_mem (part value List.mem_cons_self)
      exact goes known readable (knows_append.2 ⟨held, item⟩) bound

/-- An iteration over a source, which reads it as long as it is readable. -/
theorem orderly_forEach_external {source : Nat} {others : Set Nat} (apart : source ∉ others)
    (n : Nat) :
    ∀ {state : State} {known : Set Handle} (index : Nat) (written : String),
      Knows known state.all → (∀ s ∈ insert source others, s < state.fresh) →
      ((forEach settings frame body n (.external source) index written).start state).Orderly
        settings provider
        (fun out known readable => readable \ {source} = others ∧
          Leaves state readable (fun _ => []) out known readable)
        known (insert source others) := by
  have closed : insert source others \ {source} = others := by
    ext s
    by_cases same : s = source
    · simp [same, apart]
    · simp [same]
  induction n with
  | zero => exact fun _ _ knows _ => ⟨closed, rfl, rfl, le_rfl, knows, fun _ same => nomatch same⟩
  | succ n ih =>
    intro state known index written knows bound
    refine ⟨?_, Set.mem_insert _ _, trivial, fun known held answer _ told => ?_⟩
    · rw [List.forall_mem_append]
      exact ⟨knows_iff.2 knows, fun _ listed => nomatch listed⟩
    rw [List.forall_mem_append] at held
    have held := knows_iff.1 held.1
    match answer with
    | .error cause =>
      refine ⟨?_, rfl, rfl, le_rfl, held, fun _ same => nomatch same⟩
      show (insert source others \ {source}) \ {source} = others
      rw [closed, Set.sdiff_singleton_eq_self apart]
    | .ok none =>
      refine ⟨?_, rfl, rfl, le_rfl, held, fun _ _ => knows_nil⟩
      show (insert source others \ {source}) \ {source} = others
      rw [closed, Set.sdiff_singleton_eq_self apart]
    | .ok (some item) =>
      show Process.Orderly settings provider _ ((within (frame index item) body >>= fun text =>
        forEach settings frame body n (.external source) (index + 1) (written ++ text)).start state)
        known (insert source others)
      rw [start_bind]
      apply Process.Orderly.bind
      refine (tidy_round frames tidy index item state known _
        (knows_append.2 ⟨held, knows_iff.1 told⟩) bound).mono fun out known readable leaves => ?_
      obtain ⟨result, behind⟩ := out
      obtain ⟨rfl, inUse, fresh, held, -⟩ := leaves
      cases result with
      | error failure => exact ⟨closed, rfl, inUse, fresh, held, fun _ same => nomatch same⟩
      | ok text =>
        refine (ih (index + 1) (written ++ text) held fun s listed =>
          (bound s listed).trans_le fresh).mono fun out known readable ends => ?_
        obtain ⟨given, leaves⟩ := ends
        exact ⟨given, { leaves with
          inUse := leaves.inUse.trans inUse, fresh := fresh.trans leaves.fresh }⟩

/-- An iteration over a source, behind which it is given back. -/
theorem orderly_releasing {source : Nat} {others : Set Nat} (apart : source ∉ others) (n : Nat)
    {state : State} {known : Set Handle} (index : Nat) (written : String)
    (knows : Knows known state.all) (bound : ∀ s ∈ insert source others, s < state.fresh) :
    ((releasing (.external source)
        (forEach settings frame body n (.external source) index written)).start state).Orderly
      settings provider (Leaves state others fun _ => []) known (insert source others) := by
  rw [start_releasing_external]
  apply Process.Orderly.bind
  refine (orderly_forEach_external frames tidy apart n index written knows bound).mono
    fun out known readable ends => ?_
  obtain ⟨given, leaves⟩ := ends
  refine ⟨?_, trivial, trivial, fun known held _ _ _ => ?_⟩
  · rw [List.forall_mem_append]
    exact ⟨knows_iff.2 leaves.held, fun _ listed => nomatch listed⟩
  · rw [List.forall_mem_append] at held
    exact ⟨given, leaves.inUse, leaves.fresh, knows_iff.1 held.1, fun _ _ => knows_nil⟩

/-- An iteration over a collection. -/
theorem tidy_iteration (n : Nat) (collection : Value) :
    Tidy settings provider [collection]
      (openCollection settings collection >>= fun source =>
        releasing source (forEach settings frame body n source 0 "")) fun _ => [] := by
  intro state known readable knows bound
  have parts := knows_append.1 knows
  have bound' : ∀ s ∈ insert state.fresh readable, s < state.fresh + 1 := by
    intro s listed
    rcases Set.mem_insert_iff.1 listed with rfl | listed
    · exact Nat.lt_succ_self _
    · exact (bound s listed).trans (Nat.lt_succ_self _)
  have apart : state.fresh ∉ readable := fun listed => Nat.lt_irrefl _ (bound _ listed)
  -- Both an iterable and a stream are read from a source with the number of the iteration.
  have external : ∀ known : Set Handle, Knows known state.all →
      ((releasing (.external state.fresh)
          (forEach settings frame body n (.external state.fresh) 0 "")).start
        { state with fresh := state.fresh + 1 }).Orderly settings provider
        (Leaves state readable fun _ => []) known (insert state.fresh readable) := by
    intro known held
    refine (@orderly_releasing _ _ _ _ frames tidy _ _ apart n { state with fresh := state.fresh + 1 }
      _ 0 "" held bound').mono fun out known readable leaves => ?_
    exact { leaves with fresh := (Nat.le_succ _).trans leaves.fresh }
  have failed : ∀ known : Set Handle, Knows known state.all → ∀ failure,
      Leaves state readable (fun _ : String => ([] : List Value))
        (.error failure, { state with fresh := state.fresh + 1 }) known readable :=
    fun known held failure => ⟨rfl, rfl, Nat.le_succ _, held, fun _ same => nomatch same⟩
  cases collection with
  | array identity items =>
    have loop := @TidyAt.keeping _ _ _ _ _ { state with fresh := state.fresh + 1 } _
      [.array identity items]
      (tidyAt_forEach_items frames tidy n 0 "" (List.mem_append_left _ List.mem_cons_self)
        fun _ listed => listed)
    rw [List.append_nil] at loop
    have knows' : Knows known (({ state with fresh := state.fresh + 1 } : State).all ++
      [.array identity items]) := knows
    refine (loop known readable knows' fun s listed =>
      (bound s listed).trans (Nat.lt_succ_self _)).mono fun out known readable leaves => ?_
    exact { leaves with
      fresh := (Nat.le_succ _).trans leaves.fresh, told := fun _ _ => knows_nil }
  | iterable handle =>
    refine ⟨?_, trivial, trivial, fun known held _ _ _ => ?_⟩
    · rw [List.forall_mem_append]
      exact ⟨knows_iff.2 parts.1, parts.2 _ List.mem_cons_self⟩
    · rw [List.forall_mem_append] at held
      exact external known (knows_iff.1 held.1)
  | stream handle =>
    refine ⟨?_, trivial, trivial, fun known held answer _ _ => ?_⟩
    · rw [List.forall_mem_append]
      exact ⟨knows_iff.2 parts.1, parts.2 _ List.mem_cons_self⟩
    · rw [List.forall_mem_append] at held
      match answer with
      | true => exact external known (knows_iff.1 held.1)
      | false => exact failed known (knows_iff.1 held.1) _
  | _ => exact failed known parts.1 _

end Iteration

/-! ## Chunks -/

theorem tidy_collectionOf (value : Value) :
    Tidy settings provider [value] (collectionOf settings value) fun value => [value] := by
  unfold collectionOf
  split
  · exact tidy_call _ []
  · exact tidy_value _

theorem tidy_templateName (what : String) (value : Value) :
    Tidy settings provider before (templateName settings what value) fun _ => before := by
  unfold templateName
  split
  · exact tidy_pure fun _ knows => knows
  · exact tidy_fail _ _

theorem tidy_evaluateEach (items : List Expr) :
    Tidy settings provider [] (evaluateEach settings items) fun _ => [] := by
  induction items with
  | nil => exact tidy_pure fun _ knows => knows
  | cons e rest ih => exact (tidy_evaluate e).bind fun _ => ih.of_nil

theorem tidy_includeData (args : List Expr) :
    Tidy settings provider [] (includeData settings args) fun data => [data] := by
  cases args with
  | nil => exact tidy_freshIdentity.bind fun _ => tidy_pure fun _ _ => knows_of_bare rfl
  | cons first others =>
    refine (tidy_evaluate first).bind fun data => ?_
    refine (tidy_evaluateEach others).keeping.bind fun _ => tidy_pure fun _ knows => ?_
    exact (knows_append.1 knows).1

theorem tidy_initialValue (initial : Option Expr) :
    Tidy settings provider [] (initialValue settings initial) fun value => [value] := by
  cases initial with
  | none => exact tidy_constant _ rfl
  | some e => exact tidy_evaluate e

theorem tidy_setVariables (defs : List VarDef) :
    Tidy settings provider [] (setVariables settings defs) fun _ => [] := by
  induction defs with
  | nil => exact tidy_pure fun _ knows => knows
  | cons def_ rest ih =>
    obtain ⟨name, initial⟩ := def_
    refine (tidy_initialValue initial).bind fun value => ?_
    refine (tidy_modifyScope (fun known scope knows => ?_) fun _ _ => knows_nil).bind fun _ => ih
    rw [knows_append, Scope.values, Scope.frames, List.flatMap_cons, knows_append] at knows
    rw [Scope.values_modifyFrame]
    exact knows_append.2 ⟨knows.1.1.setLocal knows.2 name, knows.1.2⟩

variable {template : String → RenderM String}
  (others : ∀ name, Tidy settings provider [] (template name) fun _ => [])

include others

set_option linter.unusedSectionVars false

mutual

/-- A chunk is rendered orderly when the templates that it includes are. -/
theorem tidy_renderChunk : ∀ chunk : Chunk,
    Tidy settings provider [] (renderChunk settings template chunk) fun _ => []
  | .html _ text => tidy_pure fun _ knows => knows
  | .echo _ value => by
    rw [renderChunk]
    exact (tidy_evaluate value).bind fun _ => tidy_pure fun _ _ => knows_nil
  | .rawHtml _ value => by
    rw [renderChunk]
    exact (tidy_evaluate value).bind fun _ => tidy_pure fun _ _ => knows_nil
  | .include span args name => by
    rw [renderChunk]
    refine (tidy_includeData (args.getD [])).bind fun data => ?_
    refine (tidy_evaluate name).keeping.bind fun value => ?_
    refine (tidy_templateName _ value).bind fun name => ?_
    refine (others name).within fun known knows => ?_
    exact knows_ofTemplate (knows_append.1 knows).1 name
  | .each span bindings collection body => by
    rw [renderChunk]
    refine (tidy_evaluate collection).bind fun value => ?_
    rw [sourceOf, bind_assoc]
    refine (tidy_collectionOf value).bind fun collection => ?_
    exact tidy_iteration (fun known index item knows => knows_itemFrame knows bindings span index)
      (tidy_renderChunks body) settings.limit collection
  | .ifElse _ condition thenBranch elseIfs none => by
    rw [renderChunk]
    refine (tidy_evaluate condition).bind fun value => Tidy.of_nil ?_
    split
    · exact tidy_renderChunks thenBranch
    · refine (tidy_renderElseIfs elseIfs).bind fun text => ?_
      split <;> exact tidy_pure fun _ knows => knows
  | .ifElse _ condition thenBranch elseIfs (some branch) => by
    rw [renderChunk]
    refine (tidy_evaluate condition).bind fun value => Tidy.of_nil ?_
    split
    · exact tidy_renderChunks thenBranch
    · refine (tidy_renderElseIfs elseIfs).bind fun text => ?_
      split
      · exact tidy_pure fun _ knows => knows
      · exact tidy_renderChunks branch
  | .layout span name => by
    rw [renderChunk]
    refine (tidy_evaluate name).bind fun value => Tidy.of_nil ?_
    refine (tidy_templateName _ value).bind fun name => ?_
    have declared : Tidy settings provider [] (modifyScope (Scope.declareLayout · 0 name span))
        fun _ => [] :=
      tidy_modifyScope (fun known scope knows => by
        rw [values_declareLayout]
        exact (knows_append.1 knows).1) fun _ knows => knows
    exact declared.bind fun _ => tidy_pure fun _ knows => knows
  | .var _ defs => by
    rw [renderChunk]
    exact (tidy_setVariables defs).bind fun _ => tidy_pure fun _ knows => knows

theorem tidy_renderChunks : ∀ chunks : List Chunk,
    Tidy settings provider [] (renderChunks settings template chunks) fun _ => []
  | [] => tidy_pure fun _ knows => knows
  | chunk :: rest => by
    rw [renderChunks]
    exact (tidy_saveToken _).bind fun _ => (tidy_renderChunk chunk).bind fun _ =>
      (tidy_renderChunks rest).bind fun _ => tidy_pure fun _ knows => knows

theorem tidy_renderElseIfs : ∀ branches : List ElseIf,
    Tidy settings provider [] (renderElseIfs settings template branches) fun _ => []
  | [] => tidy_pure fun _ knows => knows
  | .mk condition body :: rest => by
    rw [renderElseIfs]
    refine (tidy_evaluate condition).bind fun value => Tidy.of_nil ?_
    split
    · exact (tidy_renderChunks body).bind fun _ => tidy_pure fun _ knows => knows
    · exact tidy_renderElseIfs rest

end

omit others

/-! ## Templates -/

theorem outcome_storeLoaded {name : String} {template : Template}
    (coherent : Coherent settings provider name template) (state : State) (v : View) :
    ((storeLoaded settings name (provider.load name)).start state).outcome provider v =
      ((.ok template, state), v) := by
  obtain ⟨source, loaded, parsed⟩ := coherent
  rw [loaded, storeLoaded_ok, parsed]
  rfl

/-- Only what was loaded and parsed is put into the cache. -/
theorem tidy_storeLoaded (name : String) :
    Tidy settings provider [] (storeLoaded settings name (provider.load name)) fun _ => [] := by
  intro state
  cases loaded : provider.load name with
  | error cause => exact TidyAt.of_error rfl
  | ok source =>
    rw [storeLoaded_ok]
    cases parsed : parseTemplate ⟨settings.positions, false⟩ source with
    | error e => exact ((tidy_saveToken _).bind fun _ => tidy_failWith _ _ _) state
    | ok template =>
      exact tidyAt_ask_bind (fun _ _ _ listed => nomatch listed)
        (fun _ => ⟨source, loaded, parsed⟩) trivial (fun _ _ => rfl)
        fun _ _ => tidy_pure (fun _ _ => knows_nil) state

/-- It makes no difference whether a template is found in the cache or loaded. -/
theorem tidy_parsedTemplate (name : String) :
    Tidy settings provider [] (parsedTemplate settings name) fun _ => [] := by
  intro state
  refine tidyAt_ask_bind (fun _ _ _ listed => nomatch listed) (fun _ => trivial) ?_
    (fun _ _ => rfl) fun answer _ => ?_
  · intro template coherent v
    exact ⟨(outcome_storeLoaded coherent state v).symm, Nat.zero_le _⟩
  · cases answer with
    | none =>
      refine tidyAt_ask_bind (fun _ _ _ listed => nomatch listed) (fun _ => trivial) trivial
        (fun _ _ => rfl) fun answer possible => ?_
      obtain rfl : answer = provider.load name := possible
      exact tidy_storeLoaded name state
    | some template => exact tidy_pure (fun _ _ => knows_nil) state

theorem tidy_takeLayout : Tidy settings provider [] takeLayout fun _ => [] := by
  refine tidy_scope.bind fun scope => Tidy.of_nil ?_
  have dropped : Tidy settings provider [] (modifyScope (Scope.modifyFrame Frame.dropLayout))
      fun _ => [] :=
    tidy_modifyScope (fun known scope knows => (knows_append.1 knows).1) fun _ knows => knows
  exact dropped.bind fun _ => tidy_pure fun _ knows => knows

/-- A template is rendered orderly, whatever it includes and whatever its layout is. -/
theorem tidy_renderTemplate (n : Nat) :
    ∀ name, Tidy settings provider [] (renderTemplate settings n name) fun _ => [] := by
  induction n with
  | zero => exact fun _ => tidy_throw _
  | succ n ih =>
    intro name
    rw [renderTemplate]
    refine (tidy_parsedTemplate name).bind fun parsed => ?_
    refine (tidy_renderChunks ih parsed.chunks).bind fun text => ?_
    refine tidy_takeLayout.bind fun layout => ?_
    split
    · exact tidy_pure fun _ knows => knows
    · rename_i layout origin
      refine tidy_scope.bind fun scope => (ih layout).within fun known knows => ?_
      have data : Knows known [scope.frame.data] := knows.of_mem (by
        simp [Scope.values, Scope.frames, Frame.values])
      exact (knows_ofTemplate data layout).setLocal (knows_of_bare rfl) "body"

end RenderM

/-- The process of rendering a template is orderly, if its data is known. -/
theorem render_orderly (settings : Settings) (provider : Provider) (name : String) {data : Value}
    (fresh : Nat) {known : Set Handle} (knows : Knows known [data]) :
    (render settings name data fresh).Orderly settings provider (fun _ _ _ => True) known ∅ := by
  have held : Knows known
      (({ scope := { frame := Frame.ofTemplate name data }, fresh } : State).all ++ []) := by
    rw [List.append_nil, State.all_eq, List.append_nil, Scope.values, Scope.frames,
      List.flatMap_cons, List.flatMap_nil, List.append_nil]
    exact knows_ofTemplate knows name
  apply Process.Orderly.bind
  exact (RenderM.tidy_renderTemplate settings.limit name _ known ∅ held
    fun _ listed => listed.elim).mono fun _ _ _ _ => trivial

end Stencil.Render
