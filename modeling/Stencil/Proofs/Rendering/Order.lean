import Stencil.Proofs.Rendering.Running
import Stencil.Proofs.Rendering.Views
/-!
# Renderings are orderly

A part of a rendering keeps to the rules of orderly processes from every state. The parts are put
together, and what each needs and leaves is kept account of in values: those that it uses later and
those that it tells.
-/

set_option autoImplicit false

namespace Stencil.Render

open Stencil.Error (Kind)
open Stencil.Stream (Item)
open Stencil.Syntax
open Stencil.Text (Span)

/-- Whether all that values hold on to is known. -/
def Knows (known : Set Handle) (values : List Value) : Prop :=
  ∀ value ∈ values, ∀ handle ∈ value.handles, handle ∈ known

section

variable {known : Set Handle}

theorem knows_iff {values : List Value} :
    (∀ handle ∈ values.flatMap Value.handles, handle ∈ known) ↔ Knows known values := by
  constructor
  · intro h value listed handle inside
    exact h handle (List.mem_flatMap.2 ⟨value, listed, inside⟩)
  · intro h handle listed
    obtain ⟨value, listed, inside⟩ := List.mem_flatMap.1 listed
    exact h value listed handle inside

@[simp] theorem knows_nil : Knows known [] := by simp [Knows]

theorem knows_cons {value : Value} {values : List Value} :
    Knows known (value :: values) ↔ Knows known [value] ∧ Knows known values := by
  simp [Knows]

@[simp] theorem knows_append {values others : List Value} :
    Knows known (values ++ others) ↔ Knows known values ∧ Knows known others :=
  List.forall_mem_append

theorem Knows.of_mem {values : List Value} (knows : Knows known values) {value : Value}
    (listed : value ∈ values) : Knows known [value] := by
  intro other same
  rw [List.mem_singleton.1 same]
  exact knows value listed

theorem Knows.of_subset {values others : List Value} (knows : Knows known values)
    (subset : ∀ value ∈ others, value ∈ values) : Knows known others :=
  fun value listed => knows value (subset value listed)

/-- What holds nothing is known. -/
theorem knows_of_bare {value : Value} (bare : value.handles = []) : Knows known [value] := by
  intro other same
  rw [List.mem_singleton.1 same, bare]
  simp

theorem handlesOfItems_eq (items : List Value) :
    Value.handlesOfItems items = items.flatMap Value.handles := by
  induction items with
  | nil => rfl
  | cons item rest ih => rw [Value.handlesOfItems, ih, List.flatMap_cons]

theorem handlesOfEntries_eq (entries : List (String × Value)) :
    Value.handlesOfEntries entries = (entries.map (·.2)).flatMap Value.handles := by
  induction entries with
  | nil => rfl
  | cons entry rest ih => rw [Value.handlesOfEntries, ih, List.map_cons, List.flatMap_cons]

/-- An array holds on to what its items hold on to. -/
theorem knows_array {identity : Nat} {items : List Value} :
    Knows known [.array identity items] ↔ Knows known items := by
  rw [← knows_iff, ← knows_iff]
  simp [Value.handles, handlesOfItems_eq]

/-- An object holds on to what its entries hold on to. -/
theorem knows_object {identity : Nat} {entries : List (String × Value)} :
    Knows known [.object identity entries] ↔ Knows known (entries.map (·.2)) := by
  rw [← knows_iff, ← knows_iff]
  simp [Value.handles, handlesOfEntries_eq]

/-- What is found in a table was in it. -/
theorem mem_of_get? {entries : List (String × Value)} {name : String} {value : Value}
    (found : Table.get? entries name = some value) : value ∈ entries.map (·.2) := by
  obtain ⟨entry, listed, rfl⟩ := Option.map_eq_some_iff.1 found
  exact List.mem_map_of_mem (List.mem_of_find?_eq_some listed)

/-- What is in a table behind putting a value was in it before, or is the value. -/
theorem mem_put {entries : List (String × Value)} {name : String} {value other : Value}
    (listed : other ∈ (Table.put entries name value).map (·.2)) :
    other = value ∨ other ∈ entries.map (·.2) := by
  induction entries with
  | nil => simpa [Table.put] using listed
  | cons entry rest ih =>
    rw [Table.put] at listed
    split at listed
    · rcases List.mem_cons.1 listed with same | behind
      · exact .inl same
      · exact .inr (List.mem_cons_of_mem _ behind)
    · rcases List.mem_cons.1 listed with same | behind
      · exact .inr (List.mem_cons.2 (.inl same))
      · exact (ih behind).imp_right (List.mem_cons_of_mem _)

theorem Knows.put {entries : List (String × Value)} (knows : Knows known (entries.map (·.2)))
    {value : Value} (new : Knows known [value]) (name : String) :
    Knows known ((Table.put entries name value).map (·.2)) := by
  intro other listed
  rcases mem_put listed with rfl | before
  · exact new other List.mem_cons_self
  · exact knows other before

/-- A member of a value holds on to no more than the value. -/
theorem Knows.own {base value : Value} {key : String} (knows : Knows known [base])
    (found : base.own? key = some value) : Knows known [value] := by
  unfold Value.own? at found
  split at found
  · exact (knows_object.1 knows).of_mem (mem_of_get? found)
  · split at found
    · exact Option.some.inj found ▸ knows_of_bare rfl
    · obtain ⟨place, -, found⟩ := Option.bind_eq_some_iff.1 found
      exact (knows_array.1 knows).of_mem (List.mem_of_getElem? found)
  · split at found
    · exact Option.some.inj found ▸ knows_of_bare rfl
    · obtain ⟨place, -, found⟩ := Option.bind_eq_some_iff.1 found
      obtain ⟨c, -, rfl⟩ := Option.map_eq_some_iff.1 found
      exact knows_of_bare rfl
  · exact nomatch found

end

/-- All values that a rendering in the state holds on to. -/
def State.all (state : State) : List Value := state.holding.all

/-- The values of the frames of a scope. -/
def Scope.values (scope : Scope) : List Value := scope.frames.flatMap Frame.values

theorem State.all_eq (state : State) : state.all = state.scope.values ++ state.inUse := rfl

namespace RenderM

variable {α β : Type} (settings : Settings) (provider : Provider)

/-- How a part of a rendering leaves off: no source is left open, it holds what it held, and it
knows what it tells. -/
structure Leaves (state : State) (readable : Set Nat) (after : α → List Value)
    (out : Except Failure α × State) (known : Set Handle) (readable' : Set Nat) : Prop where
  readable : readable' = readable
  inUse : out.2.inUse = state.inUse
  fresh : state.fresh ≤ out.2.fresh
  held : Knows known out.2.all
  told : ∀ result, out.1 = .ok result → Knows known (after result)

/-- Whether a part of a rendering is orderly from a state. It may use what the state holds and the
values `before`, and its result stands for the values `after`. -/
def TidyAt (state : State) (before : List Value) (m : RenderM α) (after : α → List Value) : Prop :=
  ∀ known readable, Knows known (state.all ++ before) → (∀ source ∈ readable, source < state.fresh) →
    (m.start state).Orderly settings provider (Leaves state readable after) known readable

/-- Whether a part of a rendering is orderly from every state. -/
def Tidy (before : List Value) (m : RenderM α) (after : α → List Value) : Prop :=
  ∀ state, TidyAt settings provider state before m after

variable {settings provider} {before : List Value} {after : α → List Value} {state : State}
  {m : RenderM α}

/-- Nothing is told behind a failure. -/
theorem TidyAt.of_error {β : Type} {after' : β → List Value} {m' : RenderM β} {failure : Failure}
    (start : m'.start state = .done (.error failure, state)) :
    TidyAt settings provider state before m' after' := by
  intro known readable knows bound
  rw [start]
  exact ⟨rfl, rfl, le_rfl, (knows_append.1 knows).1, fun value same => nomatch same⟩

/-- Less may be told, and more may be used. -/
theorem TidyAt.weaken {before' : List Value} {after' : α → List Value}
    (tidy : TidyAt settings provider state before m after)
    (more : ∀ known, Knows known (state.all ++ before') → Knows known before)
    (less : ∀ known result, Knows known (after result) → Knows known (after' result)) :
    TidyAt settings provider state before' m after' := by
  intro known readable knows bound
  have knows' : Knows known (state.all ++ before) :=
    knows_append.2 ⟨(knows_append.1 knows).1, more known knows⟩
  refine (tidy known readable knows' bound).mono fun out known readable leaves => ?_
  exact { leaves with told := fun result same => less known result (leaves.told result same) }

theorem Tidy.weaken {before' : List Value} {after' : α → List Value}
    (tidy : Tidy settings provider before m after)
    (more : ∀ known, Knows known before' → Knows known before)
    (less : ∀ known result, Knows known (after result) → Knows known (after' result)) :
    Tidy settings provider before' m after' :=
  fun state => (tidy state).weaken (fun known knows => more known (knows_append.1 knows).2) less

/-- What a part need not know. -/
theorem Tidy.of_nil (tidy : Tidy settings provider [] m after) :
    Tidy settings provider before m after :=
  tidy.weaken (fun _ _ => knows_nil) fun _ _ knows => knows

theorem tidy_pure {result : α} (told : ∀ known, Knows known before → Knows known (after result)) :
    Tidy settings provider before (pure result) after := by
  intro state known readable knows bound
  obtain ⟨held, given⟩ := knows_append.1 knows
  exact ⟨rfl, rfl, le_rfl, held, fun value same => Except.ok.inj same ▸ told known given⟩

/-- A value that is given is told. -/
theorem tidy_value (value : Value) :
    Tidy settings provider [value] (pure value) fun value => [value] :=
  tidy_pure fun _ knows => knows

theorem tidy_throw (failure : Failure) :
    Tidy settings provider before (throw failure : RenderM α) after :=
  fun _ => TidyAt.of_error rfl

theorem TidyAt.bind {middle : α → List Value} {after : β → List Value} {next : α → RenderM β}
    (first : TidyAt settings provider state before m middle)
    (second : ∀ result behind, behind.inUse = state.inUse →
      TidyAt settings provider behind (middle result) (next result) after) :
    TidyAt settings provider state before (m >>= next) after := by
  intro known readable knows bound
  rw [start_bind]
  apply Process.Orderly.bind
  refine (first known readable knows bound).mono fun out known readable' leaves => ?_
  obtain ⟨result, behind⟩ := out
  obtain ⟨rfl, inUse, fresh, held, told⟩ := leaves
  cases result with
  | error failure => exact ⟨rfl, inUse, fresh, held, fun value same => nomatch same⟩
  | ok result =>
    have goes := second result behind inUse known readable' (knows_append.2 ⟨held, told result rfl⟩)
      fun source listed => (bound source listed).trans_le fresh
    refine goes.mono fun out known readable leaves => ?_
    exact { leaves with inUse := leaves.inUse.trans inUse, fresh := fresh.trans leaves.fresh }

theorem Tidy.bind {middle : α → List Value} {after : β → List Value} {next : α → RenderM β}
    (first : Tidy settings provider before m middle)
    (second : ∀ result, Tidy settings provider (middle result) (next result) after) :
    Tidy settings provider before (m >>= next) after :=
  fun state => (first state).bind fun result behind _ => second result behind

theorem tidy_scope : Tidy settings provider before scope fun scope => scope.values ++ before := by
  intro state known readable knows bound
  obtain ⟨held, given⟩ := knows_append.1 knows
  refine ⟨rfl, rfl, le_rfl, held, fun value same => ?_⟩
  cases same
  rw [State.all_eq, knows_append] at held
  exact knows_append.2 ⟨held.1, given⟩

/-- A change of the scope that brings no values but those that are given. -/
theorem tidy_modifyScope {f : Scope → Scope} {after : Unit → List Value}
    (kept : ∀ known scope, Knows known (scope.values ++ before) → Knows known (f scope).values)
    (told : ∀ known, Knows known before → Knows known (after ())) :
    Tidy settings provider before (modifyScope f) after := by
  intro state known readable knows bound
  have parts := knows_append.1 knows
  rw [State.all_eq, knows_append] at parts
  refine ⟨rfl, rfl, le_rfl, ?_, fun _ _ => told known parts.2⟩
  exact knows_append.2 ⟨kept known state.scope (knows_append.2 ⟨parts.1.1, parts.2⟩), parts.1.2⟩

/-- The values of a scope are those of the innermost frame and the others. -/
theorem Scope.values_modifyFrame (scope : Scope) (f : Frame → Frame) :
    (scope.modifyFrame f).values = (f scope.frame).values ++ scope.outer.flatMap Frame.values := by
  simp [Scope.values, Scope.frames, Scope.modifyFrame]

theorem tidy_saveToken (span : Option Span) :
    Tidy settings provider before (saveToken span) fun _ => before :=
  tidy_modifyScope (fun _ _ knows => (knows_append.1 knows).1) fun _ knows => knows

theorem tidy_freshIdentity : Tidy settings provider before freshIdentity fun _ => before := by
  intro state known readable knows bound
  obtain ⟨held, given⟩ := knows_append.1 knows
  exact ⟨rfl, rfl, Nat.le_succ _, held, fun _ _ => given⟩

theorem tidy_failWith (kind : Kind) (message : String) (cause : Option String) :
    Tidy settings provider before (failWith settings kind message cause : RenderM α) after :=
  fun _ => TidyAt.of_error rfl

theorem tidy_fail (kind : Kind) (message : String) :
    Tidy settings provider before (fail settings kind message : RenderM α) after :=
  tidy_failWith kind message none

/-- A part in a frame whose values are given. -/
theorem Tidy.within {frame : Frame} (tidy : Tidy settings provider [] m after)
    (given : ∀ known, Knows known before → Knows known frame.values) :
    Tidy settings provider before (within frame m) after := by
  intro state known readable knows bound
  rw [start_within]
  apply Process.Orderly.bind
  have parts := knows_append.1 knows
  rw [State.all_eq, knows_append] at parts
  have entered : Knows known
      (({ state with scope := state.scope.push frame } : State).all ++ []) := by
    rw [List.append_nil, State.all_eq]
    simp only [Scope.values, Scope.push, Scope.frames, List.flatMap_cons, knows_append]
    exact ⟨⟨given known parts.2, knows_append.1 parts.1.1⟩, parts.1.2⟩
  refine (tidy _ known readable entered bound).mono fun out known readable leaves => ?_
  obtain ⟨result, behind⟩ := out
  refine ⟨leaves.readable, leaves.inUse, leaves.fresh, ?_, leaves.told⟩
  refine leaves.held.of_subset fun value listed => ?_
  rw [State.all_eq, List.mem_append] at listed ⊢
  refine listed.imp_left fun inside => ?_
  unfold Scope.pop at inside
  split at inside
  · exact inside
  · rename_i frame outer same
    simp only [Scope.values, Scope.frames, same, List.flatMap_cons, List.mem_append] at inside ⊢
    exact .inr inside

/-- A part behind which values are still used. -/
theorem TidyAt.keeping {values : List Value}
    (tidy : TidyAt settings provider { state with inUse := values ++ state.inUse } before m after) :
    TidyAt settings provider state (values ++ before) (keeping values m) fun result =>
      values ++ after result := by
  intro known readable knows bound
  rw [start_keeping]
  apply Process.Orderly.bind
  have parts := knows_append.1 knows
  rw [State.all_eq, knows_append, knows_append] at parts
  obtain ⟨⟨scope, inUse⟩, kept, given⟩ := parts
  have entered : Knows known
      (({ state with inUse := values ++ state.inUse } : State).all ++ before) := by
    rw [State.all_eq]
    exact knows_append.2 ⟨knows_append.2 ⟨scope, knows_append.2 ⟨kept, inUse⟩⟩, given⟩
  refine (tidy known readable entered bound).mono fun out known readable leaves => ?_
  obtain ⟨result, behind⟩ := out
  have held := leaves.held
  rw [State.all_eq, leaves.inUse, knows_append, knows_append] at held
  refine ⟨leaves.readable, rfl, leaves.fresh, ?_, fun value same => ?_⟩
  · exact knows_append.2 ⟨held.1, held.2.2⟩
  · exact knows_append.2 ⟨held.2.1, leaves.told value same⟩

theorem Tidy.keeping {values : List Value} (tidy : Tidy settings provider [] m after) :
    Tidy settings provider values (keeping values m) fun result => values ++ after result := by
  intro state
  have kept := @TidyAt.keeping _ _ _ _ _ state _ values (tidy _)
  rwa [List.append_nil] at kept

/-- What goes on with an answer. -/
theorem tidyAt_ask_bind {request : Request} {next : request.Answer → RenderM α}
    (named : ∀ known, Knows known (state.all ++ before) →
      ∀ handle ∈ request.handles, handle ∈ known)
    (allowed : ∀ readable, Process.Allowed settings provider state.holding readable request)
    (oblivious : Process.Oblivious settings provider request fun answer => (next answer).start state)
    (same : ∀ readable answer, Process.readableBehind readable request answer = readable)
    (goes : ∀ answer, Process.Possible settings provider request answer →
      TidyAt settings provider state (request.told answer) (next answer) after) :
    TidyAt settings provider state before (ask request >>= next) after := by
  intro known readable knows bound
  refine ⟨?_, allowed readable, oblivious, fun known held answer possible told => ?_⟩
  · rw [List.forall_mem_append]
    exact ⟨knows_iff.2 (knows_append.1 knows).1, named known knows⟩
  · rw [same]
    rw [List.forall_mem_append] at held
    exact goes answer possible known readable
      (knows_append.2 ⟨knows_iff.1 held.1, knows_iff.1 told⟩) bound

theorem tidyAt_accept_bind {answer : Except Cause β} {next : β → RenderM α}
    (goes : ∀ result, answer = .ok result → TidyAt settings provider state before (next result) after) :
    TidyAt settings provider state before (accept settings answer >>= next) after := by
  cases answer with
  | error cause => exact TidyAt.of_error rfl
  | ok result => exact goes result rfl

/-! ## Expressions -/

/-- The value of a name is found in a frame, or told by a lookup that a frame holds. -/
theorem tidyAt_resolveIn (name : String) {frames : List Frame}
    (inside : ∀ frame ∈ frames, frame ∈ state.scope.frames) :
    TidyAt settings provider state [] (resolveIn settings name frames) fun value => [value] := by
  induction frames with
  | nil => exact tidy_fail _ _ state
  | cons frame outer ih =>
    rw [List.forall_mem_cons] at inside
    have held : ∀ value ∈ frame.values, value ∈ state.all := fun value listed =>
      List.mem_append_left _ (List.mem_flatMap.2 ⟨frame, inside.1, listed⟩)
    have found : ∀ value, (∀ known, Knows known frame.values → Knows known [value]) →
        TidyAt settings provider state [] (pure value : RenderM Value) fun value => [value] := by
      intro value reached known readable knows bound
      rw [List.append_nil] at knows
      refine ⟨rfl, rfl, le_rfl, knows, fun result same => ?_⟩
      cases same
      exact reached known (knows.of_subset held)
    rw [resolveIn]
    split
    · rename_i value here
      exact found value fun known knows => knows.of_mem (List.mem_cons_of_mem _ (mem_of_get? here))
    · split
      · rename_i handle lookup
        have base : Value.dynamic handle ∈ state.all := held _ (lookup ▸ List.mem_cons_self)
        have handle_held : Handle.dynamic handle ∈ state.holding.handles :=
          List.mem_flatMap.2 ⟨_, base, List.mem_cons_self⟩
        refine tidyAt_ask_bind ?_ (fun _ => handle_held) trivial (fun _ _ => rfl) fun answer _ => ?_
        · intro known knows other listed
          cases List.mem_singleton.1 listed
          exact (knows_append.1 knows).1 _ base _ List.mem_cons_self
        · refine tidyAt_accept_bind fun value same => ?_
          subst same
          split
          · exact (ih inside.2).weaken (fun _ _ => knows_nil) fun _ _ knows => knows
          · exact tidy_value value state
      · split
        · rename_i value here
          exact found value fun known knows => (knows.of_mem List.mem_cons_self).own here
        · exact ih inside.2

/-- The member of a value is part of it, or told by a lookup. -/
theorem tidy_member (base : Value) (key : String) :
    Tidy settings provider [base] (member settings base key) fun value => [value] := by
  unfold member
  split
  · exact tidy_fail _ _
  · exact tidy_fail _ _
  · rename_i handle
    intro state
    have asks : TidyAt settings provider { state with inUse := [.dynamic handle] ++ state.inUse } []
        (ask (.lookup handle key)) (Request.told (.lookup handle key)) := by
      have held : Handle.dynamic handle ∈
          ({ state with inUse := [.dynamic handle] ++ state.inUse } : State).holding.handles :=
        List.mem_flatMap.2 ⟨.dynamic handle, List.mem_append_right _ List.mem_cons_self,
          List.mem_cons_self⟩
      refine tidyAt_ask_bind ?_ (fun _ => held) trivial (fun _ _ => rfl) fun answer _ => ?_
      · intro known knows other listed
        cases List.mem_singleton.1 listed
        exact knows_iff.2 (knows_append.1 knows).1 _ held
      · exact tidy_pure (fun _ knows => knows) _
    refine asks.keeping.bind fun answer state _ => ?_
    rw [← bind_pure (accept settings answer)]
    refine tidyAt_accept_bind fun value same => ?_
    subst same
    exact (tidy_value value state).weaken (fun known knows => (knows_append.1 (knows_append.1 knows).2).2)
      fun _ _ knows => knows
  · refine tidy_pure fun known knows => ?_
    cases own : base.own? key with
    | none => exact knows_of_bare rfl
    | some value => exact knows.own own

/-- A function is called with what is known. -/
theorem tidy_call (handle : Nat) (args : List Value) :
    Tidy settings provider (.function handle :: args)
      (do accept settings (← ask (.call handle args))) fun value => [value] := by
  intro state
  refine tidyAt_ask_bind ?_ (fun _ => trivial) trivial (fun _ _ => rfl) fun answer _ => ?_
  · intro known knows
    exact knows_iff.2 (knows_append.1 knows).2
  · rw [← bind_pure (accept settings answer)]
    refine tidyAt_accept_bind fun value same => ?_
    subst same
    exact tidy_value value state

theorem tidy_apply (function : Value) (callee : Expr) (args : List Value) :
    Tidy settings provider (function :: args) (apply settings function callee args)
      fun value => [value] := by
  unfold apply
  split
  · exact tidy_call _ _
  · exact tidy_fail _ _

theorem add_bare (left right : Value) : (Value.add left right).handles = [] := by
  unfold Value.add
  split <;> rfl

theorem compare_bare (texts : String → String → Bool) (numbers : Float → Float → Bool)
    (left right : Value) : (Value.compare texts numbers left right).handles = [] := by
  unfold Value.compare
  split <;> rfl

/-- The result of an operator holds on to nothing. -/
theorem binary?_bare {op : BinaryOp} {left right result : Value}
    (found : Value.binary? op left right = some result) : result.handles = [] := by
  cases op with
  | add =>
    cases found
    exact add_bare left right
  | lt | gt | le | ge =>
    cases found
    exact compare_bare _ _ left right
  | eq | ne | sub | mul | div | mod =>
    cases found
    rfl
  | _ => exact absurd found (by simp [Value.binary?])

theorem tidy_applyUnary (op : UnaryOp) (operand : Value) :
    Tidy settings provider before (applyUnary settings op operand) fun value => [value] := by
  unfold applyUnary
  split
  · exact tidy_pure fun _ _ => knows_of_bare rfl
  · exact tidy_pure fun _ _ => knows_of_bare rfl
  · exact tidy_pure fun _ _ => knows_of_bare rfl
  · exact tidy_fail _ _

theorem tidy_applyBinary (op : BinaryOp) (left right : Value) :
    Tidy settings provider before (applyBinary settings op left right) fun value => [value] := by
  unfold applyBinary
  split
  · rename_i value found
    exact tidy_pure fun _ _ => knows_of_bare (binary?_bare found)
  · exact tidy_fail _ _

theorem tidy_guarded {e : Expr} {body : RenderM Value} {after : Value → List Value}
    (tidy : Tidy settings provider [] body after) :
    Tidy settings provider [] (guarded settings e body) after := by
  refine (tidy_saveToken _).bind fun _ => ?_
  split
  · exact tidy_fail _ _
  · exact tidy

theorem tidy_constant (value : Value) (bare : value.handles = []) :
    Tidy settings provider before (pure value) fun value => [value] :=
  tidy_pure fun _ _ => knows_of_bare bare

mutual

/-- An expression tells what its value holds on to. -/
theorem tidy_evaluate : ∀ e : Expr,
    Tidy settings provider [] (evaluate settings e) fun value => [value]
  | .num s value => by
    rw [evaluate]
    exact tidy_guarded (tidy_constant _ rfl)
  | .string s text => by
    rw [evaluate]
    exact tidy_guarded (tidy_constant _ rfl)
  | .atom s atom => by
    rw [evaluate]
    exact tidy_guarded (tidy_constant _ (by cases atom <;> rfl))
  | .name s name => by
    rw [evaluate]
    exact tidy_guarded fun state => tidyAt_resolveIn name fun _ listed => listed
  | .array s items => by
    rw [evaluate]
    refine tidy_guarded ((tidy_evaluateAll items).bind fun values => ?_)
    refine tidy_freshIdentity.bind fun _ => tidy_pure fun _ knows => ?_
    exact knows_array.2 knows
  | .object s properties => by
    rw [evaluate]
    refine tidy_guarded ((tidy_evaluateProperties properties []).bind fun entries => ?_)
    refine tidy_freshIdentity.bind fun _ => tidy_pure fun _ knows => ?_
    exact knows_object.2 knows
  | .dot s target property => by
    rw [evaluate]
    exact tidy_guarded ((tidy_evaluate target).bind fun base => tidy_member base property)
  | .sub s target index => by
    rw [evaluate]
    refine tidy_guarded ((tidy_evaluate target).bind fun base => ?_)
    have key : Tidy settings provider [base] (keeping [base] (evaluate settings index))
        fun key => [base] ++ [key] := (tidy_evaluate index).keeping
    refine key.bind fun key => ?_
    exact (tidy_member base key.display).weaken (fun _ knows => (knows_append.1 knows).1)
      fun _ _ knows => knows
  | .call s callee args => by
    rw [evaluate]
    refine tidy_guarded ((tidy_evaluate callee).bind fun function => ?_)
    have values : Tidy settings provider [function]
        (keeping [function] (evaluateAll settings args)) fun values => [function] ++ values :=
      (tidy_evaluateAll args).keeping
    refine values.bind fun values => (tidy_saveToken s).bind fun _ => ?_
    exact tidy_apply function callee values
  | .prefixOp s op operand => by
    rw [evaluate]
    exact tidy_guarded ((tidy_evaluate operand).bind fun value => tidy_applyUnary op value)
  | .binary s op left right => by
    rw [evaluate]
    refine tidy_guarded ((tidy_evaluate left).bind fun first => ?_)
    have second : Tidy settings provider [first] (keeping [first] (evaluate settings right))
        fun value => [first] ++ [value] := (tidy_evaluate right).keeping
    have only : Tidy settings provider [first] (keeping [first] (evaluate settings right))
        fun value => [value] :=
      second.weaken (fun _ knows => knows) fun _ _ knows => (knows_append.1 knows).2
    have itself : Tidy settings provider [first] (pure first) fun value => [value] :=
      tidy_pure fun _ knows => knows
    split
    · split
      · exact only
      · exact itself
    · split
      · exact itself
      · exact only
    · exact second.bind fun value => tidy_applyBinary _ first value
  | .conditional s test yes no => by
    rw [evaluate]
    refine tidy_guarded ((tidy_evaluate test).bind fun value => ?_)
    split
    · exact (tidy_evaluate yes).of_nil
    · exact (tidy_evaluate no).of_nil
  | .regexp .. | .new .. | .postfixOp .. | .assign .. | .seq .. | .function .. => by
    rw [evaluate]
    exact tidy_guarded (tidy_fail _ _)

theorem tidy_evaluateAll : ∀ items : List Expr,
    Tidy settings provider [] (evaluateAll settings items) fun values => values
  | [] => tidy_pure fun _ knows => knows
  | e :: rest => by
    rw [evaluateAll]
    refine (tidy_evaluate e).bind fun value => ?_
    have others : Tidy settings provider [value] (keeping [value] (evaluateAll settings rest))
        fun values => [value] ++ values := (tidy_evaluateAll rest).keeping
    exact others.bind fun values => tidy_pure fun _ knows => knows

theorem tidy_evaluateProperties : ∀ (properties : List Property) (entries : List (String × Value)),
    Tidy settings provider (entries.map (·.2)) (evaluateProperties settings entries properties)
      fun entries => entries.map (·.2)
  | [], entries => tidy_pure fun _ knows => knows
  | .init key value :: rest, entries => by
    rw [evaluateProperties]
    have next : Tidy settings provider (entries.map (·.2))
        (keeping (entries.map (·.2)) (evaluate settings value))
        fun value => entries.map (·.2) ++ [value] := (tidy_evaluate value).keeping
    refine next.bind fun value => ?_
    refine (tidy_evaluateProperties rest (Table.put entries key value)).weaken (fun _ knows => ?_)
      fun _ _ knows => knows
    exact (knows_append.1 knows).1.put (knows_append.1 knows).2 key
  | .getter key fn :: rest, entries => by
    rw [evaluateProperties]
    exact tidy_fail _ _
  | .setter key fn :: rest, entries => by
    rw [evaluateProperties]
    exact tidy_fail _ _

end

end RenderM

end Stencil.Render
