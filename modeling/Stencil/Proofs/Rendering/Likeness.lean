import Stencil.Proofs.Rendering.Shape
import Stencil.Proofs.Rendering.Twins
/-!
# Renderings that cannot tell an array from a stream

A part of a rendering runs alike on twin data when it has the same outcome on both sides, and leaves
behind frames that are twins still. This is so for results, failures, questions and whatever is put
together of them. It holds as long as the stream is asked for once: who asks again finds it consumed.
-/

set_option autoImplicit false

namespace Stencil.Render

open Stencil.Error (Kind)
open Stencil.Stream (Item)
open Stencil.Syntax
open Stencil.Text (Span)

/-- A collection of values that is an array on one side and a stream on the other, and the path to it
in the data. -/
structure Swap where
  path : List String
  identity : Nat
  values : List Value
  handle : Nat

namespace Swap

variable (swap : Swap)

/-- The collection as an array. -/
def array : Value := .array swap.identity swap.values

/-- The collection as a stream. -/
def stream : Value := .stream swap.handle

/-- What the stream gives. -/
def script : Script := swap.values.map fun value => .ok { value }

end Swap

namespace Process

variable {α : Type} {provider : Provider}

/-- How often a stream was asked for does not become less. -/
theorem asked_le (p : Process α) (v : View) (stream : Nat) :
    v.asked stream ≤ (p.outcome provider v).2.asked stream := by
  induction p generalizing v with
  | done result => exact le_rfl
  | ask holding request next ih =>
    refine le_trans ?_ (ih _ _)
    cases request with
    | take source handle =>
      have more : v.asked stream ≤ (v.askedFor handle).asked stream := by
        by_cases same : stream = handle
        · subst same
          simp [View.askedFor]
        · simp [View.askedFor, same]
      unfold View.answer
      dsimp only
      split <;> exact more
    | pull source =>
      unfold View.answer
      dsimp only
      split <;> exact le_rfl
    | _ => exact le_rfl

end Process

/-- A question that is about no source gets the same answer in every view. -/
theorem View.answer_plain (provider : Provider) {request : Request} (apart : request.source? = none) :
    ∃ answer, ∀ v : View, v.answer provider request = (answer, v) := by
  cases request <;> first | exact ⟨_, fun _ => rfl⟩ | exact nomatch apart

namespace RenderM

variable {α β : Type}

/-- The outcome of one part behind another. -/
theorem outcome_start_bind (provider : Provider) (m : RenderM α) (next : α → RenderM β) (state : State)
    (v : View) :
    ((m >>= next).start state).outcome provider v =
      (onward next ((m.start state).outcome provider v).1).outcome provider
        ((m.start state).outcome provider v).2 := by
  rw [start_bind, Process.outcome_bind]

/-- Whether two results are both failures, and the same one, or results that correspond. -/
inductive Agree (rel : α → α → Prop) : Except Failure α → Except Failure α → Prop
  | ok {result result' : α} (related : rel result result') : Agree rel (.ok result) (.ok result')
  | error (failure : Failure) : Agree rel (.error failure) (.error failure)

/-- Whether two renderings stand at the same place: their frames are twins, and what they see is the
same but for the stream, and for the sources of a hole, which they do not read. -/
structure Linked (swap : Swap) (hole : Set Nat) (state state' : State) (v v' : View) : Prop where
  scopes : ScopeTwins swap.array swap.stream swap.path state.scope state'.scope
  fresh : state'.fresh = state.fresh
  below : ∀ source ∈ hole, source < state.fresh
  sources : ∀ source, source ∉ hole → v'.sources source = v.sources source
  unopened : ∀ source, state.fresh ≤ source → v.sources source = none
  streams : ∀ stream, (stream = swap.handle → v'.asked stream = 0) →
    v'.streams stream = v.streams stream
  script : v'.asked swap.handle = 0 → v'.streams swap.handle = some swap.script

/-- Whether the sources of the hole are what they were for the one side, and some of them for the
other. -/
structure Kept (hole still : Set Nat) (v v' w w' : View) : Prop where
  here : ∀ source ∈ hole, w.sources source = v.sources source
  there : ∀ source ∈ still, w'.sources source = v'.sources source

theorem Kept.refl (hole still : Set Nat) (v v' : View) : Kept hole still v v' v v' :=
  ⟨fun _ _ => rfl, fun _ _ => rfl⟩

theorem Kept.trans {hole still : Set Nat} {v v' w w' x x' : View} (first : Kept hole still v v' w w')
    (second : Kept hole still w w' x x') : Kept hole still v v' x x' :=
  ⟨fun source listed => (second.here source listed).trans (first.here source listed),
    fun source listed => (second.there source listed).trans (first.there source listed)⟩

/-- What two renderings come to that run alike. -/
structure After (swap : Swap) (hole still : Set Nat) (rel : α → α → Prop) (fresh : Nat) (v v' : View)
    (out out' : (Except Failure α × State) × View) : Prop where
  agree : Agree rel out.1.1 out'.1.1
  linked : Linked swap hole out.1.2 out'.1.2 out.2 out'.2
  grown : fresh ≤ out.1.2.fresh
  kept : Kept hole still v v' out.2 out'.2

variable {swap : Swap} {provider : Provider}

/-- Whether two parts of renderings run alike from two states, unless the stream is asked for twice. -/
def AlikeAt (swap : Swap) (provider : Provider) (rel : α → α → Prop) (hole still : Set Nat)
    (state state' : State) (v v' : View) (m m' : RenderM α) : Prop :=
  2 ≤ ((m'.start state').outcome provider v').2.asked swap.handle ∨
    After swap hole still rel state.fresh v v' ((m.start state).outcome provider v)
      ((m'.start state').outcome provider v')

/-- Whether two parts of renderings run alike. -/
def Alike (swap : Swap) (provider : Provider) (rel : α → α → Prop) (m m' : RenderM α) : Prop :=
  ∀ hole state state' v v', Linked swap hole state state' v v' →
    AlikeAt swap provider rel hole hole state state' v v' m m'

section

variable {hole still : Set Nat} {state state' : State} {v v' : View} {rel weaker : α → α → Prop}
  {m m' : RenderM α}

theorem AlikeAt.bind {goal : β → β → Prop} {next next' : α → RenderM β}
    (first : AlikeAt swap provider rel hole still state state' v v' m m')
    (rest : ∀ result result' behind behind' w w', rel result result' →
      Linked swap hole behind behind' w w' → state.fresh ≤ behind.fresh → Kept hole still v v' w w' →
      AlikeAt swap provider goal hole still behind behind' w w' (next result) (next' result')) :
    AlikeAt swap provider goal hole still state state' v v' (m >>= next) (m' >>= next') := by
  unfold AlikeAt at first ⊢
  rw [outcome_start_bind, outcome_start_bind]
  generalize (m.start state).outcome provider v = out at *
  generalize (m'.start state').outcome provider v' = out' at *
  obtain ⟨⟨result, behind⟩, w⟩ := out
  obtain ⟨⟨result', behind'⟩, w'⟩ := out'
  rcases first with twice | ⟨agree, linked, grown, kept⟩
  · exact .inl (twice.trans (Process.asked_le _ _ _))
  · cases agree with
    | error failure => exact .inr ⟨.error failure, linked, grown, kept⟩
    | @ok result result' related =>
      rcases rest result result' behind behind' w w' related linked grown kept with twice | after
      · exact .inl twice
      · exact .inr ⟨after.agree, after.linked, grown.trans after.grown, kept.trans after.kept⟩

theorem AlikeAt.of_subset {less : Set Nat} (alike : AlikeAt swap provider rel hole still state state' v v' m m')
    (part : less ⊆ still) : AlikeAt swap provider rel hole less state state' v v' m m' :=
  alike.imp_right fun after =>
    { after with kept := ⟨after.kept.here, fun source listed => after.kept.there source (part listed)⟩ }

theorem AlikeAt.mono (alike : AlikeAt swap provider rel hole still state state' v v' m m')
    (implied : ∀ result result', rel result result' → weaker result result') :
    AlikeAt swap provider weaker hole still state state' v v' m m' := by
  refine alike.imp_right fun after => ?_
  obtain ⟨agree, behind, fresh, kept⟩ := after
  refine ⟨?_, behind, fresh, kept⟩
  generalize ((m.start state).outcome provider v).1.1 = result at *
  generalize ((m'.start state').outcome provider v').1.1 = result' at *
  cases agree with
  | ok related => exact .ok (implied _ _ related)
  | error failure => exact .error failure

theorem Alike.bind {goal : β → β → Prop} {next next' : α → RenderM β}
    (first : Alike swap provider rel m m')
    (rest : ∀ result result', rel result result' → Alike swap provider goal (next result) (next' result')) :
    Alike swap provider goal (m >>= next) (m' >>= next') :=
  fun hole state state' v v' linked => (first hole state state' v v' linked).bind
    fun result result' behind behind' w w' related linked _ _ =>
      rest result result' related hole behind behind' w w' linked

theorem Alike.mono (alike : Alike swap provider rel m m')
    (implied : ∀ result result', rel result result' → weaker result result') :
    Alike swap provider weaker m m' :=
  fun hole state state' v v' linked => (alike hole state state' v v' linked).mono implied

/-- Parts that ask nothing run alike when they leave the same result, and frames that are twins. -/
theorem Alike.of_done
    (done : ∀ state state' : State, ScopeTwins swap.array swap.stream swap.path state.scope state'.scope →
      state'.fresh = state.fresh →
      ∃ result result' behind behind', m.start state = .done (result, behind) ∧
        m'.start state' = .done (result', behind') ∧ Agree rel result result' ∧
        ScopeTwins swap.array swap.stream swap.path behind.scope behind'.scope ∧
        behind'.fresh = behind.fresh ∧ state.fresh ≤ behind.fresh) :
    Alike swap provider rel m m' := by
  intro hole state state' v v' linked
  obtain ⟨result, result', behind, behind', same, same', agree, scopes, fresh, grown⟩ :=
    done state state' linked.scopes linked.fresh
  refine .inr ?_
  rw [same, same']
  exact ⟨agree,
    { linked with
      scopes, fresh
      below := fun source listed => (linked.below source listed).trans_le grown
      unopened := fun source above => linked.unopened source (grown.trans above) },
    grown, .refl _ _ _ _⟩

theorem alike_pure {result result' : α} (related : rel result result') :
    Alike swap provider rel (pure result) (pure result') :=
  .of_done fun state state' scopes fresh =>
    ⟨_, _, state, state', rfl, rfl, .ok related, scopes, fresh, le_rfl⟩

theorem alike_throw (failure : Failure) : Alike swap provider rel (throw failure) (throw failure) :=
  .of_done fun state state' scopes fresh =>
    ⟨_, _, state, state', rfl, rfl, .error failure, scopes, fresh, le_rfl⟩

theorem alike_freshIdentity : Alike swap provider Eq freshIdentity freshIdentity :=
  .of_done fun state state' scopes fresh =>
    ⟨_, _, _, _, rfl, rfl, .ok fresh.symm, scopes, by rw [fresh], Nat.le_succ _⟩

/-- A change of the scope that keeps twins twins. -/
theorem alike_modifyScope {f f' : Scope → Scope}
    (keeps : ∀ scope scope' : Scope, ScopeTwins swap.array swap.stream swap.path scope scope' →
      ScopeTwins swap.array swap.stream swap.path (f scope) (f' scope')) :
    Alike swap provider Eq (modifyScope f) (modifyScope f') :=
  .of_done fun _ _ scopes fresh =>
    ⟨_, _, _, _, rfl, rfl, .ok rfl, keeps _ _ scopes, fresh, le_rfl⟩

/-- The scopes are twins. -/
theorem alike_scope :
    Alike swap provider (ScopeTwins swap.array swap.stream swap.path) scope scope :=
  .of_done fun state state' scopes fresh =>
    ⟨_, _, state, state', rfl, rfl, .ok scopes, scopes, fresh, le_rfl⟩

theorem alike_ask {request : Request} (apart : request.source? = none) :
    Alike swap provider Eq (ask request) (ask request) := by
  intro hole state state' v v' linked
  obtain ⟨answer, same⟩ := View.answer_plain provider apart
  refine .inr ?_
  rw [start_ask, start_ask]
  simp only [Process.outcome, same]
  exact ⟨.ok rfl, linked, le_rfl, .refl _ _ _ _⟩

/-- Parts run alike in another state, when the frames behind them are put back. -/
theorem AlikeAt.around (alike : AlikeAt swap provider rel hole still state state' v v' m m') (restore restore' : State → State)
    (scopes : ∀ behind behind' : State,
      ScopeTwins swap.array swap.stream swap.path behind.scope behind'.scope →
      ScopeTwins swap.array swap.stream swap.path (restore behind).scope (restore' behind').scope)
    (kept : ∀ behind, (restore behind).fresh = behind.fresh)
    (kept' : ∀ behind, (restore' behind).fresh = behind.fresh) :
    2 ≤ (((m'.start state').bind fun out => .done (out.1, restore' out.2)).outcome provider
        v').2.asked swap.handle ∨
      After swap hole still rel state.fresh v v'
        (((m.start state).bind fun out => .done (out.1, restore out.2)).outcome provider v)
        (((m'.start state').bind fun out => .done (out.1, restore' out.2)).outcome provider v') := by
  rw [Process.outcome_bind, Process.outcome_bind]
  refine alike.imp_right fun after => ⟨after.agree, ?_, ?_, after.kept⟩
  · exact
      { after.linked with
        scopes := scopes _ _ after.linked.scopes
        fresh := by
          show (restore' _).fresh = (restore _).fresh
          rw [kept, kept']
          exact after.linked.fresh
        below := fun source listed => by
          show source < (restore _).fresh
          rw [kept]
          exact after.linked.below source listed
        unopened := fun source above => after.linked.unopened source (by
          have above : (restore _).fresh ≤ source := above
          rwa [kept] at above) }
  · show state.fresh ≤ (restore _).fresh
    rw [kept]
    exact after.grown

/-- A part in a frame of its own. -/
theorem Alike.within (alike : Alike swap provider rel m m') {frame frame' : Frame}
    (twins : FrameTwins swap.array swap.stream swap.path frame frame') :
    Alike swap provider rel (within frame m) (within frame' m') := by
  intro hole state state' v v' linked
  unfold AlikeAt
  rw [start_within, start_within]
  let leave (behind : State) : State := { behind with scope := behind.scope.pop }
  have linked : Linked swap hole { state with scope := state.scope.push frame }
      { state' with scope := state'.scope.push frame' } v v' :=
    { linked with scopes := linked.scopes.push twins }
  exact (alike hole _ _ v v' linked).around leave leave (fun _ _ => ScopeTwins.pop) (fun _ => rfl)
    fun _ => rfl

theorem Alike.keeping (alike : Alike swap provider rel m m') (values values' : List Value) :
    Alike swap provider rel (keeping values m) (keeping values' m') := by
  intro hole state state' v v' linked
  unfold AlikeAt
  rw [start_keeping, start_keeping]
  have linked : Linked swap hole { state with inUse := values ++ state.inUse }
      { state' with inUse := values' ++ state'.inUse } v v' := { linked with }
  exact (alike hole _ _ v v' linked).around (fun behind => { behind with inUse := state.inUse })
    (fun behind => { behind with inUse := state'.inUse }) (fun _ _ scopes => scopes) (fun _ => rfl)
    fun _ => rfl

end

end RenderM

end Stencil.Render
