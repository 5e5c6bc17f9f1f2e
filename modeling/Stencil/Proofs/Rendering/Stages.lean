import Mathlib.Algebra.Order.BigOperators.Group.Finset
import Stencil.Proofs.Rendering.Abandon
import Stencil.Render.Stage
/-!
# Renderings that run together

Renderings that have no stream in common run together as each runs alone: whatever the order of
their turns and of those of the producers, a rendering that has ended has the outcome that it has in
its view of the world at the start. What holds at every moment is that each rendering has a view of
the world (`Stage.Runs`); no turn changes that.
-/

set_option autoImplicit false

namespace Stencil.Render

open Stencil.Stream
open Stencil.Syntax (Template)

section

variable {α : Type} {settings : Settings} {provider : Provider} {world : World} {task : Nat}
  {known : Set Handle} {readable : Set Nat} {v : View}

/-! ## Turns of producers -/

/-- What a producer changes of the world. -/
theorem produce_eq (number channel : Nat) (producer : Producer)
    (there : world.producers[number]? = some (channel, producer)) :
    ∃ trace, world.produce number =
      { world.setChannel channel (producer.proceed (world.channel channel)).channel with
        producers := world.producers.set number
          (channel, (producer.proceed (world.channel channel)).producer)
        trace } := by
  have noted : ∀ (settled : List (Step × Outcome)) (world : World), ∃ trace,
      settled.foldl (fun world entry => world.note (.settled entry.1 entry.2)) world =
        { world with trace } := by
    intro settled
    induction settled with
    | nil => exact fun world => ⟨world.trace, rfl⟩
    | cons entry rest ih =>
      intro world
      obtain ⟨trace, same⟩ := ih (world.note (.settled entry.1 entry.2))
      exact ⟨trace, same⟩
  unfold World.produce
  rw [there]
  obtain ⟨trace, same⟩ := noted (producer.proceed (world.channel channel)).settled
    { world.setChannel channel (producer.proceed (world.channel channel)).channel with
      producers := world.producers.set number
        (channel, (producer.proceed (world.channel channel)).producer) }
  exact ⟨trace, same⟩

theorem produce_none {number : Nat} (absent : world.producers[number]? = none) :
    world.produce number = world := by
  unfold World.produce
  rw [absent]

/-- A turn of a producer changes nothing that matters. -/
theorem sound_produce (sound : world.Sound settings provider) (number : Nat) :
    (world.produce number).Sound settings provider := by
  cases there : world.producers[number]? with
  | none => rwa [produce_none there]
  | some entry =>
    obtain ⟨channel, producer⟩ := entry
    obtain rfl := sound.paired number channel producer there
    obtain ⟨trace, same⟩ := produce_eq channel channel producer there
    rw [same]
    refine ⟨fun place other number' here there' => ?_, fun number' channel' producer' here => ?_,
      sound.waiting, sound.coherent⟩
    · refine sound.exclusive place other number' ?_ ?_
      · cases place <;> exact here
      · cases other <;> exact there'
    · dsimp only at here
      rw [List.getElem?_set] at here
      split at here
      · rename_i same
        split at here
        · cases here
          exact same
        · exact nomatch here
      · exact sound.paired number' channel' producer' here

/-- A turn of a producer does not change what supplies give. -/
theorem supplies_produce (sound : world.Sound settings provider) (number : Nat) {supply : Supply}
    {script : Script} (supplies : Supplies world supply script) :
    Supplies (world.produce number) supply script := by
  cases there : world.producers[number]? with
  | none => rwa [produce_none there]
  | some entry =>
    obtain ⟨channel, producer⟩ := entry
    obtain rfl := sound.paired number channel producer there
    obtain ⟨trace, same⟩ := produce_eq channel channel producer there
    rw [same]
    cases supplies with
    | script => exact .script _ _
    | values part => exact .values part
    | @channel other producer' _ inside produced promises =>
      have inside' : ∀ other, other < world.channels.length →
          other < (world.channels.set channel
            (producer.proceed (world.channel channel)).channel).length := by
        intro other inside
        rwa [List.length_set]
      by_cases differs : other = channel
      · subst differs
        cases produced.symm.trans there
        refine @Supplies.channel _ _ (producer.proceed (world.channel other)).producer _
          (inside' other inside) ?_ ?_
        · exact (List.getElem?_set_self (List.getElem?_eq_some_iff.1 there).1)
        · have here : World.channel { world.setChannel other
              (producer.proceed (world.channel other)).channel with
              producers := world.producers.set other
                (other, (producer.proceed (world.channel other)).producer)
              trace } other = (producer.proceed (world.channel other)).channel :=
            World.channel_setChannel_self world _ inside
          rw [here]
          exact promises.proceed
      · refine @Supplies.channel _ _ producer' _ (inside' other inside) ?_ ?_
        · exact (List.getElem?_set_ne (Ne.symm differs)).trans produced
        · have here : World.channel { world.setChannel channel
              (producer.proceed (world.channel channel)).channel with
              producers := world.producers.set channel
                (channel, (producer.proceed (world.channel channel)).producer)
              trace } other = world.channel other :=
            World.channel_setChannel_of_ne world _ differs
          rw [here]
          exact promises

/-- A turn of a producer lets a consumer neither use nor accept an item. -/
theorem held_produce (number other : Nat) :
    (world.channel other).held = none → ((world.produce number).channel other).held = none := by
  intro free
  cases there : world.producers[number]? with
  | none => rwa [produce_none there]
  | some entry =>
    obtain ⟨channel, producer⟩ := entry
    obtain ⟨trace, same⟩ := produce_eq number channel producer there
    rw [same]
    show (World.channel (world.setChannel channel _) other).held = none
    by_cases differs : other = channel
    · subst differs
      by_cases inside : other < world.channels.length
      · rw [World.channel_setChannel_self world _ inside, Promises.proceed_held]
        exact free
      · have absent : (world.channels.set other
            (producer.proceed (world.channel other)).channel)[other]? = none := by
          rw [List.getElem?_eq_none_iff, List.length_set]
          omega
        show ((world.channels.set other _)[other]?.getD {}).held = none
        rw [absent]
        rfl
    · rw [World.channel_setChannel_of_ne world _ differs]
      exact free

theorem supply?_produce (number : Nat) (place : Place) :
    (world.produce number).supply? place = world.supply? place := by
  cases there : world.producers[number]? with
  | none => rw [produce_none there]
  | some entry =>
    obtain ⟨trace, same⟩ := produce_eq number entry.1 entry.2 there
    rw [same]
    cases place <;> rfl

theorem producers_produce (number other : Nat) :
    (world.produce number).producers[other]? =
      if other = number then (world.producers[number]?).map fun entry =>
        (entry.1, (entry.2.proceed (world.channel entry.1)).producer)
      else world.producers[other]? := by
  cases there : world.producers[number]? with
  | none =>
    rw [produce_none there]
    split
    · rename_i same
      exact same ▸ there
    · rfl
  | some entry =>
    obtain ⟨trace, same⟩ := produce_eq number entry.1 entry.2 there
    rw [same]
    show (world.producers.set number _)[other]? = _
    split
    · rename_i same
      subst same
      exact List.getElem?_set_self (List.getElem?_eq_some_iff.1 there).1
    · rename_i differs
      exact List.getElem?_set_ne (Ne.symm differs)

theorem length_produce (number : Nat) :
    (world.produce number).producers.length = world.producers.length := by
  cases there : world.producers[number]? with
  | none => rw [produce_none there]
  | some entry =>
    obtain ⟨trace, same⟩ := produce_eq number entry.1 entry.2 there
    rw [same]
    exact List.length_set

/-- A producer changes no channel but its own. -/
theorem channel_produce (sound : world.Sound settings provider) {number other : Nat}
    (differs : other ≠ number) : (world.produce number).channel other = world.channel other := by
  cases there : world.producers[number]? with
  | none => rw [produce_none there]
  | some entry =>
    obtain ⟨channel, producer⟩ := entry
    obtain rfl := sound.paired number channel producer there
    obtain ⟨trace, same⟩ := produce_eq channel channel producer there
    rw [same]
    exact World.channel_setChannel_of_ne world _ differs

theorem waiting_produce (number : Nat) :
    (world.produce number).waiting = world.waiting := by
  cases there : world.producers[number]? with
  | none => rw [produce_none there]
  | some entry =>
    obtain ⟨trace, same⟩ := produce_eq number entry.1 entry.2 there
    rw [same]
    rfl

/-- No process notices the turn of a producer. -/
theorem Sees.produce {p : Process α} (sound : world.Sound settings provider)
    (sees : Sees settings provider world task p known readable v) (number : Nat) :
    Sees settings provider (world.produce number) task p known readable v := by
  refine ⟨sees.orderly, ?_, fun waits => ?_⟩
  · exact sees.fits.of_same (fun _ listed => listed) fun place _ =>
      ⟨supply?_produce number place, rfl, fun _ _ _ gives => supplies_produce sound number gives⟩
  · rw [waiting_produce] at waits
    obtain ⟨holding, request, next, same, waits⟩ := sees.waits waits
    refine ⟨holding, request, next, same, ?_⟩
    cases request with
    | pull source =>
      obtain ⟨supply', there, waits⟩ := waits
      exact ⟨supply', (supply?_produce number (.source (task, source))).trans there,
        fun other same => held_produce number other (waits other same)⟩
    | _ => exact waits

end

namespace Stage

variable {α : Type} {settings : Settings} {provider : Provider} {stage : Stage α}
  {result : Nat → α}

/-! ## Moves -/

/-- Whether each rendering of a stage has a view of the world in which it has its result. -/
structure RunsWith (settings : Settings) (provider : Provider) (stage : Stage α)
    (result : Nat → α) (known : Nat → Set Handle) (readable : Nat → Set Nat)
    (v : Nat → View) : Prop where
  sound : stage.world.Sound settings provider
  apart : ∀ i j number, i ≠ j → Handle.stream number ∈ known i → Handle.stream number ∉ known j
  sees : ∀ (i : Nat) (p : Process α), stage.renderings[i]? = some p →
    Sees settings provider stage.world i p (known i) (readable i) (v i)
  rests : ∀ (i : Nat) (p : Process α), stage.renderings[i]? = some p → p.Rests
  result : ∀ (i : Nat) (p : Process α), stage.renderings[i]? = some p → (p.outcome provider (v i)).1 = result i

/-! ## What is left to do -/

/-- How much a rendering still has to ask and to wait. -/
def load (provider : Provider) (stage : Stage α) (v : Nat → View) (i : Nat) : Nat :=
  ((stage.renderings[i]?).map fun p => weight provider stage.world i p (v i)).getD 0

/-- How much a producer still has to do. -/
def duty (stage : Stage α) (number : Nat) : Nat :=
  ((stage.world.producers[number]?).map fun entry => Promises.patience entry.2).getD 0

/-- How much all renderings and producers still have to do. -/
def potential (provider : Provider) (stage : Stage α) (v : Nat → View) : Nat :=
  (∑ i ∈ Finset.range stage.renderings.length, stage.load provider v i) +
    ∑ number ∈ Finset.range stage.world.producers.length, stage.duty number

/-- Whether a rendering waits for the producer of a channel, which has something to do. -/
def StuckAt (stage : Stage α) (i number : Nat) : Prop :=
  ∃ holding source next producer,
    stage.renderings[i]? = some (.ask holding (.pull source) next) ∧
    stage.world.source? (i, source) = some (.channel number) ∧
    stage.world.producers[number]? = some (number, producer) ∧
    Promises.Eager (stage.world.channel number) producer

/-- Whether no rendering or producer has more to do than before. -/
structure Advances (provider : Provider) (stage stage' : Stage α) (v v' : Nat → View) : Prop where
  renderings : stage'.renderings.length = stage.renderings.length
  producers : stage'.world.producers.length = stage.world.producers.length
  loads : ∀ i, stage'.load provider v' i ≤ stage.load provider v i
  duties : ∀ number, stage'.duty number ≤ stage.duty number
  ended : ∀ (i : Nat) (result : α), stage.renderings[i]? = some (.done result) →
    stage'.renderings[i]? = some (.done result)

namespace Advances

variable {stage' stage'' : Stage α} {v v' v'' : Nat → View}

theorem refl (provider : Provider) (stage : Stage α) (v : Nat → View) :
    Advances provider stage stage v v :=
  ⟨rfl, rfl, fun _ => le_rfl, fun _ => le_rfl, fun _ _ here => here⟩

theorem trans (first : Advances provider stage stage' v v')
    (second : Advances provider stage' stage'' v' v'') : Advances provider stage stage'' v v'' where
  renderings := second.renderings.trans first.renderings
  producers := second.producers.trans first.producers
  loads i := (second.loads i).trans (first.loads i)
  duties number := (second.duties number).trans (first.duties number)
  ended i result here := second.ended i result (first.ended i result here)

theorem potential_le (advances : Advances provider stage stage' v v') :
    stage'.potential provider v' ≤ stage.potential provider v := by
  unfold potential
  rw [advances.renderings, advances.producers]
  exact Nat.add_le_add (Finset.sum_le_sum fun i _ => advances.loads i)
    (Finset.sum_le_sum fun number _ => advances.duties number)

theorem potential_lt_of_load (advances : Advances provider stage stage' v v') {i : Nat}
    (less : stage'.load provider v' i < stage.load provider v i) :
    stage'.potential provider v' < stage.potential provider v := by
  have inside : i < stage.renderings.length := by
    by_contra outside
    have absent : stage.renderings[i]? = none := List.getElem?_eq_none_iff.2 (Nat.le_of_not_lt outside)
    simp [load, absent] at less
  unfold potential
  rw [advances.renderings, advances.producers]
  exact Nat.add_lt_add_of_lt_of_le
    (Finset.sum_lt_sum (fun i _ => advances.loads i) ⟨i, Finset.mem_range.2 inside, less⟩)
    (Finset.sum_le_sum fun number _ => advances.duties number)

theorem potential_lt_of_duty (advances : Advances provider stage stage' v v') {number : Nat}
    (less : stage'.duty number < stage.duty number) :
    stage'.potential provider v' < stage.potential provider v := by
  have inside : number < stage.world.producers.length := by
    by_contra outside
    have absent : stage.world.producers[number]? = none :=
      List.getElem?_eq_none_iff.2 (Nat.le_of_not_lt outside)
    simp [duty, absent] at less
  unfold potential
  rw [advances.renderings, advances.producers]
  exact Nat.add_lt_add_of_le_of_lt (Finset.sum_le_sum fun i _ => advances.loads i)
    (Finset.sum_lt_sum (fun number _ => advances.duties number)
      ⟨number, Finset.mem_range.2 inside, less⟩)

end Advances

/-! ## What is asked -/

/-- What a rendering asks and is answered in a move. -/
def exchanged (provider : Provider) (stage : Stage α) (move : Option Move) (i : Nat) : List Exchange :=
  match move with
  | some (.rendering number) =>
    if i = number then
      ((stage.renderings[i]?).map fun p => p.exchanges (World.host provider) i stage.world).getD []
    else []
  | _ => []

/-- What a rendering asks and is answered in some moves. -/
def exchangedIn (provider : Provider) : List Move → Stage α → Nat → List Exchange
  | [], _, _ => []
  | move :: rest, stage, i =>
    stage.exchanged provider (some move) i ++ exchangedIn provider rest (stage.move provider move) i

/-- Whether the views of a stage go along with what its renderings ask: no outcome changes, and what was
asked for is counted. -/
structure Watches (provider : Provider) (stage stage' : Stage α) (history : Nat → List Exchange)
    (v v' : Nat → View) : Prop where
  outcome : ∀ (i : Nat) (p : Process α), stage.renderings[i]? = some p →
    ∃ p', stage'.renderings[i]? = some p' ∧ p'.outcome provider (v' i) = p.outcome provider (v i)
  asked : ∀ i stream, (v' i).asked stream = (v i).asked stream + askings stream (history i)

namespace Watches

variable {stage' stage'' : Stage α} {v v' v'' : Nat → View} {history later : Nat → List Exchange}

/-- A change of the world alone. -/
theorem of_world (provider : Provider) (stage : Stage α) (world : World) (v : Nat → View) :
    Watches provider stage { stage with world } (fun _ => []) v v :=
  ⟨fun _ p here => ⟨p, here, rfl⟩, fun _ _ => rfl⟩

theorem trans (first : Watches provider stage stage' history v v')
    (second : Watches provider stage' stage'' later v' v'') :
    Watches provider stage stage'' (fun i => history i ++ later i) v v'' where
  outcome i p here := by
    obtain ⟨p', here', same⟩ := first.outcome i p here
    obtain ⟨p'', here'', same'⟩ := second.outcome i p' here'
    exact ⟨p'', here'', same'.trans same⟩
  asked i stream := by
    rw [second.asked, first.asked, askings_append, Nat.add_assoc]

end Watches

/-! ## One move -/

/-- What a turn or what follows it does to a stage. -/
structure Goes (settings : Settings) (provider : Provider) (stage : Stage α) (result : Nat → α)
    (v : Nat → View) (move : Option Move) (stage' : Stage α) (known' : Nat → Set Handle)
    (readable' : Nat → Set Nat) (v' : Nat → View) : Prop where
  runs : RunsWith settings provider stage' result known' readable' v'
  advances : Advances provider stage stage' v v'
  watches : Watches provider stage stage' (stage.exchanged provider move) v v'
  polled : ∀ i, move = some (.rendering i) → i < stage.renderings.length →
    stage'.load provider v' i < stage.load provider v i ∨
      (∃ result, stage'.renderings[i]? = some (.done result)) ∨ ∃ number, stage'.StuckAt i number
  stuck : ∀ i number, stage.StuckAt i number → move ≠ some (.rendering i) →
    move ≠ some (.producer number) ∧ stage'.StuckAt i number ∨
      move = some (.producer number) ∧ stage'.duty number < stage.duty number

variable {known : Nat → Set Handle} {readable : Nat → Set Nat} {v : Nat → View}

theorem RunsWith.abandon (runs : RunsWith settings provider stage result known readable v) :
    ∃ known', Goes settings provider stage result v none (stage.abandon provider) known' readable v := by
  obtain ⟨kept, sheds, used, keepers⟩ := sheds_abandon runs.sound stage.inUse
  rw [List.flatMap_append, List.forall_mem_append] at used
  refine ⟨fun i => {handle | handle ∈ known i ∧ kept handle}, ⟨?_, ?_, ?_, ?_, runs.result⟩, ?_,
    Watches.of_world provider stage _ v, (fun _ same => nomatch same), fun i number stuck _ => .inl ⟨(nomatch ·), ?_⟩⟩
  · exact runs.sound.of_sheds sheds
  · exact fun i j number differs here there => runs.apart i j number differs here.1 there.1
  · intro i p here
    refine (runs.sees i p here).of_sheds (runs.rests i p here) sheds (fun handle listed => ?_) used.2
      keepers
    refine used.1 handle (List.mem_flatMap.2 ?_)
    obtain ⟨value, inside, inner⟩ := List.mem_flatMap.1 listed
    refine ⟨value, List.mem_append_right _ ?_, inner⟩
    exact List.mem_flatMap.2 ⟨p, List.mem_of_getElem? here, inside⟩
  · exact runs.rests
  · refine ⟨rfl, congrArg List.length sheds.producers, fun i => ?_, fun number => ?_,
      fun _ _ here => here⟩
    · have same : (stage.abandon provider).load provider v i = stage.load provider v i := by
        unfold load weight
        show ((stage.renderings[i]?).map fun p => 2 * p.questions provider (v i) +
          if i ∈ (stage.world.abandon provider stage.inUse).waiting then 0 else 1).getD 0 = _
        rw [sheds.waiting]
      exact same.le
    · have same : (stage.abandon provider).duty number = stage.duty number := by
        unfold duty
        show (((stage.world.abandon provider stage.inUse).producers[number]?).map _).getD 0 = _
        rw [sheds.producers]
      exact same.le
  · obtain ⟨holding, source, next, producer, here, there, produced, eager⟩ := stuck
    have keeps : ∀ number, Place.source (i, source) = .stream number → kept (.stream number) :=
      fun _ same => nomatch same
    refine ⟨holding, source, next, producer, here, ?_, ?_, ?_⟩
    · exact (sheds.supplies (.source (i, source)) keeps).trans there
    · exact sheds.producers ▸ produced
    · show Promises.Eager ((stage.world.abandon provider stage.inUse).channel number) producer
      rw [sheds.channels (.source (i, source)) number keeps there]
      exact eager

theorem RunsWith.produce (runs : RunsWith settings provider stage result known readable v)
    (number : Nat) :
    Goes settings provider stage result v (some (.producer number))
      (stage.turn provider (.producer number)) known readable v := by
  refine ⟨⟨sound_produce runs.sound number, runs.apart, fun i p here =>
    (runs.sees i p here).produce runs.sound number, runs.rests, runs.result⟩, ?_,
    Watches.of_world provider stage _ v, (fun i same => nomatch same), fun i other stuck _ => ?_⟩
  · refine ⟨rfl, length_produce number, fun i => ?_, fun other => ?_, fun _ _ here => here⟩
    · have same : (stage.turn provider (.producer number)).load provider v i =
          stage.load provider v i := by
        unfold load weight
        show ((stage.renderings[i]?).map fun p => 2 * p.questions provider (v i) +
          if i ∈ (stage.world.produce number).waiting then 0 else 1).getD 0 = _
        rw [waiting_produce]
      exact same.le
    · unfold duty
      show (((stage.world.produce number).producers[other]?).map _).getD 0 ≤ _
      rw [producers_produce]
      split
      · rename_i same
        subst same
        cases there : stage.world.producers[other]? with
        | none => exact le_rfl
        | some entry =>
          rcases Promises.patience_proceed entry.2 (stage.world.channel entry.1) with same | less
          · exact (congrArg Promises.patience same).le
          · exact less.le
      · exact le_rfl
  · obtain ⟨holding, source, next, producer, here, there, produced, eager⟩ := stuck
    by_cases same : other = number
    · subst same
      refine .inr ⟨rfl, ?_⟩
      unfold duty
      show (((stage.world.produce other).producers[other]?).map _).getD 0 < _
      rw [producers_produce, if_pos rfl, produced]
      exact eager
    · refine .inl ⟨fun moved => ?_, holding, source, next, producer, here, ?_, ?_, ?_⟩
      · cases moved
        exact same rfl
      · exact (supply?_produce number (.source (i, source))).trans there
      · exact (producers_produce number other).trans ((if_neg same).trans produced)
      · show Promises.Eager ((stage.world.produce number).channel other) producer
        rw [channel_produce runs.sound same]
        exact eager

/-! ## The turn of a rendering -/

/-- The stage behind the turn of a rendering, which is now as given, in a world as given. -/
def behind (stage : Stage α) (number : Nat) (p : Process α) (world : World) : Stage α :=
  { stage with renderings := stage.renderings.set number p, world }

section

variable {number : Nat} {p p' : Process α} {world' : World} {readable' : Set Nat} {v' : View}

theorem renderings_behind (found : stage.renderings[number]? = some p) :
    (stage.behind number p' world').renderings[number]? = some p' :=
  List.getElem?_set_self (List.getElem?_eq_some_iff.1 found).1

theorem renderings_behind_other {i : Nat} (differs : i ≠ number) :
    (stage.behind number p' world').renderings[i]? = stage.renderings[i]? :=
  List.getElem?_set_ne (Ne.symm differs)

/-- The rendering that had its turn, and the others. -/
theorem of_renderings_behind (found : stage.renderings[number]? = some p) {i : Nat} {q : Process α}
    (here : (stage.behind number p' world').renderings[i]? = some q) :
    i = number ∧ q = p' ∨ i ≠ number ∧ stage.renderings[i]? = some q := by
  by_cases same : i = number
  · subst same
    rw [renderings_behind found] at here
    exact .inl ⟨rfl, (Option.some.inj here).symm⟩
  · rw [renderings_behind_other same] at here
    exact .inr ⟨same, here⟩

/-- Where there is no such rendering nothing is asked. -/
theorem exchanged_none (absent : stage.renderings[number]? = none) :
    stage.exchanged provider (some (.rendering number)) = fun _ => [] := by
  funext i
  unfold exchanged
  dsimp only
  split
  · rename_i same
    rw [same, absent]
    rfl
  · rfl

/-- Only the rendering that has its turn asks. -/
theorem exchanged_some (found : stage.renderings[number]? = some p) (i : Nat) :
    stage.exchanged provider (some (.rendering number)) i =
      if i = number then p.exchanges (World.host provider) number stage.world else [] := by
  unfold exchanged
  dsimp only
  split
  · rename_i same
    rw [same, found]
    rfl
  · rfl

theorem load_some (found : stage.renderings[number]? = some p) :
    stage.load provider v number = weight provider stage.world number p (v number) := by
  unfold load
  rw [found]
  rfl

theorem load_behind (found : stage.renderings[number]? = some p) :
    (stage.behind number p' world').load provider (Function.update v number v') number =
      weight provider world' number p' v' := by
  rw [load_some (renderings_behind found), Function.update_self]
  rfl

variable (out : Polled settings provider stage.world number (known number) (v number) p (p', world')
  readable' v')

include out

theorem load_behind_other {i : Nat} (differs : i ≠ number) :
    (stage.behind number p' world').load provider (Function.update v number v') i =
      stage.load provider v i := by
  unfold load
  rw [renderings_behind_other differs, Function.update_of_ne differs]
  unfold weight
  show ((stage.renderings[i]?).map fun p => 2 * p.questions provider (v i) +
    if i ∈ world'.waiting then 0 else 1).getD 0 = _
  simp only [out.touches.waiting i differs]

/-- No outcome changes, and what the rendering has asked for is counted. -/
theorem watches_behind (found : stage.renderings[number]? = some p) :
    Watches provider stage (stage.behind number p' world')
      (stage.exchanged provider (some (.rendering number))) v (Function.update v number v') := by
  refine ⟨fun i q here => ?_, fun i stream => ?_⟩
  · by_cases same : i = number
    · subst same
      obtain rfl : p = q := Option.some.inj (found.symm.trans here)
      refine ⟨p', renderings_behind found, ?_⟩
      rw [Function.update_self]
      exact out.outcome
    · refine ⟨q, (renderings_behind_other same).trans here, ?_⟩
      rw [Function.update_of_ne same]
  · rw [exchanged_some found]
    by_cases same : i = number
    · subst same
      rw [Function.update_self, if_pos rfl]
      exact out.asked stream
    · rw [Function.update_of_ne same, if_neg same]
      rfl

/-- Each rendering has its view of the world behind the turn. -/
theorem runs_behind (runs : RunsWith settings provider stage result known readable v)
    (found : stage.renderings[number]? = some p) :
    RunsWith settings provider (stage.behind number p' world') result known
      (Function.update readable number readable') (Function.update v number v') where
  sound := out.sound
  apart := runs.apart
  sees i q here := by
    rcases of_renderings_behind found here with ⟨rfl, rfl⟩ | ⟨differs, here⟩
    · rw [Function.update_self, Function.update_self]
      exact out.sees
    · rw [Function.update_of_ne differs, Function.update_of_ne differs]
      exact (runs.sees i q here).of_touches out.touches differs
        fun stream mine => runs.apart i number stream differs mine
  rests i q here := by
    rcases of_renderings_behind found here with ⟨rfl, rfl⟩ | ⟨differs, here⟩
    · exact out.rests
    · exact runs.rests i q here
  result i q here := by
    rcases of_renderings_behind found here with ⟨rfl, rfl⟩ | ⟨differs, here⟩
    · rw [Function.update_self]
      exact (congrArg Prod.fst out.outcome).trans (runs.result i p found)
    · rw [Function.update_of_ne differs]
      exact runs.result i q here

/-- A rendering that has ended stays as it is. -/
theorem advances_behind (found : stage.renderings[number]? = some p)
    (stays : ∀ result, p = .done result → p' = .done result) :
    Advances provider stage (stage.behind number p' world') v (Function.update v number v') where
  renderings := List.length_set
  producers := congrArg List.length out.touches.producers
  loads i := by
    by_cases same : i = number
    · subst same
      rw [load_behind found, load_some found]
      rcases out.weight with less | ⟨equal, -⟩
      · exact less.le
      · exact equal.le
    · exact (load_behind_other out same).le
  duties other := by
    unfold duty
    show ((world'.producers[other]?).map _).getD 0 ≤ _
    rw [out.touches.producers]
  ended i result here := by
    by_cases same : i = number
    · subst same
      rw [renderings_behind found, stays result (Option.some.inj (found.symm.trans here))]
    · rwa [renderings_behind_other same]

/-- The rendering has less to do, or it has ended, or it waits for a producer. -/
theorem polled_behind (found : stage.renderings[number]? = some p) :
    (stage.behind number p' world').load provider (Function.update v number v') number <
        stage.load provider v number ∨
      (∃ result, (stage.behind number p' world').renderings[number]? = some (.done result)) ∨
      ∃ channel, (stage.behind number p' world').StuckAt number channel := by
  rcases out.weight with less | ⟨-, blocked⟩
  · left
    rw [load_behind found, load_some found]
    exact less
  · right
    have here := @renderings_behind _ stage _ _ p' world' found
    cases p' with
    | done result => exact .inl ⟨result, here⟩
    | ask holding request next =>
      cases request with
      | pull source =>
        obtain ⟨channel, producer, there, produced, eager⟩ := blocked
        exact .inr ⟨channel, holding, source, next, producer, here, there, produced, eager⟩
      | _ => exact blocked.elim

/-- Another rendering that waits for a producer still does. -/
theorem stuck_behind {i channel : Nat} (stuck : stage.StuckAt i channel) (differs : i ≠ number) :
    (stage.behind number p' world').StuckAt i channel := by
  obtain ⟨holding, source, next, producer, here, there, produced, eager⟩ := stuck
  have theirs : Theirs number (known number) (.source (i, source)) := differs
  refine ⟨holding, source, next, producer, (renderings_behind_other differs).trans here,
    (out.touches.supplies _ theirs).trans there, out.touches.producers ▸ produced, ?_⟩
  show Promises.Eager (world'.channel channel) producer
  rw [out.touches.channels _ channel theirs there]
  exact eager

end

theorem RunsWith.poll (honest : provider.Honest)
    (runs : RunsWith settings provider stage result known readable v) (number : Nat) :
    ∃ readable' v', Goes settings provider stage result v (some (.rendering number))
      (stage.turn provider (.rendering number)) known readable' v' := by
  cases found : stage.renderings[number]? with
  | none =>
    have turned : stage.turn provider (.rendering number) = stage := by
      simp only [Stage.turn, found]
    rw [turned]
    refine ⟨readable, v, runs, Advances.refl _ _ _, ?_, fun i same inside => ?_,
      fun i other stuck _ => .inl ⟨(nomatch ·), stuck⟩⟩
    · rw [exchanged_none found]
      exact Watches.of_world provider stage stage.world v
    · cases same
      exact absurd (List.getElem?_eq_none_iff.1 found) (Nat.not_le_of_lt inside)
  | some p =>
    obtain ⟨readable', v', out⟩ := polled honest p runs.sound (runs.sees number p found)
    have turned : stage.turn provider (.rendering number) =
        stage.behind number (p.poll (World.host provider) number stage.world).1
          (p.poll (World.host provider) number stage.world).2 := by
      simp only [Stage.turn, found]
      rfl
    rw [turned]
    refine ⟨Function.update readable number readable', Function.update v number v',
      runs_behind out runs found, advances_behind out found ?_, watches_behind out found,
      fun i same _ => ?_, fun i other stuck differs => .inl ⟨(nomatch ·), ?_⟩⟩
    · rintro ended rfl
      rfl
    · cases same
      exact polled_behind out found
    · exact stuck_behind out stuck fun same => differs (same ▸ rfl)

/-- A move is a turn, behind which what nobody can reach is given up. -/
theorem RunsWith.move (honest : provider.Honest)
    (runs : RunsWith settings provider stage result known readable v) (move : Move) :
    ∃ known' readable' v', Goes settings provider stage result v (some move)
      (stage.move provider move) known' readable' v' := by
  have turned : ∃ readable' v', Goes settings provider stage result v (some move)
      (stage.turn provider move) known readable' v' := by
    cases move with
    | rendering number => exact runs.poll honest number
    | producer number => exact ⟨readable, v, runs.produce number⟩
  obtain ⟨readable', v', turned⟩ := turned
  obtain ⟨known', left⟩ := turned.runs.abandon
  have still : ∀ i number, (stage.turn provider move).StuckAt i number →
      (stage.move provider move).StuckAt i number := by
    intro i number stuck
    rcases left.stuck i number stuck (fun same => nomatch same) with stuck | moved
    · exact stuck.2
    · exact nomatch moved.1
  have watches := turned.watches.trans left.watches
  have exchanged : (fun i => stage.exchanged provider (some move) i ++
      (stage.turn provider move).exchanged provider none i) = stage.exchanged provider (some move) :=
    funext fun _ => List.append_nil _
  rw [exchanged] at watches
  refine ⟨known', readable', v', left.runs, turned.advances.trans left.advances, watches, ?_, ?_⟩
  · intro i same inside
    rcases turned.polled i same inside with less | ⟨ended, here⟩ | ⟨number, stuck⟩
    · exact .inl ((left.advances.loads i).trans_lt less)
    · exact .inr (.inl ⟨ended, left.advances.ended i ended here⟩)
    · exact .inr (.inr ⟨number, still i number stuck⟩)
  · intro i number stuck differs
    rcases turned.stuck i number stuck differs with ⟨other, stuck⟩ | ⟨same, less⟩
    · exact .inl ⟨other, still i number stuck⟩
    · exact .inr ⟨same, (left.advances.duties number).trans_lt less⟩

/-! ## Any number of moves -/

/-- No order of moves changes the results. -/
theorem RunsWith.follow (honest : provider.Honest) (moves : List Move) :
    ∀ {stage : Stage α} {known : Nat → Set Handle} {readable : Nat → Set Nat} {v : Nat → View},
      RunsWith settings provider stage result known readable v → ∃ known' readable' v',
        RunsWith settings provider (stage.follow provider moves) result known' readable' v' ∧
          Advances provider stage (stage.follow provider moves) v v' ∧
          Watches provider stage (stage.follow provider moves) (exchangedIn provider moves stage) v v' := by
  induction moves with
  | nil => exact fun runs => ⟨_, _, _, runs, Advances.refl _ _ _, Watches.of_world _ _ _ _⟩
  | cons move rest ih =>
    intro stage known readable v runs
    obtain ⟨known₁, readable₁, v₁, goes⟩ := runs.move honest move
    obtain ⟨known₂, readable₂, v₂, runs₂, advances, watches⟩ := ih goes.runs
    exact ⟨known₂, readable₂, v₂, runs₂, goes.advances.trans advances, goes.watches.trans watches⟩

/-- A producer that a rendering waits for goes on when it has its turn. -/
theorem RunsWith.follow_stuck (honest : provider.Honest) {i number : Nat} (moves : List Move) :
    ∀ {stage : Stage α} {known : Nat → Set Handle} {readable : Nat → Set Nat} {v : Nat → View},
      RunsWith settings provider stage result known readable v → stage.StuckAt i number →
      Move.rendering i ∉ moves → Move.producer number ∈ moves → ∃ known' readable' v',
        RunsWith settings provider (stage.follow provider moves) result known' readable' v' ∧
          (stage.follow provider moves).potential provider v' < stage.potential provider v := by
  induction moves with
  | nil => exact fun _ _ _ listed => nomatch listed
  | cons move rest ih =>
    intro stage known readable v runs stuck absent listed
    rw [List.mem_cons, not_or] at absent
    obtain ⟨known₁, readable₁, v₁, goes⟩ := runs.move honest move
    rcases goes.stuck i number stuck (fun same => absent.1 (Option.some.inj same).symm) with
      ⟨other, stuck⟩ | ⟨same, less⟩
    · have later := (List.mem_cons.1 listed).resolve_left fun same => other (congrArg some same.symm)
      obtain ⟨known₂, readable₂, v₂, runs₂, fewer⟩ := ih goes.runs stuck absent.2 later
      exact ⟨known₂, readable₂, v₂, runs₂, fewer.trans_le goes.advances.potential_le⟩
    · obtain ⟨known₂, readable₂, v₂, runs₂, advances, -⟩ := RunsWith.follow honest rest goes.runs
      exact ⟨known₂, readable₂, v₂, runs₂,
        advances.potential_le.trans_lt (goes.advances.potential_lt_of_duty less)⟩

/-- A rendering that has its turn in a round goes on in it, unless it has ended. -/
theorem RunsWith.follow_round (honest : provider.Honest)
    (runs : RunsWith settings provider stage result known readable v) {i : Nat}
    (inside : i < stage.renderings.length) : ∃ known' readable' v',
      RunsWith settings provider (stage.follow provider stage.round) result known' readable' v' ∧
        ((stage.follow provider stage.round).potential provider v' < stage.potential provider v ∨
          ∃ ended, (stage.follow provider stage.round).renderings[i]? = some (.done ended)) := by
  obtain ⟨before, after, split⟩ := List.append_of_mem (List.mem_range.2 inside)
  have once : i ∉ after := by
    have nodup := List.nodup_range (n := stage.renderings.length)
    rw [split] at nodup
    exact (List.nodup_cons.1 (List.nodup_append.1 nodup).2.1).1
  let later := after.map Move.rendering ++ (List.range stage.world.producers.length).map Move.producer
  have round : stage.round = before.map Move.rendering ++ Move.rendering i :: later := by
    rw [Stage.round, split]
    simp [later]
  obtain ⟨known₁, readable₁, v₁, runs₁, advances₁, -⟩ := runs.follow honest (before.map Move.rendering)
  obtain ⟨known₂, readable₂, v₂, goes⟩ := runs₁.move honest (.rendering i)
  have course : stage.follow provider stage.round =
      ((stage.follow provider (before.map Move.rendering)).move provider (.rendering i)).follow
        provider later := by
    rw [round, Stage.follow, List.foldl_append, List.foldl_cons]
    rfl
  have inside' : i < (stage.follow provider (before.map Move.rendering)).renderings.length := by
    rw [advances₁.renderings]
    exact inside
  rw [course]
  have sofar := advances₁.trans goes.advances
  rcases goes.polled i rfl inside' with less | ⟨ended, here⟩ | ⟨number, stuck⟩
  · obtain ⟨known₃, readable₃, v₃, runs₃, advances₃, -⟩ := goes.runs.follow honest later
    refine ⟨known₃, readable₃, v₃, runs₃, .inl ?_⟩
    exact advances₃.potential_le.trans_lt
      ((goes.advances.potential_lt_of_load less).trans_le advances₁.potential_le)
  · obtain ⟨known₃, readable₃, v₃, runs₃, advances₃, -⟩ := goes.runs.follow honest later
    exact ⟨known₃, readable₃, v₃, runs₃, .inr ⟨ended, advances₃.ended i ended here⟩⟩
  · have absent : Move.rendering i ∉ later := by simp [later, once]
    have present : Move.producer number ∈ later := by
      obtain ⟨-, -, -, producer, -, -, produced, -⟩ := stuck
      have bound := (List.getElem?_eq_some_iff.1 produced).1
      rw [sofar.producers] at bound
      simp [later, bound]
    obtain ⟨known₃, readable₃, v₃, runs₃, less⟩ :=
      goes.runs.follow_stuck honest later stuck absent present
    exact ⟨known₃, readable₃, v₃, runs₃, .inl (less.trans_le sofar.potential_le)⟩

/-- Rounds bring all renderings to their results. -/
theorem RunsWith.settles (honest : provider.Honest) (n : Nat) :
    ∀ {stage : Stage α} {known : Nat → Set Handle} {readable : Nat → Set Nat} {v : Nat → View},
      RunsWith settings provider stage result known readable v → stage.potential provider v ≤ n →
      ∃ rounds, (stage.settle provider rounds).renderings.length = stage.renderings.length ∧
        ∀ i < stage.renderings.length,
          (stage.settle provider rounds).renderings[i]? = some (.done (result i)) := by
  induction n using Nat.strong_induction_on with
  | _ n ih =>
    intro stage known readable v runs bound
    have result_of_ended : ∀ {stage : Stage α} {known : Nat → Set Handle} {readable : Nat → Set Nat}
        {v : Nat → View}, RunsWith settings provider stage result known readable v →
        ∀ (i : Nat) (ended : α), stage.renderings[i]? = some (.done ended) → ended = result i :=
      fun runs i ended here => runs.result i _ here
    by_cases all : ∀ i < stage.renderings.length, ∃ ended, stage.renderings[i]? = some (.done ended)
    · refine ⟨0, rfl, fun i inside => ?_⟩
      obtain ⟨ended, here⟩ := all i inside
      rw [Stage.settle, here, result_of_ended runs i ended here]
    · -- Some rendering has not ended, so another round is made.
      have unsettled : stage.isSettled = false := by
        by_contra settled
        apply all
        intro i inside
        rw [Bool.not_eq_false, Stage.isSettled, Bool.and_eq_true, List.all_eq_true] at settled
        have ended := settled.1 ((stage.renderings[i]).result?) (by
          simp only [Stage.results, List.mem_map]
          exact ⟨_, List.getElem_mem inside, rfl⟩)
        cases here : stage.renderings[i] with
        | done ended' => exact ⟨ended', by rw [List.getElem?_eq_getElem inside, here]⟩
        | ask holding request next =>
          rw [here] at ended
          exact nomatch ended
      have again : ∀ rounds, stage.settle provider (rounds + 1) =
          (stage.follow provider stage.round).settle provider rounds := by
        intro rounds
        rw [Stage.settle, unsettled]
        rfl
      have count : (stage.follow provider stage.round).renderings.length = stage.renderings.length := by
        obtain ⟨_, _, _, -, advances, -⟩ := runs.follow honest stage.round
        exact advances.renderings
      by_cases less : ∃ known' readable' v',
          RunsWith settings provider (stage.follow provider stage.round) result known' readable' v' ∧
            (stage.follow provider stage.round).potential provider v' < stage.potential provider v
      · obtain ⟨known', readable', v', runs', less⟩ := less
        obtain ⟨rounds, same, ends⟩ := ih _ (less.trans_le bound) runs' le_rfl
        rw [count] at same ends
        exact ⟨rounds + 1, again rounds ▸ ⟨same, ends⟩⟩
      · refine ⟨1, again 0 ▸ count, fun i inside => ?_⟩
        obtain ⟨known', readable', v', runs', progress⟩ := runs.follow_round honest inside
        obtain ⟨ended, here⟩ := progress.resolve_left fun fewer =>
          less ⟨known', readable', v', runs', fewer⟩
        rw [again, Stage.settle, here, result_of_ended runs' i ended here]

theorem RunsWith.settles_results (honest : provider.Honest)
    (runs : RunsWith settings provider stage result known readable v) :
    ∃ rounds, (stage.settle provider rounds).results =
      (List.range stage.renderings.length).map fun i => some (result i) := by
  obtain ⟨rounds, count, ends⟩ := RunsWith.settles honest _ runs le_rfl
  refine ⟨rounds, List.ext_getElem? fun i => ?_⟩
  rw [Stage.results, List.getElem?_map, List.getElem?_map]
  by_cases inside : i < stage.renderings.length
  · rw [ends i inside, List.getElem?_range inside]
    rfl
  · rw [List.getElem?_eq_none_iff.2 (by omega),
      List.getElem?_eq_none_iff.2 (by rw [List.length_range]; omega)]
    rfl

end Stage

end Stencil.Render
