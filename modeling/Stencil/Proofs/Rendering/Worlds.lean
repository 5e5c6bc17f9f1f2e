import Stencil.Proofs.Rendering.Order
import Stencil.Proofs.Rendering.Promises
/-!
# Processes in a world

A process that runs in a world gets the answers that its view of the world tells, however many
others run there. For that the world keeps apart what belongs to different processes: each channel
is behind one stream or source, each source belongs to one process, and the streams within the reach
of a process are in the reach of no other.
-/

set_option autoImplicit false

namespace Stencil.Render

open Stencil.Stream
open Stencil.Syntax (Template)

/-- Where a supply can be. -/
inductive Place where
  | stream (number : Nat)
  | source (key : Nat × Nat)
deriving DecidableEq

namespace World

/-- The supply at a place. -/
def supply? (world : World) : Place → Option Supply
  | .stream number => world.stream? number
  | .source key => world.source? key

/-! ## What changes of the world do -/

section

variable (world : World) (key other : Nat × Nat) (supply : Supply)

theorem source?_setSource :
    (world.setSource key supply).source? other =
      if other = key then some supply else world.source? other := by
  unfold source? setSource
  by_cases same : other = key
  · simp [same]
  · rw [List.find?_cons, if_neg same]
    have differs : decide (key = other) = false := by simpa using Ne.symm same
    simp only [differs, List.find?_filter]
    congr 2
    funext entry
    by_cases found : entry.1 = other
    · simp [found, same]
    · simp [found]

theorem source?_without :
    ({ world with sources := world.sources.filter fun entry => entry.1 ≠ key } : World).source?
      other = if other = key then none else world.source? other := by
  unfold source?
  simp only [List.find?_filter]
  by_cases same : other = key
  · rw [if_pos same, Option.map_eq_none_iff, List.find?_eq_none]
    intro entry _
    simp [same]
  · rw [if_neg same]
    congr 2
    funext entry
    by_cases found : entry.1 = other
    · simp [found, same]
    · simp [found]

theorem stream?_without (number stream : Nat) :
    ({ world with streams := world.streams.set number none } : World).stream? stream =
      if stream = number then none else world.stream? stream := by
  unfold stream?
  simp only [List.getElem?_set]
  by_cases same : stream = number
  · subst same
    by_cases inside : stream < world.streams.length
    · simp [inside]
    · simp [inside]
  · simp [same, Ne.symm same]

theorem supply?_setSource (place : Place) :
    (world.setSource key supply).supply? place =
      if place = .source key then some supply else world.supply? place := by
  cases place with
  | stream number => simp [supply?, stream?, setSource]
  | source other => simp [supply?, source?_setSource]

theorem supply?_without_stream (number : Nat) (place : Place) :
    ({ world with streams := world.streams.set number none } : World).supply? place =
      if place = .stream number then none else world.supply? place := by
  cases place with
  | stream other => simp [supply?, stream?_without]
  | source other => simp [supply?, source?]

theorem supply?_without_source (place : Place) :
    ({ world with sources := world.sources.filter fun entry => entry.1 ≠ key } : World).supply?
      place = if place = .source key then none else world.supply? place := by
  cases place with
  | stream other => simp [supply?, stream?]
  | source other =>
    simp only [supply?, Place.source.injEq]
    exact source?_without world key other

@[simp] theorem supply?_setChannel (number : Nat) (channel : Channel) (place : Place) :
    (world.setChannel number channel).supply? place = world.supply? place := by
  cases place <;> rfl

@[simp] theorem supply?_dropSupply (place : Place) :
    (world.dropSupply supply).supply? place = world.supply? place := by
  cases supply with
  | channel number => exact supply?_setChannel world number _ place
  | _ => rfl

theorem channel_setChannel_self {number : Nat} (channel : Channel)
    (inside : number < world.channels.length) :
    (world.setChannel number channel).channel number = channel := by
  simp [World.channel, setChannel, inside]

theorem channel_setChannel_of_ne {number other : Nat} (channel : Channel)
    (differs : other ≠ number) :
    (world.setChannel number channel).channel other = world.channel other := by
  simp [World.channel, setChannel, Ne.symm differs]

/-- Going away from a supply changes no channel but that of the supply. -/
theorem channel_dropSupply {number : Nat} (differs : supply ≠ .channel number) :
    (world.dropSupply supply).channel number = world.channel number := by
  cases supply with
  | channel other =>
    exact channel_setChannel_of_ne world _ fun same => differs (same ▸ rfl)
  | _ => rfl

theorem length_dropSupply : (world.dropSupply supply).channels.length = world.channels.length := by
  cases supply with
  | channel number => exact List.length_set
  | _ => rfl

@[simp] theorem producers_dropSupply : (world.dropSupply supply).producers = world.producers := by
  cases supply <;> rfl

@[simp] theorem waiting_dropSupply : (world.dropSupply supply).waiting = world.waiting := by
  cases supply <;> rfl

@[simp] theorem cache_dropSupply : (world.dropSupply supply).cache = world.cache := by
  cases supply <;> rfl

end

end World

/-- What a supply still gives in a world. -/
inductive Supplies (world : World) : Supply → Script → Prop
  | script (origin : Value) (rest : Script) : Supplies world (.script origin rest) rest
  | values {all rest : List Value} (part : ∀ value ∈ rest, value ∈ all) :
    Supplies world (.values all rest) (rest.map fun value => .ok { value })
  | channel {number : Nat} {producer : Producer} {script : Script}
    (inside : number < world.channels.length)
    (produced : world.producers[number]? = some (number, producer))
    (promises : Promises (world.channel number) producer script) :
    Supplies world (.channel number) script

/-- A supply gives the same in a world in which its channel is the same. -/
theorem Supplies.of_same {world world' : World} {supply : Supply} {script : Script}
    (supplies : Supplies world supply script)
    (channel : ∀ number, supply = .channel number → world'.channel number = world.channel number)
    (length : world'.channels.length = world.channels.length)
    (producers : world'.producers = world.producers) : Supplies world' supply script := by
  cases supplies with
  | script => exact .script _ _
  | values part => exact .values part
  | @channel number producer script inside produced promises =>
    exact .channel (length ▸ inside) (producers ▸ produced) (channel number rfl ▸ promises)

/-- Whether a view tells what is at a place, and all that comes from there is known. -/
def Agrees (world : World) (known : Set Handle) : Option Supply → Option Script → Prop
  | none, none => True
  | some supply, some script =>
    Supplies world supply script ∧ ∀ handle ∈ script.handles, handle ∈ known
  | _, _ => False

/-- The places within the reach of a process. -/
def Mine (task : Nat) (known : Set Handle) (readable : Set Nat) : Place → Prop
  | .stream number => .stream number ∈ known
  | .source key => key.1 = task ∧ key.2 ∈ readable

/-- What a view tells of a place. -/
def View.script? (v : View) : Place → Option Script
  | .stream number => v.streams number
  | .source key => v.sources key.2

/-- Whether a view is what a process sees of a world. -/
structure Fits (provider : Provider) (world : World) (task : Nat) (known : Set Handle)
    (readable : Set Nat) (v : View) : Prop where
  keepers : ∀ keeper ∈ provider.keepers, keeper.1 ∈ known → Knows known keeper.2
  places : ∀ place, Mine task known readable place →
    Agrees world known (world.supply? place) (v.script? place)

/-- Whether a process that has let others go on may get its answer now. -/
def Waits (world : World) (task : Nat) : Request → Prop
  | .pull source => ∃ supply, world.source? (task, source) = some supply ∧
      ∀ number, supply = .channel number → (world.channel number).held = none
  | .load _ | .lookup .. | .pause => True
  | _ => False

/-- Whether a world is fit for processes. -/
structure World.Sound (settings : Settings) (provider : Provider) (world : World) : Prop where
  exclusive : ∀ place other number, world.supply? place = some (.channel number) →
    world.supply? other = some (.channel number) → place = other
  paired : ∀ (number channel : Nat) (producer : Producer),
    world.producers[number]? = some (channel, producer) → channel = number
  waiting : world.waiting.Nodup
  coherent : ∀ name template, world.cache.get? name = some template →
    Coherent settings provider name template

/-- Whether a process that runs in a world has a view of it. -/
structure Sees {α : Type} (settings : Settings) (provider : Provider) (world : World) (task : Nat)
    (p : Process α) (known : Set Handle) (readable : Set Nat) (v : View) : Prop where
  orderly : p.Orderly settings provider (fun _ _ _ => True) known readable
  fits : Fits provider world task known readable v
  waits : task ∈ world.waiting → ∃ holding request next, p = .ask holding request next ∧
    Waits world task request

/-- Whether a place is out of the reach of a process, whatever sources it reads. -/
def Theirs (task : Nat) (known : Set Handle) : Place → Prop
  | .stream number => .stream number ∉ known
  | .source key => key.1 ≠ task

/-- Whether a process has changed a world only where it may. -/
structure Touches (task : Nat) (known : Set Handle) (world world' : World) : Prop where
  supplies : ∀ place, Theirs task known place → world'.supply? place = world.supply? place
  channels : ∀ place number, Theirs task known place →
    world.supply? place = some (.channel number) → world'.channel number = world.channel number
  length : world'.channels.length = world.channels.length
  producers : world'.producers = world.producers
  waiting : ∀ other, other ≠ task → (other ∈ world'.waiting ↔ other ∈ world.waiting)

namespace Touches

variable {task : Nat} {known : Set Handle} {world world' world'' : World}

theorem refl (task : Nat) (known : Set Handle) (world : World) : Touches task known world world :=
  ⟨fun _ _ => rfl, fun _ _ _ _ => rfl, rfl, rfl, fun _ _ => Iff.rfl⟩

theorem trans (first : Touches task known world world') (second : Touches task known world' world'') :
    Touches task known world world'' where
  supplies place theirs := (second.supplies place theirs).trans (first.supplies place theirs)
  channels place number theirs here :=
    (second.channels place number theirs ((first.supplies place theirs).trans here)).trans
      (first.channels place number theirs here)
  length := second.length.trans first.length
  producers := second.producers.trans first.producers
  waiting other apart := (second.waiting other apart).trans (first.waiting other apart)

end Touches

section

variable {α : Type} {settings : Settings} {provider : Provider} {world world' : World}
  {task : Nat} {known : Set Handle} {readable readable' : Set Nat} {v v' : View}

theorem Agrees.of_same {supply? : Option Supply} {script? : Option Script}
    (agrees : Agrees world known supply? script?)
    (supplies : ∀ supply script, supply? = some supply → Supplies world supply script →
      Supplies world' supply script) : Agrees world' known supply? script? := by
  match supply?, script? with
  | none, none => trivial
  | some supply, some script => exact ⟨supplies supply script rfl agrees.1, agrees.2⟩
  | none, some script => exact agrees.elim
  | some supply, none => exact agrees.elim

theorem Agrees.of_none {script? : Option Script} (agrees : Agrees world known none script?) :
    script? = none := by
  cases script? with
  | none => rfl
  | some script => exact agrees.elim

theorem Agrees.of_some {supply : Supply} {script? : Option Script}
    (agrees : Agrees world known (some supply) script?) : ∃ script, script? = some script ∧
      Supplies world supply script ∧ ∀ handle ∈ script.handles, handle ∈ known := by
  cases script? with
  | none => exact agrees.elim
  | some script => exact ⟨script, rfl, agrees⟩

/-- A view fits as long as nothing changes where the process looks. -/
theorem Fits.of_same (fits : Fits provider world task known readable v)
    (part : ∀ source ∈ readable', source ∈ readable)
    (same : ∀ place, Mine task known readable' place →
      world'.supply? place = world.supply? place ∧ v'.script? place = v.script? place ∧
        ∀ supply script, world.supply? place = some supply → Supplies world supply script →
          Supplies world' supply script) :
    Fits provider world' task known readable' v' where
  keepers := fits.keepers
  places place mine := by
    have mine' : Mine task known readable place := by
      cases place with
      | stream number => exact mine
      | source key => exact ⟨mine.1, part _ mine.2⟩
    obtain ⟨supply, script, supplies⟩ := same place mine
    rw [supply, script]
    exact (fits.places place mine').of_same supplies

/-- What one process changes another does not see, when they have no stream in common. -/
theorem Sees.of_touches {p : Process α} {other : Nat} {known' : Set Handle}
    (sees : Sees settings provider world other p known' readable v)
    (touches : Touches task known world world') (differs : other ≠ task)
    (apart : ∀ number, Handle.stream number ∈ known' → Handle.stream number ∉ known) :
    Sees settings provider world' other p known' readable v where
  orderly := sees.orderly
  fits := by
    refine sees.fits.of_same (fun _ listed => listed) fun place mine => ?_
    have theirs : Theirs task known place := by
      cases place with
      | stream number => exact apart number mine
      | source key => exact fun same => differs (mine.1.symm.trans same)
    refine ⟨touches.supplies place theirs, rfl, fun supply script here supplies => ?_⟩
    exact supplies.of_same (fun number same => touches.channels place number theirs (same ▸ here))
      touches.length touches.producers
  waits waiting := by
    obtain ⟨holding, request, next, same, waits⟩ :=
      sees.waits ((touches.waiting other differs).1 waiting)
    refine ⟨holding, request, next, same, ?_⟩
    cases request with
    | pull source =>
      obtain ⟨supply, here, waits⟩ := waits
      have theirs : Theirs task known (.source (other, source)) := differs
      refine ⟨supply, (touches.supplies _ theirs).trans here, fun number same => ?_⟩
      rw [touches.channels _ number theirs (same ▸ here)]
      exact waits number same
    | _ => exact waits

end

end Stencil.Render
