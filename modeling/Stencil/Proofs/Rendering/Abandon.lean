import Stencil.Proofs.Rendering.Answering
/-!
# Giving up streams

A stream that nobody can reach is given up. What processes and producers hold on to can be reached,
and what can be reached from there, so a process does not notice: within its reach stays all that it
may still ask for.
-/

set_option autoImplicit false

namespace Stencil.Render

open Stencil.Stream

/-- Whether a world lets go of nothing but streams that are not kept. -/
structure Sheds (kept : Handle → Prop) (world world' : World) : Prop where
  supplies : ∀ place, (∀ number, place = .stream number → kept (.stream number)) →
    world'.supply? place = world.supply? place
  less : ∀ place supply, world'.supply? place = some supply → world.supply? place = some supply
  channels : ∀ place number, (∀ stream, place = .stream stream → kept (.stream stream)) →
    world.supply? place = some (.channel number) → world'.channel number = world.channel number
  length : world'.channels.length = world.channels.length
  producers : world'.producers = world.producers
  waiting : world'.waiting = world.waiting
  cache : world'.cache = world.cache

namespace Sheds

variable {kept : Handle → Prop} {world world' world'' : World}

theorem refl (kept : Handle → Prop) (world : World) : Sheds kept world world :=
  ⟨fun _ _ => rfl, fun _ _ here => here, fun _ _ _ _ => rfl, rfl, rfl, rfl, rfl⟩

theorem trans (first : Sheds kept world world') (second : Sheds kept world' world'') :
    Sheds kept world world'' where
  supplies place keeps := (second.supplies place keeps).trans (first.supplies place keeps)
  less place supply here := first.less place supply (second.less place supply here)
  channels place number keeps here :=
    (second.channels place number keeps ((first.supplies place keeps).trans here)).trans
      (first.channels place number keeps here)
  length := second.length.trans first.length
  producers := second.producers.trans first.producers
  waiting := second.waiting.trans first.waiting
  cache := second.cache.trans first.cache

end Sheds

section

variable {α : Type} {settings : Settings} {provider : Provider} {world world' : World}
  {task : Nat} {known : Set Handle} {readable : Set Nat} {v : View} {kept : Handle → Prop}

theorem World.Sound.of_sheds (sound : world.Sound settings provider)
    (sheds : Sheds kept world world') : world'.Sound settings provider :=
  sound.of_less sheds.less sheds.producers (sheds.waiting ▸ sound.waiting)
    (sheds.cache ▸ sound.coherent)

/-- One stream that is not kept is given up. -/
theorem sheds_dropStream (sound : world.Sound settings provider) {number : Nat}
    (unkept : ¬kept (.stream number)) : Sheds kept world (world.dropStream number) := by
  unfold World.dropStream
  cases found : world.stream? number with
  | none => exact Sheds.refl kept world
  | some supply =>
    let left : World := { world with streams := world.streams.set number none }
    have left_supply : ∀ place, (left.dropSupply supply).supply? place =
        if place = .stream number then none else world.supply? place := by
      intro place
      rw [World.supply?_dropSupply]
      exact world.supply?_without_stream number place
    refine ⟨fun place keeps => ?_, fun place other here => ?_, fun place other keeps here => ?_,
      World.length_dropSupply left supply, World.producers_dropSupply left supply,
      World.waiting_dropSupply left supply, World.cache_dropSupply left supply⟩
    · rw [left_supply, if_neg]
      exact fun same => unkept (keeps number same)
    · rw [left_supply] at here
      split at here
      · exact nomatch here
      · exact here
    · refine World.channel_dropSupply left supply fun same => unkept (keeps number ?_)
      exact sound.exclusive place (.stream number) other here (same ▸ found)

/-- Streams that are not kept are given up one after the other. -/
theorem sheds_dropAll (handles : List Handle) (unkept : ∀ handle ∈ handles, ¬kept handle)
    (sound : world.Sound settings provider) :
    Sheds kept world (handles.foldl (fun world handle =>
      match handle with
      | .stream number => world.dropStream number
      | _ => world) world) := by
  induction handles generalizing world with
  | nil => exact Sheds.refl kept world
  | cons handle rest ih =>
    rw [List.forall_mem_cons] at unkept
    rw [List.foldl_cons]
    cases handle with
    | stream number =>
      have first := sheds_dropStream sound unkept.1
      exact first.trans (ih unkept.2 (sound.of_sheds first))
    | function _ | dynamic _ | iterable _ => exact ih unkept.2 sound

/-! ## What is in reach -/

/-- What a supply still gives is in the supply or not yet sent. -/
theorem Supplies.covered {supply : Supply} {script : Script} (supplies : Supplies world supply script)
    {handle : Handle} (listed : handle ∈ script.handles) :
    handle ∈ (world.supplied supply).flatMap Value.handles ∨
      ∃ entry ∈ world.producers, handle ∈ (entry.2.unsent.flatMap Item.values).flatMap Value.handles := by
  have steps : ∀ steps : List Step, handle ∈ (scriptOfSteps steps).handles →
      handle ∈ ((steps.filterMap Step.item?).flatMap Item.values).flatMap Value.handles := by
    intro steps listed
    induction steps with
    | nil => cases listed
    | cons step rest ih =>
      cases step with
      | send item =>
        rw [scriptOfSteps, Script.handles_cons, List.mem_append] at listed
        simp only [List.filterMap_cons, Step.item?, List.flatMap_cons, List.flatMap_append,
          List.mem_append]
        exact listed.imp_right ih
      | signalEnd =>
        have bare : ∀ breach, (ofBreach breach).handles = [] := by
          intro breach
          cases breach <;> rfl
        rw [scriptOfSteps, bare] at listed
        cases listed
  cases supplies with
  | script => exact .inl listed
  | @values all rest part =>
    obtain ⟨value, inside, inner⟩ := List.mem_flatMap.1 listed
    obtain ⟨entry, among, inside⟩ := List.mem_flatMap.1 inside
    obtain ⟨value', member', rfl⟩ := List.mem_map.1 among
    cases List.mem_singleton.1 inside
    exact .inl (List.mem_flatMap.2 ⟨value', part value' member', inner⟩)
  | @channel number producer _ inside produced promises =>
    have unsent : ∀ handle, handle ∈ (producer.unsent.flatMap Item.values).flatMap Value.handles →
        ∃ entry ∈ world.producers,
          handle ∈ (entry.2.unsent.flatMap Item.values).flatMap Value.handles :=
      fun handle listed => ⟨_, List.mem_of_getElem? produced, listed⟩
    have bare : ∀ breach, (ofBreach breach).handles = [] := by
      intro breach
      cases breach <;> rfl
    generalize same : world.channel number = channel at promises
    cases promises with
    | idle => exact .inr (unsent handle (steps _ listed))
    | @offered item rest ticket idle queue =>
      rw [Script.handles_cons, List.mem_append] at listed
      rcases listed with offered | behind
      · refine .inl ?_
        rw [World.supplied, same, queue]
        simpa [scriptValues, Except.toOption, Signal.item?] using offered
      · exact .inr (unsent handle (steps _ behind))
    | held => exact .inr (unsent handle (steps _ listed))
    | accepted => exact .inr (unsent handle (steps _ listed))
    | ended =>
      rw [bare] at listed
      cases listed
    | deserted =>
      rw [bare] at listed
      cases listed

/-- A process whose stream and sources are kept sees the world as before, as far as it can reach. -/
theorem Sees.of_sheds {p : Process α} (sees : Sees settings provider world task p known readable v)
    (rests : p.Rests) (sheds : Sheds kept world world')
    (held : ∀ handle ∈ p.held.flatMap Value.handles, kept handle)
    (world_held : ∀ handle ∈ world.held.flatMap Value.handles, kept handle)
    (keepers : ∀ keeper ∈ provider.keepers ++ world.keepers, kept keeper.1 →
      ∀ handle ∈ keeper.2.flatMap Value.handles, kept handle) :
    Sees settings provider world' task p {handle | handle ∈ known ∧ kept handle} readable v where
  orderly := by
    cases p with
    | done result => trivial
    | ask holding request next =>
      obtain ⟨reach, allowed, oblivious, goes⟩ := sees.orderly
      refine ⟨fun handle listed => ⟨reach handle listed, held handle ?_⟩, allowed, oblivious, goes⟩
      rcases List.mem_append.1 listed with inside | asked
      · exact inside
      · exact rests handle asked
  fits := by
    refine ⟨fun keeper member reached => ?_, fun place mine => ?_⟩
    · refine knows_iff.1 fun handle listed => ⟨?_, ?_⟩
      · exact knows_iff.2 (sees.fits.keepers keeper member reached.1) handle listed
      · exact keepers keeper (List.mem_append_left _ member) reached.2 handle listed
    · have mine' : Mine task known readable place := by
        cases place with
        | stream number => exact mine.1
        | source key => exact mine
      have keeps : ∀ number, place = .stream number → kept (.stream number) := by
        rintro number rfl
        exact mine.2
      rw [sheds.supplies place keeps]
      have here := sees.fits.places place mine'
      cases found : world.supply? place with
      | none =>
        rw [found] at here
        rw [here.of_none]
        trivial
      | some supply =>
        rw [found] at here
        obtain ⟨script, told, supplies, reach⟩ := here.of_some
        rw [told]
        refine ⟨supplies.of_same (fun number same =>
          sheds.channels place number keeps (same ▸ found)) sheds.length sheds.producers,
          fun handle listed => ⟨reach handle listed, ?_⟩⟩
        rcases supplies.covered listed with given | ⟨entry, member, unsent⟩
        · cases place with
          | stream number =>
            refine keepers (.stream number, world.supplied supply) ?_ mine.2 handle given
            refine List.mem_append_right _ (List.mem_filterMap.2 ⟨(some supply, number), ?_, rfl⟩)
            rw [List.mem_zipIdx_iff_getElem?]
            have found : (world.streams[number]?).join = some supply := found
            exact Option.join_eq_some_iff.1 found
          | source key =>
            apply world_held
            have found : world.source? key = some supply := found
            obtain ⟨entry, first, rfl⟩ := Option.map_eq_some_iff.1 found
            refine List.mem_flatMap.2 ?_
            obtain ⟨value, inside, inner⟩ := List.mem_flatMap.1 given
            refine ⟨value, List.mem_append_left _ ?_, inner⟩
            exact List.mem_flatMap.2 ⟨entry, List.mem_of_find?_eq_some first, inside⟩
        · apply world_held
          obtain ⟨value, inside, inner⟩ := List.mem_flatMap.1 unsent
          refine List.mem_flatMap.2 ⟨value, List.mem_append_right _ ?_, inner⟩
          exact List.mem_flatMap.2 ⟨entry, member, inside⟩
  waits waiting := by
    rw [sheds.waiting] at waiting
    obtain ⟨holding, request, next, same, waits⟩ := sees.waits waiting
    refine ⟨holding, request, next, same, ?_⟩
    cases request with
    | pull source =>
      obtain ⟨supply, there, waits⟩ := waits
      have keeps : ∀ number, Place.source (task, source) = .stream number → kept (.stream number) :=
        fun _ same => nomatch same
      refine ⟨supply, (sheds.supplies _ keeps).trans there, fun number same => ?_⟩
      rw [sheds.channels _ number keeps (same ▸ there)]
      exact waits number same
    | _ => exact waits

/-- Giving up what nobody can reach. -/
theorem sheds_abandon (sound : world.Sound settings provider) (inUse : List Value) :
    ∃ kept : Handle → Prop, Sheds kept world (world.abandon provider inUse) ∧
      (∀ handle ∈ (inUse ++ world.held).flatMap Value.handles, kept handle) ∧
      ∀ keeper ∈ provider.keepers ++ world.keepers, kept keeper.1 →
        ∀ handle ∈ keeper.2.flatMap Value.handles, kept handle := by
  unfold World.abandon
  split
  · refine ⟨fun handle => handle ∉ Handle.lost (provider.keepers ++ world.keepers)
      ((inUse ++ world.held).flatMap Value.handles), ?_, ?_, ?_⟩
    · exact sheds_dropAll _ (fun handle lost safe => safe lost) sound
    · exact fun handle used => Handle.not_mem_lost _ used
    · exact fun keeper member safe handle => Handle.not_mem_lost_of_keeper member safe
  · exact ⟨fun _ => True, Sheds.refl _ _, fun _ _ => trivial, fun _ _ _ _ _ => trivial⟩

end

end Stencil.Render
