import Stencil.Proofs.Rendering.Tracing
/-!
# What leaves a channel alone

A world with one rendering in it changes when the rendering asks, when producers have their turns, and
when streams are given up. What is not about a channel leaves the channel and its producer alone
(`Aside`). The rendering waits only for what it asks (`Awaits`), and holds nothing of what it waits for.
-/

set_option autoImplicit false

namespace Stencil.Render

open Stencil.Stream
open RenderM

/-! ## What has nothing to do with a channel -/

/-- The places that a request of the first process is about. -/
def Request.places : Request → List Place
  | .iterate source _ | .pull source | .release source => [.source (0, source)]
  | .take source handle => [.stream handle, .source (0, source)]
  | _ => []

/-- The requests that let others go on before they are answered, and change nothing else. -/
def Request.Defers : Request → Prop
  | .load _ | .lookup _ _ | .pause => True
  | _ => False

theorem Request.Defers.answer {request : Request} (defers : request.Defers) (provider : Provider)
    (world : World) : ∃ event answer, World.answer provider 0 request world =
      world.afterOthers 0 event fun world => (answer, world) := by
  cases request with
  | load name => exact ⟨some (.loaded name), provider.load name, rfl⟩
  | lookup handle name => exact ⟨some (.lookedUp handle name), provider.lookup handle name, rfl⟩
  | pause => exact ⟨none, (), rfl⟩
  | _ => exact defers.elim

/-- Whether each producer has a channel with its own number. -/
def World.Paired (world : World) : Prop :=
  ∀ (n channel : Nat) (producer : Producer), world.producers[n]? = some (channel, producer) → channel = n

theorem World.Paired.produce {world : World} (paired : world.Paired) (n : Nat) :
    (world.produce n).Paired := by
  intro other channel producer here
  rw [producers_produce] at here
  split at here
  · rename_i same
    subst same
    cases there : world.producers[other]? with
    | none =>
      rw [there] at here
      cases here
    | some entry =>
      rw [there] at here
      cases here
      exact paired other entry.1 entry.2 there
  · exact paired other channel producer here

/-- Whether a change of the world leaves a channel and its producer alone, and gives no new stream away. -/
structure Aside (number : Nat) (world world' : World) : Prop where
  supplies : ∀ place, world'.supply? place = some (.channel number) ↔
    world.supply? place = some (.channel number)
  streams : ∀ stream supply, world'.stream? stream = some supply → world.stream? stream = some supply
  channel : world'.channel number = world.channel number
  length : world'.channels.length = world.channels.length
  producer : world'.producers[number]? = world.producers[number]?
  paired : world.Paired → world'.Paired

namespace Aside

variable {number : Nat} {world world' world'' : World}

theorem trans (first : Aside number world world') (second : Aside number world' world'') :
    Aside number world world'' where
  supplies place := (second.supplies place).trans (first.supplies place)
  streams stream supply here := first.streams stream supply (second.streams stream supply here)
  channel := second.channel.trans first.channel
  length := second.length.trans first.length
  producer := second.producer.trans first.producer
  paired := second.paired ∘ first.paired

theorem of_same (streams : world'.streams = world.streams) (sources : world'.sources = world.sources)
    (channels : world'.channels = world.channels) (producers : world'.producers = world.producers) :
    Aside number world world' := by
  have stream : ∀ key, world'.stream? key = world.stream? key := fun key => by
    rw [World.stream?, World.stream?, streams]
  refine ⟨fun place => ?_, fun key supply here => (stream key).symm.trans here, ?_, by rw [channels],
    by rw [producers], fun paired => ?_⟩
  · cases place with
    | stream key => rw [World.supply?, World.supply?, stream]
    | source key => rw [World.supply?, World.supply?, World.source?, World.source?, sources]
  · rw [World.channel, World.channel, channels]
  · unfold World.Paired
    rwa [producers]

theorem setSource (world : World) {key : Nat × Nat} {supply : Supply} (plain : supply ≠ .channel number)
    (before : world.supply? (.source key) ≠ some (.channel number)) :
    Aside number world (world.setSource key supply) := by
  refine ⟨fun place => ?_, fun _ _ here => here, rfl, rfl, rfl, id⟩
  rw [World.supply?_setSource]
  split
  · rename_i same
    rw [same]
    exact ⟨fun equal => absurd (Option.some.inj equal) plain, fun equal => absurd equal before⟩
  · exact Iff.rfl

theorem setChannel (world : World) {other : Nat} (channel : Channel) (differs : other ≠ number) :
    Aside number world (world.setChannel other channel) :=
  ⟨fun place => by rw [World.supply?_setChannel], fun _ _ here => here,
    World.channel_setChannel_of_ne world channel (Ne.symm differs), List.length_set, rfl, id⟩

theorem dropSupply (world : World) {supply : Supply} (differs : supply ≠ .channel number) :
    Aside number world (world.dropSupply supply) := by
  cases supply with
  | channel other => exact setChannel world _ fun same => differs (congrArg Supply.channel same)
  | _ => exact of_same rfl rfl rfl rfl

theorem withoutStream (world : World) {stream : Nat}
    (before : world.supply? (.stream stream) ≠ some (.channel number)) :
    Aside number world { world with streams := world.streams.set stream none } := by
  refine ⟨fun place => ?_, fun other supply here => ?_, rfl, rfl, rfl, id⟩
  · rw [World.supply?_without_stream]
    split
    · rename_i same
      rw [same]
      exact ⟨fun none_ => (Option.some_ne_none _ none_.symm).elim, fun equal => absurd equal before⟩
    · exact Iff.rfl
  · rw [World.stream?_without] at here
    split at here
    · cases here
    · exact here

theorem withoutSource (world : World) {key : Nat × Nat}
    (before : world.supply? (.source key) ≠ some (.channel number)) :
    Aside number world { world with sources := world.sources.filter fun entry => entry.1 ≠ key } := by
  refine ⟨fun place => ?_, fun _ _ here => here, rfl, rfl, rfl, id⟩
  rw [World.supply?_without_source]
  split
  · rename_i same
    rw [same]
    exact ⟨fun none_ => (Option.some_ne_none _ none_.symm).elim, fun equal => absurd equal before⟩
  · exact Iff.rfl

/-- Another producer has its turn. -/
theorem produce (paired : world.Paired) {n : Nat} (differs : n ≠ number) :
    Aside number world (world.produce n) := by
  refine ⟨fun place => by rw [supply?_produce],
    fun stream supply here => (supply?_produce n (.stream stream)).symm.trans here, ?_, ?_, ?_,
    fun paired => paired.produce n⟩
  · cases there : world.producers[n]? with
    | none => rw [produce_none there]
    | some entry =>
      obtain ⟨trace, same⟩ := produce_eq n entry.1 entry.2 there
      rw [same]
      refine World.channel_setChannel_of_ne world _ fun equal => differs ?_
      exact (paired n entry.1 entry.2 there).symm.trans equal.symm
  · cases there : world.producers[n]? with
    | none => rw [produce_none there]
    | some entry =>
      obtain ⟨trace, same⟩ := produce_eq n entry.1 entry.2 there
      rw [same]
      exact List.length_set
  · rw [producers_produce, if_neg (Ne.symm differs)]

theorem afterOthers {β : Type} {event : Option Event} {f : World → β × World} {reply : Reply β}
    (after : Aside number world (f { world with waiting := world.waiting.erase 0 }).2)
    (answered : world.afterOthers 0 event f = (reply, world')) : Aside number world world' := by
  unfold World.afterOthers at answered
  split at answered
  · cases answered
    exact after
  · cases event <;> cases answered <;> exact of_same rfl rfl rfl rfl

/-- A request that is not about the channel leaves it alone. -/
theorem answer {provider : Provider} {request : Request} {reply : Reply request.Answer}
    (apart : ∀ place ∈ request.places, world.supply? place ≠ some (.channel number))
    (answered : World.answer provider 0 request world = (reply, world')) : Aside number world world' := by
  have waiting : Aside number world { world with waiting := world.waiting.erase 0 } := of_same rfl rfl rfl rfl
  have defers := fun defers : request.Defers => defers.answer provider world
  cases request with
  | cached name | store name template | call handle args =>
    cases answered
    exact of_same rfl rfl rfl rfl
  | load name | lookup handle name | pause =>
    obtain ⟨event, result, same⟩ := defers trivial
    exact afterOthers waiting (same.symm.trans answered)
  | iterate source handle =>
    cases answered
    have noted : Aside number world (world.note (.iterated handle)) := of_same rfl rfl rfl rfl
    exact noted.trans (setSource _ (by simp) (apart _ List.mem_cons_self))
  | take source handle =>
    have answered : (Reply.ready (world.takeStream (0, source) handle).1,
      (world.takeStream (0, source) handle).2) = (reply, world') := answered
    cases answered
    unfold World.takeStream
    split
    · rename_i supply here
      have stream := apart (.stream handle) List.mem_cons_self
      have plain : supply ≠ .channel number := fun same => stream (here.trans (congrArg some same))
      have left := withoutStream world stream
      refine left.trans (setSource _ plain fun equal => ?_)
      exact apart (.source (0, source)) (List.mem_cons_of_mem _ List.mem_cons_self)
        ((left.supplies (.source (0, source))).1 equal)
    · exact of_same rfl rfl rfl rfl
  | pull source =>
    have before := apart (.source (0, source)) List.mem_cons_self
    have answered : world.pull 0 source = (reply, world') := answered
    unfold World.pull at answered
    split at answered
    · rename_i other here
      have differs : other ≠ number := fun same =>
        before (here.trans (congrArg (fun number => some (Supply.channel number)) same))
      unfold World.pullChannel at answered
      dsimp only at answered
      split at answered <;> cases answered <;>
        exact (setChannel world _ differs).trans (of_same rfl rfl rfl rfl)
    · rename_i supply different here
      refine afterOthers ?_ answered
      show Aside number world (World.setSource _ (0, source) (World.advance supply).2)
      exact waiting.trans (setSource _ (advance_plain different number) before)
    · cases answered
      exact of_same rfl rfl rfl rfl
  | release source =>
    have before := apart (.source (0, source)) List.mem_cons_self
    cases answered
    unfold World.releaseSource
    split
    · rename_i supply here
      exact (withoutSource world before).trans
        (dropSupply _ fun same => before (here.trans (congrArg some same)))
    · exact of_same rfl rfl rfl rfl

end Aside

/-! ## Who waits -/

section

variable {α : Type} {world world' : World} {provider : Provider} {request : Request}

/-- A channel of which nobody holds an item, put in the place of another. -/
theorem held_setChannel (world : World) (number : Nat) {channel : Channel} (free : channel.held = none)
    {other : Nat} (before : (world.channel other).held = none) :
    ((world.setChannel number channel).channel other).held = none := by
  by_cases same : other = number
  · subst same
    by_cases inside : other < world.channels.length
    · rw [World.channel_setChannel_self world _ inside]
      exact free
    · have absent : (world.setChannel other channel).channels[other]? = none := by
        rw [World.setChannel, List.getElem?_eq_none_iff, List.length_set]
        exact Nat.le_of_not_lt inside
      rw [World.channel, absent]
      rfl
  · rw [World.channel_setChannel_of_ne world channel same]
    exact before

theorem held_dropSupply (world : World) (supply : Supply) {other : Nat}
    (before : (world.channel other).held = none) :
    ((world.dropSupply supply).channel other).held = none := by
  cases supply with
  | channel number => exact held_setChannel world number rfl before
  | _ => exact before

/-- Whether nobody waits but the first process, and this only for what it asks. -/
def Awaits (world : World) (request? : Option Request) : Prop :=
  world.waiting = [] ∨ world.waiting = [0] ∧ ∃ request, request? = some request ∧ Waits world 0 request

theorem Awaits.erase {request? : Option Request} (awaits : Awaits world request?) :
    world.waiting.erase 0 = [] := by
  rcases awaits with none_ | ⟨one, -⟩
  · rw [none_]
    rfl
  · rw [one]
    rfl

theorem Awaits.waits (awaits : Awaits world (some request)) (listed : 0 ∈ world.waiting) :
    Waits world 0 request := by
  rcases awaits with none_ | ⟨-, request', same, waits⟩
  · rw [none_] at listed
    cases listed
  · cases same
    exact waits

theorem Awaits.nobody (awaits : Awaits world (some request)) (immediate : ¬Waits world 0 request) :
    world.waiting = [] := by
  rcases awaits with none_ | ⟨-, request', same, waits⟩
  · exact none_
  · cases same
    exact absurd waits immediate

/-- A process that is answered does not wait. -/
theorem Awaits.ready {answer : request.Answer} (awaits : Awaits world (some request))
    (ready : World.answer provider 0 request world = (.ready answer, world')) : world'.waiting = [] := by
  have defers := fun defers : request.Defers => defers.answer provider world
  cases request with
  | cached name | store name template | call handle args | iterate source handle =>
    cases ready
    exact awaits.nobody id
  | load name | lookup handle name | pause =>
    obtain ⟨event, result, same⟩ := defers trivial
    cases afterOthers_ready (same.symm.trans ready)
    exact awaits.erase
  | take source handle =>
    have ready : (Reply.ready (world.takeStream (0, source) handle).1,
      (world.takeStream (0, source) handle).2) = (.ready answer, world') := ready
    cases ready
    unfold World.takeStream
    split <;> exact awaits.nobody id
  | pull source =>
    have ready : world.pull 0 source = (.ready answer, world') := ready
    unfold World.pull at ready
    split at ready
    · rename_i number here
      unfold World.pullChannel at ready
      dsimp only at ready
      split at ready
      · cases ready
      · obtain ⟨-, rfl⟩ := Prod.mk.inj ready
        exact awaits.erase
    · cases afterOthers_ready ready
      exact awaits.erase
    · rename_i here
      cases ready
      refine awaits.nobody fun waits => ?_
      obtain ⟨supply, there, -⟩ := waits
      cases here.symm.trans there
  | release source =>
    cases ready
    unfold World.releaseSource
    split
    · rw [World.waiting_dropSupply]
      exact awaits.nobody id
    · exact awaits.nobody id

/-- A process that has to wait holds nothing of what it waits for. -/
theorem Awaits.pending (awaits : Awaits world (some request))
    (pending : World.answer provider 0 request world = (.pending, world')) :
    world'.waiting = [0] ∧ Waits world' 0 request := by
  have one : 0 :: world.waiting.erase 0 = [0] := congrArg (0 :: ·) awaits.erase
  have defers := fun defers : request.Defers => defers.answer provider world
  cases request with
  | load name | lookup handle name | pause =>
    obtain ⟨event, result, same⟩ := defers trivial
    obtain ⟨-, -, -, waiting⟩ := Stage.Traced.afterOthers_pending (same.symm.trans pending)
    exact ⟨waiting.trans one, trivial⟩
  | pull source =>
    have pending : world.pull 0 source = (.pending, world') := pending
    unfold World.pull at pending
    split at pending
    · rename_i number here
      obtain ⟨delivery, channel, gets, pulled⟩ := @pullChannel_cases world 0 number fun listed => by
        obtain ⟨supply, there, free⟩ := awaits.waits listed
        exact free number (Option.some.inj (there.symm.trans here))
      rcases pulled with ⟨rfl, pulled⟩ | ⟨answer, -, pulled⟩
      · cases pulled.symm.trans pending
        refine ⟨one, .channel number, here, fun other same => ?_⟩
        cases same
        show ((world.setChannel number channel).channel number).held = none
        rw [gets.waiting]
        by_cases inside : number < world.channels.length
        · rw [World.channel_setChannel_self world _ inside]
          exact Channel.acceptHeld_held
        · have absent : (world.setChannel number (world.channel number).acceptHeld).channels[number]? = none := by
            rw [World.setChannel, List.getElem?_eq_none_iff, List.length_set]
            exact Nat.le_of_not_lt inside
          rw [World.channel, absent]
          rfl
      · cases pulled.symm.trans pending
    · rename_i supply different here
      obtain ⟨-, -, sources, waiting⟩ := Stage.Traced.afterOthers_pending pending
      refine ⟨waiting.trans one, supply, ?_, fun number same => absurd same (different number)⟩
      rw [World.source?, sources]
      exact here
    · cases pending
  | take source handle => cases pending
  | cached _ | store _ _ | call _ _ | iterate _ _ | release _ => cases pending

/-- What others do lets nobody wait for something else. -/
theorem Awaits.of_world {request? : Option Request} (awaits : Awaits world request?)
    (waiting : world'.waiting = world.waiting) (sources : ∀ key, world'.source? key = world.source? key)
    (held : ∀ other, (world.channel other).held = none → (world'.channel other).held = none) :
    Awaits world' request? := by
  rcases awaits with none_ | ⟨one, request, asks, waits⟩
  · exact .inl (waiting.trans none_)
  · exact .inr ⟨waiting.trans one, request, asks, Stage.waits_of_world waits sources held⟩

end

end Stencil.Render
