import Stencil.Proofs.Rendering.Courses
/-!
# What becomes of items that were sent

In a course of a stage, an item that was given to a rendering is held by the rendering as long as the
round for it goes on. Then either the rendering has asked for the next item, and the ticket is
accepted, or it has given the source back, and the ticket is closed (`Fate`). That is so at the start
and no step changes it (`Traced`).
-/

set_option autoImplicit false

namespace Stencil.Render

open Stencil.Stream
open RenderM

/-- Whether the next thing about a source behind a history is that its next item is asked for. -/
def PullsNext {α : Type} (source : Nat) (now : Option (Process α)) : List Exchange → Prop
  | [] => ∃ p, now = some p ∧ p.asks? = some (.pull source)
  | exchange :: _ => exchange.request = .pull source

/-- What became of an item that a rendering was given from a channel: `history` is that of the
rendering, which now is the process `now`. -/
inductive Fate {α : Type} (settings : Settings) (world : World) (history : List Exchange)
    (now : Option (Process α)) (number : Nat) (entry : Delivered) (item : Item) : Prop
  /-- The rendering holds it, and has not dealt with the source since. -/
  | held {before later : List Exchange} {source : Nat}
    (split : history = before ++ .brings source item :: later) (place : before.length = entry.place)
    (apart : ∀ exchange ∈ later, exchange.request.source? ≠ some source)
    (holds : (world.channel number).held = some entry.ticket)
    (mine : world.source? (entry.task, source) = some (.channel number))
  /-- The round for it has ended without a failure, and the next item was asked for. -/
  | accepted {before inside rest : List Exchange} {source : Nat} {round : Round} {text : String}
    {behind : State} (split : history = before ++ .brings source item :: (inside ++ rest))
    (place : before.length = entry.place)
    (rendered : (round.process settings item).Passes inside (.done (.ok text, behind)))
    (pulls : PullsNext source now rest)
    (settled : (entry.ticket, .accepted) ∈ (world.channel number).settled)
  /-- The round for it has ended, and the source was given back. -/
  | closed {before inside rest : List Exchange} {source : Nat} {round : Round}
    {result : Except Failure String} {behind : State}
    (split : history = before ++ .brings source item :: (inside ++ rest))
    (place : before.length = entry.place)
    (ended : (round.process settings item).Passes inside (.done (result, behind)))
    (released : rest.head?.map Exchange.request = some (.release source))
    (settled : (entry.ticket, .closed) ∈ (world.channel number).settled)

namespace Fate

variable {α : Type} {settings : Settings} {world world' : World} {history : List Exchange}
  {now : Option (Process α)} {number : Nat} {entry : Delivered} {item : Item}

/-- What was delivered stands in the history. -/
theorem history_ne_nil (fate : Fate settings world history now number entry item) : history ≠ [] := by
  cases fate with
  | held split | accepted split | closed split =>
    rw [split]
    simp

/-- What happens elsewhere in the world changes nothing. -/
theorem of_world (fate : Fate settings world history now number entry item)
    (same : ∀ source, (world.channel number).held ≠ none →
      world.source? (entry.task, source) = some (.channel number) →
      world'.source? (entry.task, source) = some (.channel number) ∧
        (world'.channel number).held = (world.channel number).held)
    (settled : ∀ entry ∈ (world.channel number).settled, entry ∈ (world'.channel number).settled) :
    Fate settings world' history now number entry item := by
  cases fate with
  | held split place apart holds mine =>
    obtain ⟨mine', held⟩ := same _ (by rw [holds]; simp) mine
    exact .held split place apart (held.trans holds) mine'
  | accepted split place rendered pulls settled' =>
    exact .accepted split place rendered pulls (settled _ settled')
  | closed split place ended released settled' =>
    exact .closed split place ended released (settled _ settled')

theorem grown {before later : List Exchange} {first : Exchange}
    (split : history = before ++ first :: later) (exchange : Exchange) :
    history ++ [exchange] = before ++ first :: (later ++ [exchange]) := by
  simp [split]

theorem grown_behind {before inside rest : List Exchange} {first : Exchange}
    (split : history = before ++ first :: (inside ++ rest)) (exchange : Exchange) :
    history ++ [exchange] = before ++ first :: (inside ++ (rest ++ [exchange])) := by
  simp [split]

/-- Nor does an exchange of the rendering about another source. -/
theorem exchanged {p : Process α} {exchange : Exchange} {now' : Option (Process α)}
    (fate : Fate settings world history (some p) number entry item)
    (asks : p.asks? = some exchange.request)
    (other : ∀ source, (world.channel number).held ≠ none →
      world.source? (entry.task, source) = some (.channel number) →
      exchange.request.source? ≠ some source) :
    Fate settings world (history ++ [exchange]) now' number entry item := by
  cases fate with
  | @held before later source split place apart holds mine =>
    refine .held (grown split exchange) place ?_ holds mine
    intro exchange' listed
    rcases List.mem_append.1 listed with old | new
    · exact apart exchange' old
    · rw [List.mem_singleton.1 new]
      exact other source (by rw [holds]; simp) mine
  | @accepted before inside rest source round text behind split place rendered pulls settled =>
    refine .accepted (grown_behind split exchange) place rendered ?_ settled
    cases rest with
    | cons first rest => exact pulls
    | nil =>
      obtain ⟨p', same, asks'⟩ := pulls
      cases same
      exact Option.some.inj (asks.symm.trans asks')
  | @closed before inside rest source round result behind split place ended released settled =>
    refine .closed (grown_behind split exchange) place ended ?_ settled
    cases rest with
    | cons first rest => exact released
    | nil => exact nomatch released

/-- A rendering in a round that deals with the source has come to the end of the round. -/
theorem ended_of_asks {source : Nat} {later : List Exchange} {p : Process α} {request : Request}
    (inside : InRound settings source item later p) (asks : p.asks? = some request)
    (about : request.source? = some source) :
    ∃ (round : Round) (result : Except Failure String) (behind : State),
      (round.process settings item).Passes later (.done (result, behind)) ∧
      (request = .pull source → ∃ text, result = .ok text) := by
  obtain ⟨round, passes, ⟨next, apart⟩, returns⟩ := inside
  rename_i process after
  cases process with
  | ask holding request' next' =>
    cases asks
    exact absurd (apart.1 source about) (Nat.not_succ_le_self source)
  | done out =>
    obtain ⟨result, behind⟩ := out
    refine ⟨round, result, behind, passes, fun pulls => ?_⟩
    cases result with
    | ok text => exact ⟨text, rfl⟩
    | error failure =>
      subst pulls
      exact nomatch (returns.failed failure behind).symm.trans asks

/-- A rendering that asks for the next item accepts the one that it holds. -/
theorem accept (fate : Fate settings world history now number entry item)
    (inside : number < world.channels.length)
    (asks : ∀ source, world.source? (entry.task, source) = some (.channel number) →
      ∃ start p : Process α, now = some p ∧ start.Loops settings ∧ start.Passes history p ∧
        p.asks? = some (.pull source)) :
    Fate settings (world.setChannel number (world.channel number).acceptHeld) history now number entry
      item := by
  have settles := @Channel.acceptHeld_settled (world.channel number)
  rw [← World.channel_setChannel_self world (world.channel number).acceptHeld inside] at settles
  have keeps : ∀ entry ∈ (world.channel number).settled,
      entry ∈ ((world.setChannel number (world.channel number).acceptHeld).channel number).settled := by
    intro entry listed
    rw [World.channel_setChannel_self world _ inside] at settles ⊢
    rw [settles]
    exact List.mem_append_right _ listed
  cases fate with
  | @held before later source split place apart holds mine =>
    obtain ⟨start, p, same, loops, passes, pulls⟩ := asks source mine
    obtain ⟨round, result, behind, ended, fine⟩ :=
      ended_of_asks (loops before later source item p (split ▸ passes) apart) pulls rfl
    obtain ⟨text, rfl⟩ := fine rfl
    have nothing : history = before ++ .brings source item :: (later ++ []) := by
      rw [List.append_nil]
      exact split
    refine .accepted nothing place ended ⟨p, same, pulls⟩ ?_
    rw [World.channel_setChannel_self world _ inside] at settles ⊢
    rw [settles, holds]
    exact List.mem_append_left _ (List.mem_singleton.2 rfl)
  | accepted split place rendered pulls settled =>
    exact .accepted split place rendered pulls (keeps _ settled)
  | closed split place ended released settled =>
    exact .closed split place ended released (keeps _ settled)

/-- A rendering that gives the source back closes the item that it holds. -/
theorem release {p : Process α} {source : Nat} {now' : Option (Process α)}
    (fate : Fate settings world history (some p) number entry item) {start : Process α}
    (loops : start.Loops settings) (passes : start.Passes history p)
    (asks : p.asks? = some (.release source))
    (mine : ∀ other, world.source? (entry.task, other) = some (.channel number) → other = source)
    (settled : ∀ entry ∈ (world.channel number).settled, entry ∈ (world'.channel number).settled)
    (closes : ∀ ticket, (world.channel number).held = some ticket →
      (ticket, .closed) ∈ (world'.channel number).settled) :
    Fate settings world' (history ++ [⟨.release source, ()⟩]) now' number entry item := by
  cases fate with
  | @held before later source' split place apart holds here =>
    obtain rfl := mine source' here
    obtain ⟨round, result, behind, ended, -⟩ :=
      ended_of_asks (loops before later source' item p (split ▸ passes) apart) asks rfl
    exact .closed (grown split _) place ended rfl (closes _ holds)
  | @accepted before inside rest source' round text behind split place rendered pulls settled' =>
    refine .accepted (grown_behind split _) place rendered ?_ (settled _ settled')
    cases rest with
    | cons first rest => exact pulls
    | nil =>
      obtain ⟨p', same, asks'⟩ := pulls
      cases same
      exact nomatch asks.symm.trans asks'
  | @closed before inside rest source' round result behind split place ended released settled' =>
    refine .closed (grown_behind split _) place ended ?_ (settled _ settled')
    cases rest with
    | cons first rest => exact released
    | nil => exact nomatch released

end Fate

/-! ## Answers -/

/-- Whether each channel of a world is behind one stream or source, and nobody waits twice. -/
structure World.Placed (world : World) : Prop where
  exclusive : ∀ place other number, world.supply? place = some (.channel number) →
    world.supply? other = some (.channel number) → place = other
  inside : ∀ place number, world.supply? place = some (.channel number) →
    number < world.channels.length
  waiting : world.waiting.Nodup

/-- What an answer changes of a world that has nothing to do with a channel. -/
structure Quiet (world world' : World) (task : Nat) (request : Request) : Prop where
  placed : world'.Placed
  channels : world'.channels = world.channels
  kept : ∀ key number, world.source? key = some (.channel number) →
    world'.source? key = some (.channel number)
  apart : ∀ source number, world.source? (task, source) = some (.channel number) →
    request.source? ≠ some source
  others : ∀ key, key.1 ≠ task → world'.source? key = world.source? key
  opens : ∀ source, world'.source? (task, source) ≠ none →
    world.source? (task, source) ≠ none ∨ request.opened? = some source
  waiting : ∀ other ∈ world'.waiting, other ≠ task ∧ other ∈ world.waiting

section

variable {world world' : World} {provider : Provider} {task : Nat} {request : Request}

theorem World.Placed.of_less (placed : world.Placed) {world' : World}
    (less : ∀ place number, world'.supply? place = some (.channel number) →
      world.supply? place = some (.channel number))
    (length : world'.channels.length = world.channels.length) (waiting : world'.waiting.Nodup) :
    world'.Placed where
  exclusive place other number here there :=
    placed.exclusive place other number (less _ _ here) (less _ _ there)
  inside place number here := length ▸ placed.inside place number (less _ _ here)
  waiting := waiting

/-- A supply that is not a channel is put into a source that has none. -/
theorem World.Placed.setSource (placed : world.Placed) (key : Nat × Nat) {supply : Supply}
    (plain : ∀ number, supply ≠ .channel number) : (world.setSource key supply).Placed := by
  refine placed.of_less (fun place number here => ?_) rfl placed.waiting
  rw [World.supply?_setSource] at here
  split at here
  · exact absurd (Option.some.inj here) (plain number)
  · exact here

/-- Nothing changes but who waits, or what does not matter here. -/
theorem Quiet.of_same (placed : world.Placed) (channels : world'.channels = world.channels)
    (streams : world'.streams = world.streams) (sources : world'.sources = world.sources)
    (apart : request.source? = none) (nodup : world'.waiting.Nodup)
    (waiting : ∀ other ∈ world'.waiting, other ≠ task ∧ other ∈ world.waiting) :
    Quiet world world' task request := by
  have same : ∀ key, world'.source? key = world.source? key := fun key => by
    rw [World.source?, World.source?, sources]
  refine ⟨placed.of_less (fun place number here => ?_) (by rw [channels]) nodup, channels,
    fun key number here => (same key).trans here, fun source number _ about => ?_,
    fun key _ => same key, fun source some_ => .inl (same _ ▸ some_), waiting⟩
  · cases place with
    | stream number' =>
      rw [World.supply?, World.stream?, streams] at here
      exact here
    | source key => exact (same key).symm.trans here
  · rw [apart] at about
    cases about

/-- A supply that is not a channel is put into a source. -/
theorem Quiet.setSource (placed : world.Placed) (base : World)
    (channels : base.channels = world.channels) (streams : base.streams = world.streams)
    (sources : base.sources = world.sources) (nodup : base.waiting.Nodup)
    (waiting : ∀ other ∈ base.waiting, other ≠ task ∧ other ∈ world.waiting) {source : Nat}
    {supply : Supply} (plain : ∀ number, supply ≠ .channel number)
    (before : ∀ number, world.source? (task, source) ≠ some (.channel number))
    (opens : world.source? (task, source) ≠ none ∨ request.opened? = some source)
    (about : request.source? = some source) :
    Quiet world (base.setSource (task, source) supply) task request := by
  have same : ∀ key, base.source? key = world.source? key := fun key => by
    rw [World.source?, World.source?, sources]
  have at_ : ∀ key, (base.setSource (task, source) supply).source? key =
      if key = (task, source) then some supply else world.source? key := fun key => by
    rw [World.source?_setSource, same]
  have calm : base.Placed := by
    refine placed.of_less (fun place number here => ?_) (by rw [channels]) nodup
    cases place with
    | stream number' =>
      rw [World.supply?, World.stream?, streams] at here
      exact here
    | source key => exact (same key).symm.trans here
  refine ⟨calm.setSource _ plain, channels, fun key number here => ?_, fun other number here again => ?_,
    fun key differs => ?_, fun other some_ => ?_, waiting⟩
  · rw [at_, if_neg]
    · exact here
    · rintro rfl
      exact before number here
  · cases about.symm.trans again
    exact before number here
  · rw [at_, if_neg]
    rintro rfl
    exact differs rfl
  · rw [at_] at some_
    split at some_
    · rename_i here
      cases here
      exact opens
    · exact .inl some_

/-- A stream becomes a source. -/
theorem Quiet.taken (placed : world.Placed) {source stream : Nat} {supply : Supply}
    (here : world.stream? stream = some supply) (closed : world.source? (task, source) = none)
    (opens : request.opened? = some source) (about : request.source? = some source)
    (waiting : ∀ other ∈ world.waiting, other ≠ task ∧ other ∈ world.waiting) :
    Quiet world (({ world with streams := world.streams.set stream none } : World).setSource
      (task, source) supply) task request := by
  let left : World := { world with streams := world.streams.set stream none }
  have at_ : ∀ place, (left.setSource (task, source) supply).supply? place =
      if place = .source (task, source) then some supply
      else if place = .stream stream then none else world.supply? place := fun place => by
    rw [World.supply?_setSource, World.supply?_without_stream]
  have source_at : ∀ key, (left.setSource (task, source) supply).source? key =
      if key = (task, source) then some supply else world.source? key := fun key => by
    rw [World.source?_setSource]
    rfl
  -- The supply is at the place of the source what it was at that of the stream.
  have from_ : ∀ place number, (left.setSource (task, source) supply).supply? place =
      some (.channel number) → (place = .source (task, source) ∧
        world.supply? (.stream stream) = some (.channel number)) ∨
      (place ≠ .source (task, source) ∧ place ≠ .stream stream ∧
        world.supply? place = some (.channel number)) := by
    intro place number found
    rw [at_] at found
    split at found
    · rename_i same
      exact .inl ⟨same, here.trans found⟩
    · rename_i differs
      split at found
      · exact nomatch found
      · rename_i differs'
        exact .inr ⟨differs, differs', found⟩
  refine ⟨⟨fun place other number found found' => ?_, fun place number found => ?_, placed.waiting⟩,
    rfl, fun key number found => ?_, fun other number found again => ?_, fun key differs => ?_,
    fun other some_ => ?_, waiting⟩
  · rcases from_ place number found with ⟨same, stream_⟩ | ⟨-, differs, old⟩
    · rcases from_ other number found' with ⟨same', -⟩ | ⟨-, differs', old'⟩
      · exact same.trans same'.symm
      · exact absurd (placed.exclusive _ _ number old' stream_) differs'
    · rcases from_ other number found' with ⟨-, stream_⟩ | ⟨-, -, old'⟩
      · exact absurd (placed.exclusive _ _ number old stream_) differs
      · exact placed.exclusive place other number old old'
  · rcases from_ place number found with ⟨-, old⟩ | ⟨-, -, old⟩
    · exact placed.inside _ number old
    · exact placed.inside _ number old
  · rw [source_at, if_neg]
    · exact found
    · rintro rfl
      exact nomatch closed.symm.trans found
  · cases about.symm.trans again
    exact nomatch closed.symm.trans found
  · rw [source_at, if_neg]
    rintro rfl
    exact differs rfl
  · rw [source_at] at some_
    split at some_
    · rename_i same
      cases same
      exact .inr opens
    · exact .inl some_

/-- A source that is no channel is given back. -/
theorem Quiet.without (placed : world.Placed) {source : Nat} {supply : Supply}
    (before : ∀ number, world.source? (task, source) ≠ some (.channel number))
    (about : request.source? = some source) (plain : ∀ number, supply ≠ .channel number)
    (waiting : ∀ other ∈ world.waiting, other ≠ task ∧ other ∈ world.waiting) :
    Quiet world (({ world with sources := world.sources.filter fun entry => entry.1 ≠
      (task, source) } : World).dropSupply supply) task request := by
  have dropped : ∀ world : World, world.dropSupply supply = world := by
    intro world
    cases supply with
    | channel number => exact absurd rfl (plain number)
    | _ => rfl
  rw [dropped]
  have at_ := World.source?_without world (task, source)
  refine ⟨placed.of_less (fun place number here => ?_) rfl placed.waiting, rfl,
    fun key number here => ?_, fun other number here again => ?_, fun key differs => ?_,
    fun other some_ => ?_, waiting⟩
  · rw [World.supply?_without_source] at here
    split at here
    · exact nomatch here
    · exact here
  · rw [at_, if_neg]
    · exact here
    · rintro rfl
      exact before number here
  · cases about.symm.trans again
    exact before number here
  · rw [at_, if_neg]
    rintro rfl
    exact differs rfl
  · rw [at_] at some_
    split at some_
    · exact absurd rfl some_
    · exact .inl some_

/-- Behind an item of what is no channel there is no channel either. -/
theorem advance_plain {supply : Supply} (plain : ∀ number, supply ≠ .channel number) :
    ∀ number, (World.advance supply).2 ≠ .channel number := by
  intro number
  unfold World.advance
  split
  · simp
  · simp
  · simp
  · simp
  · simp
  · exact absurd rfl (plain _)

/-- What others were let go on for is answered, or has to wait. -/
theorem afterOthers_ready {α : Type} {event : Option Event} {f : World → α × World} {answer : α}
    (ready : world.afterOthers task event f = (.ready answer, world')) :
    f { world with waiting := world.waiting.erase task } = (answer, world') := by
  unfold World.afterOthers at ready
  split at ready
  · cases ready
    rfl
  · cases ready

theorem erase_waiting (placed : world.Placed) :
    ∀ other ∈ world.waiting.erase task, other ≠ task ∧ other ∈ world.waiting := fun _ listed =>
  (placed.waiting.mem_erase_iff).1 listed

/-- What is answered, and has nothing to do with a channel. -/
theorem quiet_answered (placed : world.Placed)
    (waits : task ∈ world.waiting → Waits world task request)
    (opens : ∀ source, request.opened? = some source → world.source? (task, source) = none)
    (elsewhere : ∀ source number, request = .pull source ∨ request = .release source →
      world.source? (task, source) ≠ some (.channel number))
    {answer : request.Answer}
    (ready : World.answer provider task request world = (.ready answer, world')) :
    Quiet world world' task request := by
  have free : ¬Waits world task request → ∀ other ∈ world.waiting, other ≠ task ∧ other ∈ world.waiting :=
    fun immediate other listed => ⟨fun same => immediate (waits (same ▸ listed)), listed⟩
  cases request with
  | cached name =>
    cases ready
    exact .of_same placed rfl rfl rfl rfl placed.waiting (free fun waits => waits)
  | store name template =>
    cases ready
    exact .of_same placed rfl rfl rfl rfl placed.waiting (free fun waits => waits)
  | call handle args =>
    cases ready
    exact .of_same placed rfl rfl rfl rfl placed.waiting (free fun waits => waits)
  | load name =>
    have ready : world.afterOthers task (some (.loaded name)) (fun world => (provider.load name, world)) =
      (.ready answer, world') := ready
    cases afterOthers_ready ready
    exact .of_same placed rfl rfl rfl rfl (placed.waiting.erase _) (erase_waiting placed)
  | lookup handle name =>
    have ready : world.afterOthers task (some (.lookedUp handle name)) (fun world =>
        (provider.lookup handle name, world)) =
      (.ready answer, world') := ready
    cases afterOthers_ready ready
    exact .of_same placed rfl rfl rfl rfl (placed.waiting.erase _) (erase_waiting placed)
  | pause =>
    have ready : world.afterOthers task none (fun world => ((), world)) =
      (.ready answer, world') := ready
    cases afterOthers_ready ready
    exact .of_same placed rfl rfl rfl rfl (placed.waiting.erase _) (erase_waiting placed)
  | iterate source handle =>
    cases ready
    have closed := opens source rfl
    refine .setSource placed (world.note (.iterated handle)) rfl rfl rfl placed.waiting
      (free fun waits => waits) (fun _ same => Supply.noConfusion same) (fun number here => ?_)
      (.inr rfl) rfl
    exact nomatch closed.symm.trans here
  | take source handle =>
    have ready : (Reply.ready (world.takeStream (task, source) handle).1,
      (world.takeStream (task, source) handle).2) = (.ready answer, world') := ready
    unfold World.takeStream at ready
    split at ready
    · rename_i supply here
      cases ready
      exact .taken placed here (opens source rfl) rfl rfl (free fun waits => waits)
    · cases ready
      have closed := opens source rfl
      refine ⟨placed, rfl, fun _ _ here => here, fun other number here again => ?_, fun _ _ => rfl,
        fun _ some_ => .inl some_, free fun waits => waits⟩
      cases again
      exact nomatch closed.symm.trans here
  | pull source =>
    have ready : world.pull task source = (.ready answer, world') := ready
    have before := fun number => elsewhere source number (.inl rfl)
    unfold World.pull at ready
    split at ready
    · rename_i number here
      exact absurd here (before number)
    · rename_i supply different here
      cases afterOthers_ready ready
      exact .setSource placed { world with waiting := world.waiting.erase task } rfl rfl rfl
        (placed.waiting.erase _) (erase_waiting placed) (advance_plain different) before
        (.inl (by rw [here]; simp)) rfl
    · rename_i here
      cases ready
      refine ⟨placed, rfl, fun _ _ here => here, fun other number here again => ?_, fun _ _ => rfl,
        fun _ some_ => .inl some_, fun other listed => ⟨fun same => ?_, listed⟩⟩
      · cases again
        exact before number here
      · obtain ⟨supply, there, -⟩ := waits (same ▸ listed)
        exact nomatch here.symm.trans there
  | release source =>
    have ready : (Reply.ready (), world.releaseSource (task, source)) = (.ready answer, world') := ready
    have before := fun number => elsewhere source number (.inr rfl)
    unfold World.releaseSource at ready
    split at ready
    · rename_i supply here
      cases ready
      exact .without placed before rfl (fun number same => before number (same ▸ here))
        (free fun waits => waits)
    · cases ready
      refine ⟨placed, rfl, fun _ _ here => here, fun other number here again => ?_, fun _ _ => rfl,
        fun _ some_ => .inl some_, free fun waits => waits⟩
      cases again
      exact before number here

end

end Stencil.Render
