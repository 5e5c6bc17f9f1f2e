import Stencil.Proofs.Rendering.Fates
/-!
# Tracing the course of a stage

How renderings have come to where they are, where the tickets of channels are, and what became of the
items that were delivered: this holds together at the start, and every step of a stage keeps it so
(`Stage.Traced.of_course`).
-/

set_option autoImplicit false

namespace Stencil.Render

open Stencil.Stream
open RenderM

/-! ## Pulls on channels -/

/-- What a consumer can get of a channel when it has nothing of it in use. -/
inductive Gets (channel : Channel) : Delivery → Channel → Prop
  | failed (breach : Breach) : Gets channel (.failed breach) { channel with breach := none }
  | ended : Gets channel .ended channel
  | received : Gets channel channel.receive.1 channel.receive.2

namespace Gets

variable {channel channel' : Channel} {delivery : Delivery} {sent : List Item} {taken : List Nat}

theorem tally (gets : Gets channel delivery channel') (tally : channel.Tally sent taken)
    (free : channel.held = none) : channel'.Tally sent (taken ++ channel'.held.toList) := by
  have nothing : taken ++ channel.held.toList = taken := by
    rw [free, Option.toList_none, List.append_nil]
  cases gets with
  | failed breach =>
    show Channel.Tally _ sent (taken ++ channel.held.toList)
    rw [nothing]
    exact tally.of_same rfl rfl (fun _ _ listed => listed) rfl rfl rfl
  | ended =>
    rw [nothing]
    exact tally
  | received => exact tally.receive free

theorem settled (gets : Gets channel delivery channel') :
    ∀ entry ∈ channel.settled, entry ∈ channel'.settled := by
  cases gets with
  | failed breach => exact fun _ listed => listed
  | ended => exact fun _ listed => listed
  | received => exact fun _ listed => Channel.receive_settled.subset listed

/-- The consumer holds the ticket of an item that it gets, and nothing else. -/
theorem holds (gets : Gets channel delivery channel') (tally : channel.Tally sent taken)
    (free : channel.held = none) {ticket : Nat} (holds : channel'.held = some ticket) :
    ∃ item, delivery = .item item ∧ sent[ticket]? = some item := by
  cases gets with
  | failed breach => exact nomatch free.symm.trans holds
  | ended => exact nomatch free.symm.trans holds
  | received =>
    obtain ⟨item, got⟩ := Channel.receive_held free holds
    obtain ⟨ticket', queued, holds'⟩ := Channel.receive_item got
    obtain rfl := Option.some.inj (holds.symm.trans holds')
    exact ⟨item, got, (tally.queued ticket item queued).1⟩

theorem waiting (gets : Gets channel .waiting channel') : channel' = channel := by
  generalize same : Delivery.waiting = delivery at gets
  cases gets with
  | failed breach => exact nomatch same
  | ended => rfl
  | received =>
    unfold Channel.receive at same ⊢
    split
    · split <;> rfl
    · rename_i queued
      rw [queued] at same
      dsimp only at same
      split at same <;> cases same
    · rename_i queued
      rw [queued] at same
      dsimp only at same
      split at same <;> cases same

end Gets

/-- A rendering that asks for the next item of a channel lets go of the one before. -/
theorem pullChannel_cases {world : World} {task number : Nat}
    (free : task ∈ world.waiting → (world.channel number).held = none) :
    ∃ delivery channel, Gets (world.channel number).acceptHeld delivery channel ∧
      ((delivery = .waiting ∧ world.pullChannel task number = (.pending,
        { world.setChannel number channel with waiting := task :: world.waiting.erase task })) ∨
      ∃ answer, World.ofDelivery delivery = .ready answer ∧
        world.pullChannel task number = (.ready answer,
          { world.setChannel number channel with waiting := world.waiting.erase task })) := by
  have next : ∃ delivery channel, Gets (world.channel number).acceptHeld delivery channel ∧
      (if world.waiting.contains task then (world.channel number).receive
        else (world.channel number).pull) = (delivery, channel) := by
    split
    · rename_i waits
      have same : (world.channel number).acceptHeld = world.channel number := by
        rw [Channel.acceptHeld, free (List.contains_iff_mem.1 waits)]
      rw [same]
      exact ⟨_, _, .received, rfl⟩
    · rcases @Channel.pull_cases (world.channel number) with ⟨breach, same⟩ | same | same
      · exact ⟨_, _, .failed breach, same⟩
      · exact ⟨_, _, .ended, same⟩
      · exact ⟨_, _, .received, same⟩
  obtain ⟨delivery, channel, gets, same⟩ := next
  refine ⟨delivery, channel, gets, ?_⟩
  unfold World.pullChannel
  dsimp only
  rw [same]
  cases delivery with
  | waiting => exact .inl ⟨rfl, rfl⟩
  | _ => exact .inr ⟨_, rfl, rfl⟩

/-! ### A source that is given back -/

section

variable {world : World} {key : Nat × Nat} {number : Nat}
  (mine : world.source? key = some (.channel number))

include mine

/-- A source that is a channel is closed when it is given back. -/
theorem World.releaseSource_channel : world.releaseSource key =
    ({ world with sources := world.sources.filter fun entry => entry.1 ≠ key } : World).setChannel
      number (world.channel number).close := by
  unfold World.releaseSource
  rw [mine]
  rfl

theorem World.source?_releaseSource (other : Nat × Nat) :
    (world.releaseSource key).source? other = if other = key then none else world.source? other := by
  rw [World.releaseSource_channel mine]
  exact World.source?_without world key other

theorem World.channel_releaseSource (inside : number < world.channels.length) :
    (world.releaseSource key).channel number = (world.channel number).close := by
  rw [World.releaseSource_channel mine]
  exact World.channel_setChannel_self _ _ inside

theorem World.channel_releaseSource_of_ne {other : Nat} (differs : other ≠ number) :
    (world.releaseSource key).channel other = world.channel other := by
  rw [World.releaseSource_channel mine]
  exact World.channel_setChannel_of_ne _ _ differs

/-- Nobody else has a source that is this channel. -/
theorem World.Placed.only_source (placed : world.Placed) {other : Nat × Nat}
    (found : world.source? other = some (.channel number)) : other = key := by
  cases placed.exclusive (.source other) (.source key) number found mine
  rfl

end

/-! ## The invariant -/

/-- The tickets of the items that were delivered from a channel. -/
def Log.taken (log : Log) (number : Nat) : List Nat := (log.delivered number).map Delivered.ticket

/-- Behind an exchange one more item is delivered, if the exchange has brought one. -/
theorem Log.taken_exchanged (log : Log) (task : Nat) (exchange : Exchange) (number : Nat)
    (held : Option Nat) (other : Nat) :
    (log.exchanged task exchange (held.map (number, ·))).taken other =
      log.taken other ++ if other = number then held.toList else [] := by
  unfold Log.taken Log.exchanged
  cases held with
  | none => simp
  | some ticket =>
    dsimp only [Option.map_some]
    by_cases same : other = number
    · subst same
      simp
    · simp [same]

namespace Stage

variable {α : Type} {settings : Settings} {provider : Provider} {start stage : Stage α} {log : Log}

/-- How renderings have come to what they are, what sources they have, and what they wait for. -/
structure Runs (start stage : Stage α) (history : Nat → List Exchange) : Prop where
  passes : ∀ task q, stage.renderings[task]? = some q →
    ∃ p : Process α, start.renderings[task]? = some p ∧ p.Passes (history task) q
  absent : ∀ task, stage.renderings[task]? = none → history task = []
  numbered : ∀ task q, stage.renderings[task]? = some q → ∃ next,
    q.Numbered (fun _ _ => True) 0 next ∧
      ∀ source, stage.world.source? (task, source) ≠ none → source < next
  waits : ∀ task ∈ stage.world.waiting, ∀ q, stage.renderings[task]? = some q →
    ∃ request, q.asks? = some request ∧ Waits stage.world task request

/-- What became of all items that were delivered. -/
def Fates (settings : Settings) (world : World) (renderings : List (Process α))
    (history : Nat → List Exchange) (sent : Nat → List Item) (delivered : Nat → List Delivered) : Prop :=
  ∀ number, ∀ entry ∈ delivered number, ∃ item, (sent number)[entry.ticket]? = some item ∧
    Fate settings world (history entry.task) renderings[entry.task]? number entry item

/-- What holds in the course of a stage. -/
structure Traced (settings : Settings) (start stage : Stage α) (log : Log) : Prop where
  placed : stage.world.Placed
  runs : Runs start stage log.history
  tally : ∀ number, (stage.world.channel number).Tally (log.sent number)
    (log.taken number)
  fates : Fates settings stage.world stage.renderings log.history log.sent log.delivered

/-- A rendering goes on with an answer. -/
theorem Runs.answered {history : Nat → List Exchange} (runs : Runs start stage history) {task : Nat}
    {holding : Holding} {request : Request} {next : request.Answer → Process α}
    (here : stage.renderings[task]? = some (.ask holding request next)) (answer : request.Answer)
    {world : World} (others : ∀ key, key.1 ≠ task → world.source? key = stage.world.source? key)
    (opens : ∀ source, world.source? (task, source) ≠ none →
      stage.world.source? (task, source) ≠ none ∨ request.opened? = some source)
    (waiting : ∀ other ∈ world.waiting, other ≠ task ∧ other ∈ stage.world.waiting)
    (held : ∀ other number source, other ≠ task →
      stage.world.source? (other, source) = some (.channel number) →
      (stage.world.channel number).held = none → (world.channel number).held = none) :
    Runs start { stage with renderings := stage.renderings.set task (next answer), world }
      (Function.update history task (history task ++ [⟨request, answer⟩])) := by
  have inside : task < stage.renderings.length := (List.getElem?_eq_some_iff.1 here).1
  refine ⟨fun other q there => ?_, fun other none_ => ?_, fun other q there => ?_,
    fun other listed q there => ?_⟩
  · by_cases same : other = task
    · subst same
      obtain rfl : next answer = q := by simpa [inside] using there
      obtain ⟨p, began, passes⟩ := runs.passes other _ here
      refine ⟨p, began, ?_⟩
      rw [Function.update_self]
      exact passes.concat answer
    · rw [Function.update_of_ne same]
      rw [List.getElem?_set_ne (Ne.symm same)] at there
      exact runs.passes other q there
  · have differs : other ≠ task := by
      rintro rfl
      exact absurd (List.getElem?_set_self inside) (by rw [none_]; simp)
    rw [Function.update_of_ne differs]
    rw [List.getElem?_set_ne (Ne.symm differs)] at none_
    exact runs.absent other none_
  · by_cases same : other = task
    · subst same
      obtain rfl : next answer = q := by simpa [inside] using there
      obtain ⟨number, ⟨about, opened, goes⟩, bound⟩ := runs.numbered other _ here
      refine ⟨_, goes answer, fun source some_ => ?_⟩
      rcases opens source some_ with old | new
      · have below := bound source old
        cases opened_ : request.opened? with
        | none => exact below
        | some first => exact below.trans_le ((opened first opened_).trans (Nat.le_succ _))
      · rw [new]
        exact Nat.lt_succ_self source
    · rw [List.getElem?_set_ne (Ne.symm same)] at there
      obtain ⟨number, numbered, bound⟩ := runs.numbered other q there
      exact ⟨number, numbered, fun source some_ => bound source (others (other, source) same ▸ some_)⟩
  · obtain ⟨differs, listed⟩ := waiting other listed
    rw [List.getElem?_set_ne (Ne.symm differs)] at there
    obtain ⟨request', asks, waits⟩ := runs.waits other listed q there
    refine ⟨request', asks, ?_⟩
    cases request' with
    | pull source =>
      obtain ⟨supply, found, free⟩ := waits
      refine ⟨supply, (others (other, source) differs).trans found, fun number same => ?_⟩
      exact held other number source differs (same ▸ found) (free number same)
    | _ => exact waits

/-- The world changes, and no rendering. -/
theorem Runs.of_world {history : Nat → List Exchange} (runs : Runs start stage history) {world : World}
    (sources : ∀ key, world.source? key ≠ none → stage.world.source? key ≠ none)
    (waits : ∀ task ∈ world.waiting, ∀ q, stage.renderings[task]? = some q →
      ∃ request, q.asks? = some request ∧ Waits world task request) :
    Runs start { stage with world } history where
  passes := runs.passes
  absent := runs.absent
  numbered task q here := by
    obtain ⟨next, numbered, bound⟩ := runs.numbered task q here
    exact ⟨next, numbered, fun source some_ => bound source (sources _ some_)⟩
  waits := waits

/-- A rendering waits for the same in a world where its channels hold no more. -/
theorem waits_of_world {world world' : World} {task : Nat} {request : Request}
    (waits : Waits world task request) (sources : ∀ key, world'.source? key = world.source? key)
    (held : ∀ number, (world.channel number).held = none → (world'.channel number).held = none) :
    Waits world' task request := by
  cases request with
  | pull source =>
    obtain ⟨supply, here, free⟩ := waits
    exact ⟨supply, (sources _).trans here, fun number same => held number (free number same)⟩
  | _ => exact waits

namespace Fates

variable {world world' : World} {renderings : List (Process α)} {history : Nat → List Exchange}
  {sent : Nat → List Item} {delivered : Nat → List Delivered}

theorem of_world (fates : Fates settings world renderings history sent delivered)
    (same : ∀ number key, (world.channel number).held ≠ none →
      world.source? key = some (.channel number) → world'.source? key = some (.channel number) ∧
        (world'.channel number).held = (world.channel number).held)
    (settled : ∀ number, ∀ entry ∈ (world.channel number).settled,
      entry ∈ (world'.channel number).settled) :
    Fates settings world' renderings history sent delivered := by
  intro number entry listed
  obtain ⟨item, here, fate⟩ := fates number entry listed
  exact ⟨item, here, fate.of_world (fun source => same number (entry.task, source)) (settled number)⟩

/-- One rendering goes on with an answer, and the world stays as it is. -/
theorem exchanged (fates : Fates settings world renderings history sent delivered) {task : Nat}
    {p p' : Process α} {exchange : Exchange} (here : renderings[task]? = some p)
    (asks : p.asks? = some exchange.request)
    (apart : ∀ number source, (world.channel number).held ≠ none →
      world.source? (task, source) = some (.channel number) →
      exchange.request.source? ≠ some source) :
    Fates settings world (renderings.set task p')
      (Function.update history task (history task ++ [exchange])) sent delivered := by
  intro number entry listed
  obtain ⟨item, there, fate⟩ := fates number entry listed
  refine ⟨item, there, ?_⟩
  by_cases same : entry.task = task
  · rw [same, Function.update_self]
    rw [same, here] at fate
    exact fate.exchanged asks (same ▸ apart number)
  · rw [Function.update_of_ne same, List.getElem?_set_ne (Ne.symm same)]
    exact fate

theorem sends (fates : Fates settings world renderings history sent delivered) (number : Nat)
    (items : List Item) :
    Fates settings world renderings history (Function.update sent number (sent number ++ items))
      delivered := by
  intro other entry listed
  obtain ⟨item, there, fate⟩ := fates other entry listed
  refine ⟨item, ?_, fate⟩
  by_cases same : other = number
  · subst same
    rw [Function.update_self, List.getElem?_append_left (List.getElem?_eq_some_iff.1 there).1]
    exact there
  · rw [Function.update_of_ne same]
    exact there

end Fates

/-- The tallies of all channels, when one of them changes. -/
theorem tally_setChannel {world : World} {sent sent' : Nat → List Item} {taken taken' : Nat → List Nat}
    (tally : ∀ number, (world.channel number).Tally (sent number) (taken number)) {number : Nat}
    {channel : Channel} (inside : number < world.channels.length)
    (others : ∀ other, other ≠ number → sent' other = sent other ∧ taken' other = taken other)
    (here : channel.Tally (sent' number) (taken' number)) (other : Nat) :
    ((world.setChannel number channel).channel other).Tally (sent' other) (taken' other) := by
  by_cases same : other = number
  · subst same
    rw [World.channel_setChannel_self world channel inside]
    exact here
  · rw [World.channel_setChannel_of_ne world channel same, (others other same).1, (others other same).2]
    exact tally other

theorem placed_setChannel {world : World} (placed : world.Placed) (number : Nat) (channel : Channel)
    {waiting : List Nat} (nodup : waiting.Nodup) :
    ({ world.setChannel number channel with waiting } : World).Placed := by
  refine placed.of_less (fun place other here => ?_) List.length_set nodup
  cases place <;> exact here

namespace Traced

/-- A rendering that asks for the next item of a channel lets go of the one before. -/
theorem accept (traced : Traced settings start stage log)
    (loops : ∀ (task : Nat) (p : Process α), start.renderings[task]? = some p → p.Loops settings) {task source number : Nat}
    {holding : Holding} {next : (Request.pull source).Answer → Process α}
    (here : stage.renderings[task]? = some (.ask holding (.pull source) next))
    (mine : stage.world.source? (task, source) = some (.channel number)) :
    Traced settings start
      { stage with
        world := stage.world.setChannel number (stage.world.channel number).acceptHeld } log := by
  have inside := traced.placed.inside (.source (task, source)) number mine
  refine ⟨placed_setChannel traced.placed number _ traced.placed.waiting, ?_, ?_, ?_⟩
  · refine traced.runs.of_world (fun _ some_ => some_) fun other listed q there => ?_
    obtain ⟨request, asks, waits⟩ := traced.runs.waits other listed q there
    refine ⟨request, asks, waits_of_world waits (fun _ => rfl) fun number' free => ?_⟩
    by_cases same : number' = number
    · subst same
      rw [World.channel_setChannel_self _ _ inside]
      exact Channel.acceptHeld_held
    · rw [World.channel_setChannel_of_ne _ _ same]
      exact free
  · exact tally_setChannel traced.tally inside (fun _ _ => ⟨rfl, rfl⟩) (traced.tally number).acceptHeld
  · intro number' entry listed
    obtain ⟨item, there, fate⟩ := traced.fates number' entry listed
    refine ⟨item, there, ?_⟩
    by_cases same : number' = number
    · subst same
      refine fate.accept inside fun source' found => ?_
      have place := traced.placed.exclusive (.source (entry.task, source')) (.source (task, source))
        number' found mine
      cases place
      obtain ⟨p, began, passes⟩ := traced.runs.passes entry.task _ here
      exact ⟨p, _, here, loops entry.task p began, passes, rfl⟩
    · have unchanged : (stage.world.setChannel number
          (stage.world.channel number).acceptHeld).channel number' = stage.world.channel number' :=
        World.channel_setChannel_of_ne _ _ same
      exact fate.of_world (fun _ _ found => ⟨found, by rw [unchanged]⟩)
        fun entry settled => unchanged.symm ▸ settled

/-- A rendering that holds nothing of a channel is given an answer from there. -/
theorem pulled (traced : Traced settings start stage log) {task source number : Nat}
    {holding : Holding} {next : (Request.pull source).Answer → Process α}
    (here : stage.renderings[task]? = some (.ask holding (.pull source) next))
    (mine : stage.world.source? (task, source) = some (.channel number))
    (free : (stage.world.channel number).held = none) {delivery : Delivery} {channel : Channel}
    (gets : Gets (stage.world.channel number) delivery channel)
    {answer : (Request.pull source).Answer} (ready : World.ofDelivery delivery = .ready answer) :
    Traced settings start
      { stage with
        renderings := stage.renderings.set task (next answer)
        world := { stage.world.setChannel number channel with
          waiting := stage.world.waiting.erase task } }
      (log.exchanged task ⟨.pull source, answer⟩ (channel.held.map (number, ·))) := by
  have inside := traced.placed.inside (.source (task, source)) number mine
  have nodup := traced.placed.waiting.erase task
  have self := World.channel_setChannel_self stage.world channel inside
  have others : ∀ other, other ≠ number →
      (stage.world.setChannel number channel).channel other = stage.world.channel other :=
    fun other differs => World.channel_setChannel_of_ne _ _ differs
  have taken := log.taken_exchanged task ⟨.pull source, answer⟩ number channel.held
  refine ⟨placed_setChannel traced.placed number _ nodup, ?_, ?_, ?_⟩
  · refine traced.runs.answered here answer (fun _ _ => rfl) (fun _ some_ => .inl some_)
      (erase_waiting traced.placed) fun other number' source' differs found free' => ?_
    by_cases same : number' = number
    · subst same
      have place := traced.placed.exclusive (.source (other, source')) (.source (task, source)) number'
        found mine
      cases place
      exact absurd rfl differs
    · exact (congrArg Channel.held (others number' same)).trans free'
  · refine tally_setChannel traced.tally inside (fun other differs => ⟨rfl, ?_⟩) ?_
    · rw [taken, if_neg differs, List.append_nil]
    · rw [taken, if_pos rfl]
      exact gets.tally (traced.tally number) free
  · -- What was delivered before is not touched; what the rendering holds now is new.
    have before : Fates settings { stage.world.setChannel number channel with
        waiting := stage.world.waiting.erase task } (stage.renderings.set task (next answer))
        (Function.update log.history task (log.history task ++ [⟨.pull source, answer⟩])) log.sent
        log.delivered := by
      have gone := @Fates.exchanged _ _ _ _ _ _ _ traced.fates task _ (next answer)
        ⟨.pull source, answer⟩ here rfl fun number' source' holds found about => by
          cases about
          cases mine.symm.trans found
          exact holds free
      refine gone.of_world (fun number' key holds found => ⟨found, ?_⟩) fun number' entry settled => ?_
      · have differs : number' ≠ number := by
          rintro rfl
          exact holds free
        exact congrArg Channel.held (others number' differs)
      · by_cases same : number' = number
        · subst same
          have listed : entry ∈ channel.settled := gets.settled entry settled
          rw [← self] at listed
          exact listed
        · have unchanged := others number' same
          rw [← unchanged] at settled
          exact settled
    cases holds : channel.held with
    | none => exact before
    | some ticket =>
      obtain ⟨item, rfl, there⟩ := gets.holds (traced.tally number) free holds
      cases ready
      intro number' entry listed
      have listed : entry ∈ Function.update log.delivered number (log.delivered number ++
        [⟨ticket, task, (log.history task).length⟩]) number' := listed
      by_cases same : number' = number
      · subst same
        rw [Function.update_self] at listed
        rcases List.mem_append.1 listed with old | new
        · exact before number' entry old
        · cases List.mem_singleton.1 new
          have split : Function.update log.history task (log.history task ++
              [.brings source item]) task = log.history task ++ .brings source item :: [] :=
            Function.update_self ..
          exact ⟨item, there, .held split rfl (fun _ listed => nomatch listed)
            ((congrArg Channel.held self).trans holds) mine⟩
      · rw [Function.update_of_ne same] at listed
        exact before number' entry listed

/-- What became of the items that were delivered, when a rendering gives back a source that is a
channel: the item that it holds is closed. -/
theorem fates_released (traced : Traced settings start stage log)
    (loops : ∀ (task : Nat) (p : Process α), start.renderings[task]? = some p → p.Loops settings)
    {task source number : Nat} {holding : Holding} {next : (Request.release source).Answer → Process α}
    (here : stage.renderings[task]? = some (.ask holding (.release source) next))
    (mine : stage.world.source? (task, source) = some (.channel number)) :
    Fates settings (stage.world.releaseSource (task, source)) (stage.renderings.set task (next ()))
      (Function.update log.history task (log.history task ++ [⟨.release source, ()⟩])) log.sent
      log.delivered := by
  have self := World.channel_releaseSource mine
    (traced.placed.inside (.source (task, source)) number mine)
  have keeps : ∀ number', ∀ entry ∈ (stage.world.channel number').settled, entry ∈
      ((stage.world.releaseSource (task, source)).channel number').settled := by
    intro number' entry settled
    by_cases same : number' = number
    · subst same
      rw [self, Channel.close_settled]
      exact List.mem_append_right _ settled
    · rw [World.channel_releaseSource_of_ne mine same]
      exact settled
  intro number' entry listed
  obtain ⟨item, there, fate⟩ := traced.fates number' entry listed
  refine ⟨item, there, ?_⟩
  by_cases same : number' = number
  · subst same
    by_cases owner : entry.task = task
    · obtain ⟨p, began, passes⟩ := traced.runs.passes task _ here
      rw [owner, Function.update_self]
      rw [owner, here] at fate
      refine fate.release (loops task p began) passes rfl (fun other found => ?_) (keeps number')
        fun ticket holds => ?_
      · cases traced.placed.only_source mine found
        rfl
      · rw [self, Channel.close_settled]
        refine List.mem_append_left _ (List.mem_map.2 ⟨ticket, ?_, rfl⟩)
        rw [Channel.unsettled, holds]
        exact List.mem_append_left _ (List.mem_singleton.2 rfl)
    · rw [Function.update_of_ne owner, List.getElem?_set_ne (Ne.symm owner)]
      refine fate.of_world (fun other _ found => ?_) (keeps number')
      exact absurd (congrArg Prod.fst (traced.placed.only_source mine found)) owner
  · have apart : ∀ key, stage.world.source? key = some (.channel number') → key ≠ (task, source) := by
      rintro key found rfl
      exact same (Supply.channel.inj (Option.some.inj (found.symm.trans mine)))
    have gone : Fate settings stage.world
        (Function.update log.history task (log.history task ++ [⟨.release source, ()⟩]) entry.task)
        (stage.renderings.set task (next ()))[entry.task]? number' entry item := by
      by_cases owner : entry.task = task
      · rw [owner, Function.update_self]
        rw [owner, here] at fate
        refine fate.exchanged rfl fun other _ found about => ?_
        cases about
        exact apart _ found (Prod.ext owner rfl)
      · rw [Function.update_of_ne owner, List.getElem?_set_ne (Ne.symm owner)]
        exact fate
    refine gone.of_world (fun other _ found => ⟨?_,
      congrArg Channel.held (World.channel_releaseSource_of_ne mine same)⟩) (keeps number')
    rw [World.source?_releaseSource mine, if_neg (apart _ found)]
    exact found

/-- A rendering gives back a source that is a channel. -/
theorem released (traced : Traced settings start stage log)
    (loops : ∀ (task : Nat) (p : Process α), start.renderings[task]? = some p → p.Loops settings)
    {task source number : Nat} {holding : Holding} {next : (Request.release source).Answer → Process α}
    (here : stage.renderings[task]? = some (.ask holding (.release source) next))
    (mine : stage.world.source? (task, source) = some (.channel number)) :
    Traced settings start
      { stage with
        renderings := stage.renderings.set task (next ())
        world := stage.world.releaseSource (task, source) }
      (log.exchanged task ⟨.release source, ()⟩ none) := by
  have inside := traced.placed.inside (.source (task, source)) number mine
  have waiting : (stage.world.releaseSource (task, source)).waiting = stage.world.waiting := by
    rw [World.releaseSource_channel mine]
    rfl
  refine ⟨?_, ?_, ?_, traced.fates_released loops here mine⟩
  · refine traced.placed.of_less (fun place other found => ?_) ?_ (waiting ▸ traced.placed.waiting)
    · rw [World.releaseSource_channel mine, World.supply?_setChannel, World.supply?_without_source]
        at found
      split at found
      · exact nomatch found
      · exact found
    · rw [World.releaseSource_channel mine]
      exact List.length_set
  · refine traced.runs.answered here () (fun key differs => ?_) (fun other some_ => ?_)
      (fun other listed => ⟨fun same => ?_, waiting ▸ listed⟩) fun other number' source' differs found free => ?_
    · rw [World.source?_releaseSource mine, if_neg]
      rintro rfl
      exact differs rfl
    · rw [World.source?_releaseSource mine] at some_
      split at some_
      · exact absurd rfl some_
      · exact .inl some_
    · subst same
      obtain ⟨request, asks, waits⟩ := traced.runs.waits other (waiting ▸ listed) _ here
      cases asks
      exact waits
    · by_cases same : number' = number
      · subst same
        cases traced.placed.only_source mine found
        exact absurd rfl differs
      · exact (congrArg Channel.held (World.channel_releaseSource_of_ne mine same)).trans free
  · rw [World.releaseSource_channel mine]
    exact tally_setChannel traced.tally inside (fun _ _ => ⟨rfl, rfl⟩) (traced.tally number).close

/-- A rendering gets an answer that has nothing to do with a channel. -/
theorem quiet (traced : Traced settings start stage log) {task : Nat} {holding : Holding}
    {request : Request} {next : request.Answer → Process α}
    (here : stage.renderings[task]? = some (.ask holding request next)) (answer : request.Answer)
    {world : World} (quiet : Quiet stage.world world task request) :
    Traced settings start
      { stage with renderings := stage.renderings.set task (next answer), world }
      (log.exchanged task ⟨request, answer⟩ none) := by
  have channels : ∀ number, world.channel number = stage.world.channel number := fun number => by
    rw [World.channel, World.channel, quiet.channels]
  refine ⟨quiet.placed, ?_, fun number => ?_, ?_⟩
  · exact traced.runs.answered here answer quiet.others quiet.opens quiet.waiting
      fun _ number _ _ _ free => (congrArg Channel.held (channels number)).trans free
  · show Channel.Tally (world.channel number) _ _
    rw [channels]
    exact traced.tally number
  · have gone := @Fates.exchanged _ _ _ _ _ _ _ traced.fates task _ (next answer) ⟨request, answer⟩ here
      rfl fun number source _ found => quiet.apart source number found
    exact gone.of_world (fun number key _ found => ⟨quiet.kept key number found, by rw [channels]⟩)
      fun number entry settled => (channels number).symm ▸ settled

/-- Only who waits, and what has no part in this, changes. -/
theorem of_waiting (traced : Traced settings start stage log) {world : World}
    (channels : world.channels = stage.world.channels) (streams : world.streams = stage.world.streams)
    (sources : world.sources = stage.world.sources) (nodup : world.waiting.Nodup)
    (waits : ∀ task ∈ world.waiting, task ∈ stage.world.waiting ∨
      ∀ q : Process α, stage.renderings[task]? = some q →
        ∃ request, q.asks? = some request ∧ Waits stage.world task request) :
    Traced settings start { stage with world } log := by
  have channel : ∀ number, world.channel number = stage.world.channel number := fun number => by
    rw [World.channel, World.channel, channels]
  have source : ∀ key, world.source? key = stage.world.source? key := fun key => by
    rw [World.source?, World.source?, sources]
  refine ⟨traced.placed.of_less (fun place number found => ?_) (by rw [channels]) nodup, ?_,
    fun number => ?_, ?_⟩
  · cases place with
    | stream number' =>
      rw [World.supply?, World.stream?, streams] at found
      exact found
    | source key => exact (source key).symm.trans found
  · refine traced.runs.of_world (fun key some_ => source key ▸ some_) fun task listed q there => ?_
    have before : ∃ request, q.asks? = some request ∧ Waits stage.world task request :=
      (waits task listed).elim (fun old => traced.runs.waits task old q there) fun new => new q there
    obtain ⟨request, asks, waits⟩ := before
    exact ⟨request, asks, waits_of_world waits source fun number free =>
      (congrArg Channel.held (channel number)).trans free⟩
  · show Channel.Tally (world.channel number) _ _
    rw [channel]
    exact traced.tally number
  · exact traced.fates.of_world (fun number key _ found => ⟨(source key).trans found, by rw [channel]⟩)
      fun number entry settled => (channel number).symm ▸ settled

/-- A rendering starts to wait. -/
theorem waiting (traced : Traced settings start stage log) {task : Nat} {p : Process α}
    {request : Request} (here : stage.renderings[task]? = some p) (asks : p.asks? = some request)
    (waits : Waits stage.world task request) {world : World}
    (channels : world.channels = stage.world.channels) (streams : world.streams = stage.world.streams)
    (sources : world.sources = stage.world.sources)
    (list : world.waiting = task :: stage.world.waiting.erase task) :
    Traced settings start { stage with world } log := by
  refine traced.of_waiting channels streams sources ?_ fun other listed => ?_
  · rw [list, List.nodup_cons]
    exact ⟨traced.placed.waiting.not_mem_erase, traced.placed.waiting.erase task⟩
  · rw [list] at listed
    rcases List.mem_cons.1 listed with rfl | old
    · refine .inr fun q there => ?_
      rw [here] at there
      cases there
      exact ⟨request, asks, waits⟩
    · exact .inl (List.mem_of_mem_erase old)

/-- Emitters act on a channel. -/
theorem emits (traced : Traced settings start stage log) {number : Nat} {items : List Item}
    {channel : Channel} (inside : items ≠ [] → number < stage.world.channels.length)
    (emits : (stage.world.channel number).Emits items channel) (producers : List (Nat × Producer))
    (trace : List Event) :
    Traced settings start
      { stage with world := { stage.world.setChannel number channel with producers, trace } }
      (log.emitted number items) := by
  obtain ⟨settled, held, -⟩ := emits.keeps
  by_cases bound : number < stage.world.channels.length
  · have self := World.channel_setChannel_self stage.world channel bound
    have same : ∀ other, ((stage.world.setChannel number channel).channel other).held =
        (stage.world.channel other).held ∧ ((stage.world.setChannel number channel).channel
          other).settled = (stage.world.channel other).settled := by
      intro other
      by_cases equal : other = number
      · subst equal
        rw [self]
        exact ⟨held, settled⟩
      · rw [World.channel_setChannel_of_ne stage.world channel equal]
        exact ⟨rfl, rfl⟩
    refine ⟨?_, ?_, ?_, ?_⟩
    · refine traced.placed.of_less (fun place other found => ?_) List.length_set traced.placed.waiting
      cases place <;> exact found
    · refine traced.runs.of_world (fun _ some_ => some_) fun task listed q there => ?_
      obtain ⟨request, asks, waits⟩ := traced.runs.waits task listed q there
      exact ⟨request, asks, waits_of_world waits (fun _ => rfl) fun other free =>
        (same other).1.trans free⟩
    · refine tally_setChannel traced.tally bound (fun other differs => ⟨?_, rfl⟩) ?_
      · exact Function.update_of_ne differs ..
      · show Channel.Tally _ (Function.update log.sent number _ number) _
        rw [Function.update_self]
        exact (traced.tally number).emits emits
    · have kept : Fates settings
          { stage.world.setChannel number channel with producers, trace } stage.renderings
          log.history log.sent log.delivered :=
        Fates.of_world traced.fates (fun other _ _ found => ⟨found, (same other).1⟩)
          fun other entry listed => (same other).2.symm ▸ listed
      exact kept.sends number items
  · -- Without the channel nothing is sent.
    obtain rfl : items = [] := by
      by_contra some_
      exact bound (inside some_)
    have nothing : log.emitted number [] = log := by
      unfold Log.emitted
      rw [List.append_nil, Function.update_eq_self]
    rw [nothing]
    have unchanged : (stage.world.setChannel number channel).channels = stage.world.channels :=
      List.set_eq_of_length_le (Nat.le_of_not_lt bound)
    exact traced.of_waiting unchanged rfl rfl traced.placed.waiting fun _ listed => .inl listed

/-- A stream is given up. -/
theorem drops (traced : Traced settings start stage log) (stream : Nat) :
    Traced settings start { stage with world := stage.world.dropStream stream } log := by
  unfold World.dropStream
  cases found : stage.world.stream? stream with
  | none => exact traced
  | some supply =>
    let left : World := { stage.world with streams := stage.world.streams.set stream none }
    have placed : (left.dropSupply supply).Placed := by
      refine traced.placed.of_less (fun place number here => ?_) (World.length_dropSupply left supply) ?_
      · rw [World.supply?_dropSupply, World.supply?_without_stream] at here
        split at here
        · exact nomatch here
        · exact here
      · rw [World.waiting_dropSupply]
        exact traced.placed.waiting
    have source : ∀ key, (left.dropSupply supply).source? key = stage.world.source? key := fun key =>
      World.supply?_dropSupply left supply (.source key)
    -- The channel of the stream is no source, so nobody has of it what is closed.
    have same : ∀ number key, stage.world.source? key = some (.channel number) →
        (left.dropSupply supply).channel number = stage.world.channel number := by
      intro number key here
      refine World.channel_dropSupply left supply fun equal => ?_
      cases traced.placed.exclusive (.source key) (.stream stream) number here (equal ▸ found)
    refine ⟨placed, ?_, fun number => ?_, ?_⟩
    · refine traced.runs.of_world (fun key some_ => source key ▸ some_) fun task listed q there => ?_
      rw [World.waiting_dropSupply] at listed
      obtain ⟨request, asks, waits⟩ := traced.runs.waits task listed q there
      refine ⟨request, asks, ?_⟩
      cases request with
      | pull number =>
        obtain ⟨other, here, free⟩ := waits
        exact ⟨other, (source _).trans here, fun number equal =>
          (congrArg Channel.held (same number _ (equal ▸ here))).trans (free number equal)⟩
      | _ => exact waits
    · cases supply with
      | channel closed =>
        exact tally_setChannel traced.tally (traced.placed.inside (.stream stream) closed found)
          (fun _ _ => ⟨rfl, rfl⟩) (traced.tally closed).close number
      | _ => exact traced.tally number
    · refine traced.fates.of_world (fun number key _ here => ⟨(source key).trans here, ?_⟩)
        fun number entry listed => ?_
      · exact congrArg Channel.held (same number key here)
      · cases supply with
        | channel closed =>
          by_cases equal : number = closed
          · subst equal
            show entry ∈ ((left.setChannel number _).channel number).settled
            rw [World.channel_setChannel_self left _ (traced.placed.inside (.stream stream) number found),
              Channel.close_settled]
            exact List.mem_append_right _ listed
          · show entry ∈ ((left.setChannel closed _).channel number).settled
            rw [World.channel_setChannel_of_ne left _ equal]
            exact listed
        | _ => exact listed

/-- What a rendering that waits was let others go on for. -/
theorem afterOthers_pending {β : Type} {world world' : World} {task : Nat} {event : Option Event}
    {f : World → β × World} (pending : world.afterOthers task event f = (.pending, world')) :
    world'.channels = world.channels ∧ world'.streams = world.streams ∧
      world'.sources = world.sources ∧ world'.waiting = task :: world.waiting.erase task := by
  unfold World.afterOthers at pending
  split at pending
  · cases pending
  · rename_i absent
    have same : world.waiting.erase task = world.waiting :=
      List.erase_of_not_mem fun listed => absent (List.contains_iff_mem.2 listed)
    rw [same]
    cases event <;> (cases pending; exact ⟨rfl, rfl, rfl, rfl⟩)

/-- Behind the acceptance of what a rendering holds of a channel the channel can be asked as before. -/
theorem setChannel_twice (world : World) (number : Nat) (first second : Channel) :
    (world.setChannel number first).setChannel number second = world.setChannel number second := by
  unfold World.setChannel
  rw [List.set_set]

/-- A rendering asks for the next item of a channel, and is answered or has to wait. -/
theorem pulls (traced : Traced settings start stage log)
    (loops : ∀ (task : Nat) (p : Process α), start.renderings[task]? = some p → p.Loops settings)
    {task source number : Nat} {holding : Holding} {next : (Request.pull source).Answer → Process α}
    (here : stage.renderings[task]? = some (.ask holding (.pull source) next))
    (mine : stage.world.source? (task, source) = some (.channel number)) :
    (∀ world, stage.world.pullChannel task number = (.pending, world) →
      Traced settings start { stage with world } log) ∧
    ∀ answer world, stage.world.pullChannel task number = (.ready answer, world) →
      Traced settings start { stage with renderings := stage.renderings.set task (next answer), world }
        (log.exchanged task ⟨.pull source, answer⟩
          (stage.world.handed world task (.pull source))) := by
  have inside := traced.placed.inside (.source (task, source)) number mine
  have accepted := traced.accept loops here mine
  have self := World.channel_setChannel_self stage.world (stage.world.channel number).acceptHeld inside
  have free : ((stage.world.setChannel number (stage.world.channel number).acceptHeld).channel
      number).held = none := by
    rw [self]
    exact Channel.acceptHeld_held
  obtain ⟨delivery, channel, gets, pulled⟩ := @pullChannel_cases stage.world task number
    fun listed => by
      obtain ⟨request, asks, waits⟩ := traced.runs.waits task listed _ here
      cases asks
      obtain ⟨supply, found, free⟩ := waits
      exact free number (Option.some.inj (found.symm.trans mine))
  rcases pulled with ⟨rfl, pulled⟩ | ⟨given, ready, pulled⟩
  · rw [pulled]
    refine ⟨fun world same => ?_, fun _ _ same => (nomatch same)⟩
    cases same
    rw [gets.waiting]
    exact accepted.waiting here rfl ⟨_, mine, fun number' equal => by
      cases equal
      exact free⟩ rfl rfl rfl rfl
  · rw [pulled]
    refine ⟨fun _ same => (nomatch same), fun answer world same => ?_⟩
    cases same
    have gone := accepted.pulled here mine free (self.symm ▸ gets) ready
    rw [setChannel_twice] at gone
    have handed : stage.world.handed { stage.world.setChannel number channel with
        waiting := stage.world.waiting.erase task } task (.pull source) =
        channel.held.map (number, ·) := by
      unfold World.handed
      dsimp only
      rw [mine]
      exact congrArg (fun channel : Channel => channel.held.map (number, ·))
        (World.channel_setChannel_self stage.world channel inside)
    rw [handed]
    exact gone

/-- A rendering asks and has to wait. -/
theorem waits_step (traced : Traced settings start stage log)
    (loops : ∀ (task : Nat) (p : Process α), start.renderings[task]? = some p → p.Loops settings)
    {task : Nat} {holding : Holding} {request : Request} {next : request.Answer → Process α}
    {world : World} (here : stage.renderings[task]? = some (.ask holding request next))
    (pending : World.answer provider task request stage.world = (.pending, world)) :
    Traced settings start { stage with world } log := by
  have others : ∀ {β : Type} {event : Option Event} {f : World → β × World},
      stage.world.afterOthers task event f = (.pending, world) →
      Waits stage.world task request → Traced settings start { stage with world } log := by
    intro β event f pending waits
    obtain ⟨channels, streams, sources, list⟩ := afterOthers_pending pending
    exact traced.waiting here rfl waits channels streams sources list
  cases request with
  | load name =>
    have pending : stage.world.afterOthers task (some (.loaded name))
      (fun world => (provider.load name, world)) = (.pending, world) := pending
    exact others pending trivial
  | lookup handle name =>
    have pending : stage.world.afterOthers task (some (.lookedUp handle name))
      (fun world => (provider.lookup handle name, world)) = (.pending, world) := pending
    exact others pending trivial
  | pause =>
    have pending : stage.world.afterOthers task none (fun world => ((), world)) =
      (.pending, world) := pending
    exact others pending trivial
  | pull source =>
    have pending : stage.world.pull task source = (.pending, world) := pending
    unfold World.pull at pending
    split at pending
    · rename_i number mine
      exact (traced.pulls loops here mine).1 world pending
    · rename_i supply different mine
      exact others pending ⟨supply, mine, fun number same => (different number same).elim⟩
    · cases pending
  | take source handle => exact nomatch pending
  | cached _ | store _ _ | call _ _ | iterate _ _ | release _ => exact nomatch pending

/-- Nothing is handed over by a source that is no channel. -/
theorem handed_pull {world behind : World} {task source : Nat}
    (elsewhere : ∀ number, world.source? (task, source) ≠ some (.channel number)) :
    world.handed behind task (.pull source) = none := by
  unfold World.handed
  dsimp only
  split
  · rename_i number mine
    exact absurd mine (elsewhere number)
  · rfl

/-- A rendering asks and is answered. -/
theorem answered_step (traced : Traced settings start stage log)
    (loops : ∀ (task : Nat) (p : Process α), start.renderings[task]? = some p → p.Loops settings)
    {task : Nat} {holding : Holding} {request : Request} {next : request.Answer → Process α}
    {answer : request.Answer} {world : World}
    (here : stage.renderings[task]? = some (.ask holding request next))
    (ready : World.answer provider task request stage.world = (.ready answer, world)) :
    Traced settings start { stage with renderings := stage.renderings.set task (next answer), world }
      (log.exchanged task ⟨request, answer⟩ (stage.world.handed world task request)) := by
  obtain ⟨bound, ⟨-, opens, -⟩, below⟩ := traced.runs.numbered task _ here
  have waits : task ∈ stage.world.waiting → Waits stage.world task request := by
    intro listed
    obtain ⟨request', asks, waits⟩ := traced.runs.waits task listed _ here
    cases asks
    exact waits
  -- A source that is opened is not open yet.
  have closed : ∀ source, request.opened? = some source →
      stage.world.source? (task, source) = none := by
    intro source opened
    by_contra some_
    exact Nat.lt_irrefl _ ((below source some_).trans_le (opens source opened))
  have plain : (∀ source number, request = .pull source ∨ request = .release source →
      stage.world.source? (task, source) ≠ some (.channel number)) →
      stage.world.handed world task request = none →
      Traced settings start
        { stage with renderings := stage.renderings.set task (next answer), world }
        (log.exchanged task ⟨request, answer⟩ (stage.world.handed world task request)) := by
    intro elsewhere handed
    rw [handed]
    exact traced.quiet here answer (quiet_answered traced.placed waits closed elsewhere ready)
  cases request with
  | pull source =>
    by_cases mine : ∃ number, stage.world.source? (task, source) = some (.channel number)
    · obtain ⟨number, mine⟩ := mine
      have ready : stage.world.pull task source = (.ready answer, world) := ready
      unfold World.pull at ready
      rw [mine] at ready
      exact (traced.pulls loops here mine).2 answer world ready
    · have elsewhere := not_exists.1 mine
      refine plain (fun other number about => ?_) (handed_pull elsewhere)
      rcases about with about | about <;> cases about
      exact elsewhere number
  | release source =>
    by_cases mine : ∃ number, stage.world.source? (task, source) = some (.channel number)
    · obtain ⟨number, mine⟩ := mine
      have ready : (Reply.ready (), stage.world.releaseSource (task, source)) =
        (.ready answer, world) := ready
      cases ready
      exact traced.released loops here mine
    · refine plain (fun other number about => ?_) rfl
      rcases about with about | about <;> cases about
      exact not_exists.1 mine number
  | _ => exact plain (fun _ _ about => about.elim (nomatch ·) (nomatch ·)) rfl

/-- What renderings have asked and were answered, a step does not change; and neither what became of
what they were given. -/
theorem step (traced : Traced settings start stage log)
    (loops : ∀ (task : Nat) (p : Process α), start.renderings[task]? = some p → p.Loops settings)
    {stage' : Stage α} {log' : Log} (step : Step provider stage log stage' log') :
    Traced settings start stage' log' := by
  cases step with
  | answered here ready => exact traced.answered_step loops here ready
  | waits here pending => exact traced.waits_step loops here pending
  | emits inside emits producers trace => exact traced.emits inside emits producers trace
  | drops stream => exact traced.drops stream

/-- So it is in the whole course. -/
theorem of_course (begin_ : Traced settings start start {})
    (loops : ∀ (task : Nat) (p : Process α), start.renderings[task]? = some p → p.Loops settings)
    (course : Course provider start stage log) : Traced settings start stage log := by
  induction course with
  | start => exact begin_
  | step before step ih => exact ih.step loops step

end Traced

end Stage

end Stencil.Render
