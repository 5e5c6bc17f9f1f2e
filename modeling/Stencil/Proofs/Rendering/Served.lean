import Stencil.Proofs.Rendering.Asides
import Stencil.Proofs.Rendering.Standings
import Stencil.Proofs.Streaming.Serving
/-!
# A rendering beside a producer

A rendering has a world for itself in which a stream is a channel, and the producer of the channel sends
items and signals the end. How the rendering stands to the stream, by its history, and how far the
producer has come, by its calls that are resolved, hold together (`Line`), and whatever moves are made
they stay so (`Line.follow`).
-/

set_option autoImplicit false

namespace Stencil.Render

open Stencil.Stream
open RenderM

/-! ## How the rendering stands to the stream, and how far the producer has come -/

/-- How the standing of a rendering to a stream hangs together with the world, with what the rendering
asks, and with the producer and its calls that are resolved. -/
inductive Stands (items : List Item) (handle number : Nat) (world : World) (asks? : Option Request)
    (producer : Producer) (resolved : List (Stream.Step × Outcome)) : Standing → Prop
  /-- The stream waits to be taken. -/
  | untouched
    (sites : ∀ place, world.supply? place = some (.channel number) ↔ place = .stream handle)
    (serves : Serves items 0 (world.channel number) producer resolved) :
    Stands items handle number world asks? producer resolved .untouched
  /-- The stream was given up, for nobody could reach it. -/
  | dropped (nowhere : ∀ place, world.supply? place ≠ some (.channel number)) :
    Stands items handle number world asks? producer resolved .untouched
  /-- The rendering reads the stream. While it is busy it holds an item, until it asks for the next. -/
  | reading {source given : Nat} {busy told : Bool}
    (sites : ∀ place, world.supply? place = some (.channel number) ↔ place = .source (0, source))
    (serves : Serves items given (world.channel number) producer resolved)
    (holds : busy = true → (world.channel number).held ≠ none ∨ asks? = some (.pull source))
    (free : busy = false → (world.channel number).held = none)
    (ended : told = true → (world.channel number).finished = true)
    (open_ : world.waiting ≠ [] → asks? = some (.pull source) → (world.channel number).finished = false) :
    Stands items handle number world asks? producer resolved (.reading source given busy told)
  /-- The rendering has given the stream back. -/
  | left {given count : Nat} {busy told : Bool}
    (nowhere : ∀ place, world.supply? place ≠ some (.channel number))
    (deserted : Deserted items count (world.channel number) producer resolved)
    (count : busy = true → count + 1 = given ∧ given ≤ items.length)
    (ended : told = true → producer.gone = true ∧ resolved = acceptedAll items) :
    Stands items handle number world asks? producer resolved (.left given busy told)

/-- The calls of a producer that are resolved when it has its turn. -/
def World.settledBy (world : World) (number : Nat) : List (Stream.Step × Outcome) :=
  ((world.producers[number]?).map fun entry => (entry.2.proceed (world.channel entry.1)).settled).getD []

/-- What holds of a world with one rendering in it, and of a stream that is the channel of a producer: by
its history the rendering has come from a process to what it is, and by this history and the calls of
the producer that are resolved, the two stand to each other. -/
structure Line {α : Type} (items : List Item) (handle number : Nat) (start : Process α) (world : World)
    (p : Process α) (history : List Exchange) (resolved : List (Stream.Step × Outcome)) : Prop where
  passes : start.Passes history p
  inside : number < world.channels.length
  paired : world.Paired
  own : ∀ supply, world.stream? handle = some supply → supply = .channel number
  awaits : Awaits world p.asks?
  numbered : ∃ next, p.Numbered (fun _ _ => True) 0 next ∧ ∀ source given busy told,
    Standing.of handle history = .reading source given busy told → source < next
  stands : ∃ producer, world.producers[number]? = some (number, producer) ∧
    Stands items handle number world p.asks? producer resolved (Standing.of handle history)

section

variable {α : Type} {items : List Item} {handle number : Nat} {world world' : World}
  {producer : Producer} {resolved : List (Stream.Step × Outcome)} {standing : Standing}

/-- What has nothing to do with the channel changes nothing. A rendering that asks for the next item of
the stream goes on asking, and waits as before; another one that waits goes on asking as well. -/
theorem Stands.aside {asks? asks'? : Option Request}
    (stands : Stands items handle number world asks? producer resolved standing)
    (aside : Aside number world world')
    (still : ∀ source given busy told, standing = .reading source given busy told →
      asks? = some (.pull source) → asks'? = asks? ∧ world'.waiting = world.waiting)
    (idle : world'.waiting ≠ [] → asks'? = asks?) :
    Stands items handle number world' asks'? producer resolved standing := by
  cases stands with
  | untouched sites serves =>
    exact .untouched (fun place => (aside.supplies place).trans (sites place)) (aside.channel ▸ serves)
  | dropped nowhere => exact .dropped fun place here => nowhere place ((aside.supplies place).1 here)
  | @reading source given busy told sites serves holds free ended open_ =>
    have still := still source given busy told rfl
    refine .reading (fun place => (aside.supplies place).trans (sites place)) (aside.channel ▸ serves)
      (fun same => ?_) (fun same => ?_) (fun same => ?_) fun waits asks => ?_
    · rw [aside.channel]
      exact (holds same).imp_right fun asks => (still asks).1.trans asks
    · rw [aside.channel]
      exact free same
    · rw [aside.channel]
      exact ended same
    · have before := (idle waits).symm.trans asks
      rw [aside.channel]
      exact open_ ((still before).2 ▸ waits) before
  | left nowhere deserted count ended =>
    exact .left (fun place here => nowhere place ((aside.supplies place).1 here))
      (aside.channel ▸ deserted) count ended

/-- A turn of the producer. -/
theorem Stands.produce {asks? : Option Request}
    (stands : Stands items handle number world asks? producer resolved standing)
    (supplies : ∀ place, world'.supply? place = world.supply? place)
    (channel : world'.channel number = (producer.proceed (world.channel number)).channel)
    (waiting : world'.waiting = world.waiting) :
    Stands items handle number world' asks? (producer.proceed (world.channel number)).producer
      (resolved ++ (producer.proceed (world.channel number)).settled) standing := by
  obtain ⟨held, finished⟩ := Producer.proceed_keeps producer (world.channel number)
  rw [← channel] at held finished
  cases stands with
  | untouched sites serves =>
    refine .untouched (fun place => ?_) (channel ▸ serves.proceed)
    rw [supplies]
    exact sites place
  | dropped nowhere => exact .dropped fun place => supplies place ▸ nowhere place
  | reading sites serves holds free ended open_ =>
    refine .reading (fun place => ?_) (channel ▸ serves.proceed) ?_ ?_ ?_ ?_
    · rw [supplies]
      exact sites place
    · rw [held]
      exact holds
    · rw [held]
      exact free
    · rw [finished]
      exact ended
    · rw [waiting, finished]
      exact open_
  | left nowhere deserted count ended =>
    refine .left (fun place => supplies place ▸ nowhere place) (channel ▸ deserted.proceed.1) count
      fun told => ?_
    obtain ⟨gone, all⟩ := ended told
    rw [Producer.proceed_gone gone, List.append_nil]
    exact ⟨gone, all⟩

namespace Line

variable {start p : Process α} {history : List Exchange} {provider : Provider}

/-! ### Questions about other things -/

section

variable {holding : Holding} {request : Request} {next : request.Answer → Process α}
  (line : Line items handle number start world (.ask holding request next) history resolved)
  (apart : ∀ place ∈ request.places, world.supply? place ≠ some (.channel number))
  (other : ∀ source given busy told, Standing.of handle history = .reading source given busy told →
    request ≠ .pull source)

include line apart other

theorem elsewhere_pending (pending : World.answer provider 0 request world = (.pending, world')) :
    Line items handle number start world' (.ask holding request next) history resolved := by
  have aside := Aside.answer apart pending
  obtain ⟨producer, produced, stands⟩ := line.stands
  obtain ⟨waiting, waits⟩ := Awaits.pending line.awaits pending
  exact
    { passes := line.passes
      inside := aside.length ▸ line.inside
      paired := aside.paired line.paired
      own := fun supply here => line.own supply (aside.streams handle supply here)
      awaits := .inr ⟨waiting, request, rfl, waits⟩
      numbered := line.numbered
      stands := ⟨producer, aside.producer.trans produced, stands.aside aside
        (fun source given busy told same asks =>
          absurd (Option.some.inj asks) (other source given busy told same))
        fun _ => rfl⟩ }

theorem elsewhere_ready {answer : request.Answer}
    (same : Standing.next handle (Standing.of handle history) ⟨request, answer⟩ = Standing.of handle history)
    (ready : World.answer provider 0 request world = (.ready answer, world')) :
    Line items handle number start world' (next answer) (history ++ [⟨request, answer⟩]) resolved := by
  have aside := Aside.answer apart ready
  obtain ⟨producer, produced, stands⟩ := line.stands
  obtain ⟨bound, numbered, below⟩ := line.numbered
  obtain ⟨bound', numbered', more, -⟩ := numbered_next numbered answer
  have waiting := Awaits.ready line.awaits ready
  have still : Standing.of handle (history ++ [⟨request, answer⟩]) = Standing.of handle history :=
    (Standing.of_concat handle history _).trans same
  exact
    { passes := line.passes.concat answer
      inside := aside.length ▸ line.inside
      paired := aside.paired line.paired
      own := fun supply here => line.own supply (aside.streams handle supply here)
      awaits := .inl waiting
      numbered := ⟨bound', numbered', fun source given busy told here =>
        (below source given busy told (still.symm.trans here)).trans_le more⟩
      stands := ⟨producer, aside.producer.trans produced, still.symm ▸ stands.aside aside
        (fun source given busy told same asks =>
          absurd (Option.some.inj asks) (other source given busy told same))
        fun waits => absurd waiting waits⟩ }

end

/-! ### Questions about the stream -/

/-- The rendering is given the stream. -/
theorem taken {holding : Holding} {source : Nat} {next : (Request.take source handle).Answer → Process α}
    (line : Line items handle number start world (.ask holding (.take source handle) next) history resolved)
    (produced : world.producers[number]? = some (number, producer))
    (here : Standing.of handle history = .untouched)
    (sites : ∀ place, world.supply? place = some (.channel number) ↔ place = .stream handle)
    (serves : Serves items 0 (world.channel number) producer resolved) {answer : Bool}
    (ready : World.answer provider 0 (.take source handle) world = (.ready answer, world')) :
    Line items handle number start world' (next answer)
      (history ++ [⟨.take source handle, answer⟩]) resolved := by
  have there : world.stream? handle = some (.channel number) := (sites (.stream handle)).2 rfl
  have nobody : world.waiting = [] := Awaits.nobody line.awaits id
  obtain ⟨bound, numbered, -⟩ := line.numbered
  obtain ⟨bound', numbered', -, opened⟩ := numbered_next numbered answer
  have taken : (Reply.ready (world.takeStream (0, source) handle).1, (world.takeStream (0, source) handle).2) =
    (.ready answer, world') := ready
  unfold World.takeStream at taken
  rw [there] at taken
  cases taken
  have standing : Standing.of handle (history ++ [⟨.take source handle, true⟩]) =
      .reading source 0 false false := by
    rw [Standing.of_concat, here]
    exact Standing.next_takes
  have free : (world.channel number).held = none := by
    cases held : (world.channel number).held with
    | none => rfl
    | some ticket =>
      have given := serves.given_eq
      rw [held] at given
      cases given
  exact
    { passes := line.passes.concat true
      inside := line.inside
      paired := line.paired
      own := fun supply found => by
        have found : ({ world with streams := world.streams.set handle none } : World).stream? handle =
          some supply := found
        rw [World.stream?_without, if_pos rfl] at found
        cases found
      awaits := .inl nobody
      numbered := ⟨bound', numbered', fun source' given busy told same => by
        cases standing.symm.trans same
        exact opened source rfl⟩
      stands := by
        refine ⟨producer, produced, ?_⟩
        rw [standing]
        refine .reading (fun place => ?_) serves (fun busy => Bool.noConfusion busy) (fun _ => free)
          (fun told => Bool.noConfusion told) fun waits => absurd nobody waits
        rw [World.supply?_setSource, World.supply?_without_stream]
        split
        · rename_i same
          exact ⟨fun _ => same, fun _ => rfl⟩
        · rename_i differs
          split
          · exact ⟨fun none_ => (Option.some_ne_none _ none_.symm).elim, fun same => absurd same differs⟩
          · rename_i differs'
            exact ⟨fun found => absurd ((sites place).1 found) differs', fun same => absurd same differs⟩ }

/-- What the rendering gets when it asks for the next item. -/
theorem pullChannel_takes {given : Nat} (serves : Serves items given (world.channel number) producer resolved)
    {request? : Option Request} (awaits : Awaits world request?)
    (idle : 0 ∈ world.waiting → (world.channel number).held = none ∧ (world.channel number).finished = false) :
    ∃ channel delivery, Stream.Takes items given producer resolved (world.channel number) channel delivery ∧
      (delivery = .waiting ∧ world.pullChannel 0 number =
          (.pending, { world.setChannel number channel with waiting := [0] }) ∨
        ∃ answer, World.ofDelivery delivery = .ready answer ∧ world.pullChannel 0 number =
          (.ready answer, { world.setChannel number channel with waiting := [] })) := by
  have next : ∃ channel delivery,
      Stream.Takes items given producer resolved (world.channel number) channel delivery ∧
      (if world.waiting.contains 0 then (world.channel number).receive else (world.channel number).pull) =
        (delivery, channel) := by
    split
    · rename_i listed
      obtain ⟨free, open_⟩ := idle (List.contains_iff_mem.1 listed)
      exact ⟨_, _, serves.receive free open_, rfl⟩
    · exact ⟨_, _, serves.pull, rfl⟩
  obtain ⟨channel, delivery, takes, same⟩ := next
  refine ⟨channel, delivery, takes, ?_⟩
  have erased : (world.setChannel number channel).waiting.erase 0 = [] := awaits.erase
  unfold World.pullChannel
  dsimp only
  rw [same]
  dsimp only
  rw [erased]
  cases delivery with
  | waiting => exact .inl ⟨rfl, rfl⟩
  | _ => exact .inr ⟨_, rfl, rfl⟩

/-- The rendering goes on reading the stream, in a world in which the channel is another one. -/
theorem reads {p q : Process α} {source : Nat} {channel : Channel} {waiting : List Nat}
    {history' : List Exchange} (line : Line items handle number start world p history resolved)
    (given : Nat) (busy told : Bool)
    (produced : world.producers[number]? = some (number, producer))
    (sites : ∀ place, world.supply? place = some (.channel number) ↔ place = .source (0, source))
    (passes : start.Passes history' q)
    (awaits : Awaits { world.setChannel number channel with waiting } q.asks?)
    (numbered : ∃ bound, q.Numbered (fun _ _ => True) 0 bound ∧ source < bound)
    (standing : Standing.of handle history' = .reading source given busy told)
    (serves : Serves items given channel producer resolved)
    (holds : busy = true → channel.held ≠ none ∨ q.asks? = some (.pull source))
    (free : busy = false → channel.held = none) (ended : told = true → channel.finished = true)
    (open_ : waiting ≠ [] → channel.finished = false) :
    Line items handle number start { world.setChannel number channel with waiting } q history'
      resolved := by
  obtain ⟨bound, numbered, less⟩ := numbered
  have same : World.channel { world.setChannel number channel with waiting } number = channel :=
    World.channel_setChannel_self world channel line.inside
  refine ⟨passes, ?_, line.paired, line.own, awaits,
    ⟨bound, numbered, fun other given busy told equal => ?_⟩, producer, produced, ?_⟩
  · show number < (world.channels.set number channel).length
    rw [List.length_set]
    exact line.inside
  · cases standing.symm.trans equal
    exact less
  · rw [standing]
    refine .reading (fun place => Iff.trans ?_ (sites place)) (same.symm ▸ serves) ?_ ?_ ?_ ?_
    · show (world.setChannel number channel).supply? place = _ ↔ _
      rw [World.supply?_setChannel]
    · rw [same]
      exact holds
    · rw [same]
      exact free
    · rw [same]
      exact ended
    · rw [same]
      exact fun waits _ => open_ waits

/-- The rendering asks for the next item of the stream. -/
theorem pulled {holding : Holding} {source given : Nat} {busy told : Bool}
    {next : (Request.pull source).Answer → Process α}
    (line : Line items handle number start world (.ask holding (.pull source) next) history resolved)
    (produced : world.producers[number]? = some (number, producer))
    (here : Standing.of handle history = .reading source given busy told)
    (sites : ∀ place, world.supply? place = some (.channel number) ↔ place = .source (0, source))
    (serves : Serves items given (world.channel number) producer resolved)
    (ended : told = true → (world.channel number).finished = true)
    (open_ : world.waiting ≠ [] → (world.channel number).finished = false) :
    (World.answer provider 0 (.pull source) world = (.pending, world') →
      Line items handle number start world' (.ask holding (.pull source) next) history resolved) ∧
    ∀ answer, World.answer provider 0 (.pull source) world = (.ready answer, world') →
      Line items handle number start world' (next answer) (history ++ [⟨.pull source, answer⟩]) resolved := by
  have there : world.source? (0, source) = some (.channel number) := (sites (.source (0, source))).2 rfl
  have asked : World.answer provider 0 (.pull source) world = world.pullChannel 0 number := by
    show world.pull 0 source = _
    rw [World.pull, there]
  obtain ⟨channel, delivery, takes, pulled⟩ := @pullChannel_takes _ _ _ _ _ _ serves _ line.awaits
    fun listed => by
      obtain ⟨supply, found, free⟩ := Awaits.waits line.awaits listed
      exact ⟨free number (Option.some.inj (found.symm.trans there)), open_ (List.ne_nil_of_mem listed)⟩
  obtain ⟨bound, numbered, below⟩ := line.numbered
  have less := below source given busy told here
  have ready : ∀ answer, ∃ bound', (next answer).Numbered (fun _ _ => True) 0 bound' ∧ source < bound' := by
    intro answer
    obtain ⟨bound', numbered', more, -⟩ := numbered_next numbered answer
    exact ⟨bound', numbered', less.trans_le more⟩
  have untold : (world.channel number).finished = false → told = false := fun open_ => by
    cases told with
    | false => rfl
    | true => exact (Bool.false_ne_true (open_.symm.trans (ended rfl))).elim
  rw [asked]
  rcases pulled with ⟨rfl, pulled⟩ | ⟨given_, told_, pulled⟩
  · rw [pulled]
    refine ⟨fun same => ?_, fun answer same => ?_⟩
    · cases same
      cases takes with
      | waiting serves' free open_ still =>
        refine line.reads given busy told produced sites line.passes ?_ ⟨bound, numbered, less⟩ here serves'
          (fun _ => .inr rfl) (fun _ => free) (fun same => ?_) fun _ => still
        · refine .inr ⟨rfl, .pull source, rfl, .channel number, there, fun other same => ?_⟩
          cases same
          exact (congrArg Channel.held
            (World.channel_setChannel_self world channel line.inside)).trans free
        · rw [untold open_] at same
          cases same
    · cases same
  · rw [pulled]
    cases takes with
    | waiting => cases told_
    | @item item serves' holds open_ =>
      cases told_
      refine ⟨fun same => ?_, fun answer same => ?_⟩
      · cases same
      · cases same
        refine line.reads (given + 1) true told produced sites (line.passes.concat _)
          (.inl rfl) (ready _) ?_ serves' (fun _ => .inl holds)
          (fun same => Bool.noConfusion same) (fun same => ?_) fun waits => absurd rfl waits
        · rw [Standing.of_concat, here]
          exact Standing.next_brings item
        · rw [untold open_] at same
          cases same
    | ended serves' free told' =>
      cases told_
      refine ⟨fun same => ?_, fun answer same => ?_⟩
      · cases same
      · cases same
        refine line.reads given false true produced sites (line.passes.concat _)
          (.inl rfl) (ready _) ?_ serves' (fun same => Bool.noConfusion same)
          (fun _ => free) (fun _ => told') fun waits => absurd rfl waits
        rw [Standing.of_concat, here]
        exact Standing.next_ends

/-- The rendering gives the stream back. -/
theorem released {holding : Holding} {source given : Nat} {busy told : Bool}
    {next : (Request.release source).Answer → Process α}
    (line : Line items handle number start world (.ask holding (.release source) next) history resolved)
    (produced : world.producers[number]? = some (number, producer))
    (here : Standing.of handle history = .reading source given busy told)
    (sites : ∀ place, world.supply? place = some (.channel number) ↔ place = .source (0, source))
    (serves : Serves items given (world.channel number) producer resolved)
    (holds : busy = true → (world.channel number).held ≠ none)
    (ended : told = true → (world.channel number).finished = true) {answer : Unit}
    (ready : World.answer provider 0 (.release source) world = (.ready answer, world')) :
    Line items handle number start world' (next answer)
      (history ++ [⟨.release source, answer⟩]) resolved := by
  have there : world.source? (0, source) = some (.channel number) := (sites (.source (0, source))).2 rfl
  have nobody : world.waiting = [] := Awaits.nobody line.awaits id
  obtain ⟨bound, numbered, -⟩ := line.numbered
  obtain ⟨bound', numbered', -⟩ := numbered_next numbered answer
  have released : (Reply.ready (), world.releaseSource (0, source)) = (.ready answer, world') := ready
  unfold World.releaseSource at released
  rw [there] at released
  cases released
  let left : World := { world with sources := world.sources.filter fun entry => entry.1 ≠ (0, source) }
  have self : (left.setChannel number (left.channel number).close).channel number =
      (world.channel number).close := World.channel_setChannel_self left _ line.inside
  have standing : Standing.of handle (history ++ [⟨.release source, ()⟩]) = .left given busy told := by
    rw [Standing.of_concat, here]
    exact Standing.next_releases ()
  have given_eq := serves.given_eq
  refine ⟨line.passes.concat (), ?_, line.paired, line.own, .inl nobody,
    ⟨bound', numbered', fun other given busy told equal => ?_⟩, producer, produced, ?_⟩
  · show number < (world.channels.set number _).length
    rw [List.length_set]
    exact line.inside
  · cases standing.symm.trans equal
  · rw [standing]
    refine .left (fun place found => ?_) (self.symm ▸ serves.close) (fun same => ⟨?_, serves.given_le⟩)
      fun same => serves.resolved_of_finished (ended same)
    · have found : (left.setChannel number _).supply? place = some (.channel number) := found
      rw [World.supply?_setChannel, World.supply?_without_source] at found
      split at found
      · cases found
      · rename_i differs
        exact differs ((sites place).1 found)
    · cases held : (world.channel number).held with
      | none => exact absurd held (holds same)
      | some ticket =>
        rw [held] at given_eq
        exact given_eq

/-! ### Any question -/

/-- Which places a request is about that has nothing to do with the stream. -/
theorem apart_of_source {request : Request} {source : Nat}
    (sites : ∀ place, world.supply? place = some (.channel number) ↔ place = .source (0, source))
    (apart : request.source? ≠ some source) :
    ∀ place ∈ request.places, world.supply? place ≠ some (.channel number) := by
  intro place listed found
  have same := (sites place).1 found
  subst same
  cases request with
  | iterate other _ | pull other | release other =>
    cases List.mem_singleton.1 listed
    exact apart rfl
  | take other _ =>
    rcases List.mem_cons.1 listed with same | listed
    · cases same
    · cases List.mem_singleton.1 listed
      exact apart rfl
  | cached _ | store _ _ | load _ | lookup _ _ | call _ _ | pause => cases listed

/-- Whatever a rendering asks, it and the producer stand to each other as before. -/
theorem asked {holding : Holding} {request : Request} {next : request.Answer → Process α}
    (line : Line items handle number start world (.ask holding request next) history resolved) :
    (World.answer provider 0 request world = (.pending, world') →
      Line items handle number start world' (.ask holding request next) history resolved) ∧
    ∀ answer, World.answer provider 0 request world = (.ready answer, world') →
      Line items handle number start world' (next answer) (history ++ [⟨request, answer⟩]) resolved := by
  obtain ⟨producer, produced, stands⟩ := line.stands
  generalize standing : Standing.of handle history = now at stands
  have elsewhere (apart : ∀ place ∈ request.places, world.supply? place ≠ some (.channel number))
      (other : ∀ source given busy told, now = .reading source given busy told → request ≠ .pull source)
      (same : ∀ answer, World.answer provider 0 request world = (.ready answer, world') →
        Standing.next handle now ⟨request, answer⟩ = now) :
      (World.answer provider 0 request world = (.pending, world') →
        Line items handle number start world' (.ask holding request next) history resolved) ∧
      ∀ answer, World.answer provider 0 request world = (.ready answer, world') →
        Line items handle number start world' (next answer) (history ++ [⟨request, answer⟩]) resolved := by
    subst standing
    exact ⟨line.elsewhere_pending apart other, fun answer ready =>
      line.elsewhere_ready apart other (same answer ready) ready⟩
  cases stands with
  | untouched sites serves =>
    by_cases asks : request.asksFor handle = true
    · cases request with
      | take source other =>
        obtain rfl : other = handle := by simpa [Request.asksFor] using asks
        refine ⟨fun pending => ?_, fun answer ready => line.taken produced standing sites serves ready⟩
        cases pending
      | _ => cases asks
    · rw [Bool.not_eq_true] at asks
      refine elsewhere (fun place listed found => ?_) (fun _ _ _ _ same => Standing.noConfusion same)
        fun answer _ => Standing.next_untouched asks
      have same := (sites place).1 found
      subst same
      cases request with
      | take source other =>
        rcases List.mem_cons.1 listed with same | listed
        · cases same
          rw [Request.asksFor, decide_eq_false_iff_not] at asks
          exact asks rfl
        · cases List.mem_singleton.1 listed
      | iterate _ _ | pull _ | release _ => cases List.mem_singleton.1 listed
      | cached _ | store _ _ | load _ | lookup _ _ | call _ _ | pause => cases listed
  | dropped nowhere =>
    refine elsewhere (fun place _ => nowhere place) (fun _ _ _ _ same => Standing.noConfusion same)
      fun answer ready => ?_
    by_cases asks : request.asksFor handle = true
    · cases request with
      | take source other =>
        obtain rfl : other = handle := by simpa [Request.asksFor] using asks
        have absent : world.stream? other = none := by
          cases there : world.stream? other with
          | none => rfl
          | some supply =>
            cases line.own supply there
            exact absurd there (nowhere (.stream other))
        have ready : (Reply.ready (world.takeStream (0, source) other).1,
          (world.takeStream (0, source) other).2) = (.ready answer, world') := ready
        unfold World.takeStream at ready
        rw [absent] at ready
        cases ready
        rfl
      | _ => cases asks
    · exact Standing.next_untouched (Bool.not_eq_true _ ▸ asks)
  | @reading source given busy told sites serves holds free ended open_ =>
    by_cases about : request.source? = some source
    · cases request with
      | pull other =>
        obtain rfl : other = source := Option.some.inj about
        exact line.pulled produced standing sites serves ended fun waits => open_ waits rfl
      | release other =>
        obtain rfl : other = source := Option.some.inj about
        refine ⟨fun pending => ?_, fun answer ready => line.released produced standing sites serves
          (fun same => (holds same).resolve_right fun asks => ?_) ended ready⟩
        · cases pending
        · cases asks
      | iterate other _ | take other _ =>
        -- A source that is opened has a number above that of the stream.
        obtain rfl : other = source := Option.some.inj about
        obtain ⟨bound, ⟨-, opens, -⟩, below⟩ := line.numbered
        exact absurd (opens other rfl) (Nat.not_le_of_lt (below other given busy told standing))
      | cached _ | store _ _ | load _ | lookup _ _ | call _ _ | pause => cases about
    · refine elsewhere (apart_of_source sites about) (fun other given' busy' told' same asks => about ?_)
        fun answer _ => Standing.next_apart about
      cases same
      rw [asks]
      rfl
  | left nowhere deserted count ended =>
    exact elsewhere (fun place _ => nowhere place) (fun _ _ _ _ same => Standing.noConfusion same)
      fun answer _ => Standing.next_left _

/-- A rendering that has its turn asks, and is answered, until it has to wait or has ended. -/
theorem poll (line : Line items handle number start world p history resolved) :
    Line items handle number start (p.poll (World.host provider) 0 world).2
      (p.poll (World.host provider) 0 world).1
      (history ++ p.exchanges (World.host provider) 0 world) resolved := by
  induction p generalizing world history with
  | done result =>
    rw [Process.exchanges, List.append_nil]
    exact line
  | ask holding request next ih =>
    rw [Process.poll, Process.exchanges]
    cases replied : (World.host provider).answer 0 request world with
    | mk reply behind =>
      cases reply with
      | pending =>
        dsimp only
        rw [List.append_nil]
        exact line.asked.1 replied
      | ready answer =>
        have later := ih answer (line.asked.2 answer replied)
        rw [List.append_assoc] at later
        exact later

/-! ### Others -/

/-- What others do elsewhere changes nothing. -/
theorem beside (line : Line items handle number start world p history resolved)
    (aside : Aside number world world') (waiting : world'.waiting = world.waiting)
    (sources : ∀ key, world'.source? key = world.source? key)
    (held : ∀ other, (world.channel other).held = none → (world'.channel other).held = none) :
    Line items handle number start world' p history resolved := by
  obtain ⟨producer, produced, stands⟩ := line.stands
  exact
    { passes := line.passes
      inside := aside.length ▸ line.inside
      paired := aside.paired line.paired
      own := fun supply here => line.own supply (aside.streams handle supply here)
      awaits := line.awaits.of_world waiting sources held
      numbered := line.numbered
      stands := ⟨producer, aside.producer.trans produced,
        stands.aside aside (fun _ _ _ _ _ _ => ⟨rfl, waiting⟩) fun _ => rfl⟩ }

/-- A producer has its turn. -/
theorem produce (line : Line items handle number start world p history resolved) (n : Nat) :
    Line items handle number start (world.produce n) p history
      (resolved ++ if n = number then world.settledBy number else []) := by
  by_cases own : n = number
  · subst own
    obtain ⟨producer, produced, stands⟩ := line.stands
    have settled : world.settledBy n = (producer.proceed (world.channel n)).settled := by
      rw [World.settledBy, produced]
      rfl
    obtain ⟨trace, same⟩ := produce_eq n n producer produced
    have channel : (world.produce n).channel n = (producer.proceed (world.channel n)).channel := by
      rw [same]
      exact World.channel_setChannel_self world _ line.inside
    rw [if_pos rfl, settled]
    refine
      { passes := line.passes
        inside := ?_
        paired := line.paired.produce n
        own := fun supply here => line.own supply ((supply?_produce n (.stream handle)).symm.trans here)
        awaits := line.awaits.of_world (waiting_produce n) (fun key => supply?_produce n (.source key))
          (held_produce n)
        numbered := line.numbered
        stands := ⟨_, ?_, stands.produce (supply?_produce n) channel (waiting_produce n)⟩ }
    · rw [same]
      show n < (world.channels.set n _).length
      rw [List.length_set]
      exact line.inside
    · rw [producers_produce, if_pos rfl, produced]
      rfl
  · rw [if_neg own, List.append_nil]
    exact line.beside (.produce line.paired own) (waiting_produce n)
      (fun key => supply?_produce n (.source key)) (held_produce n)

/-- A stream is given up. -/
theorem dropStream (line : Line items handle number start world p history resolved) (stream : Nat) :
    Line items handle number start (world.dropStream stream) p history resolved := by
  unfold World.dropStream
  cases found : world.stream? stream with
  | none => exact line
  | some supply =>
    let left : World := { world with streams := world.streams.set stream none }
    have supplies : ∀ place, (left.dropSupply supply).supply? place =
        if place = .stream stream then none else world.supply? place := fun place => by
      rw [World.supply?_dropSupply]
      exact world.supply?_without_stream stream place
    have sources : ∀ key, (left.dropSupply supply).source? key = world.source? key := fun key =>
      supplies (.source key)
    have waiting := World.waiting_dropSupply left supply
    have held : ∀ other, (world.channel other).held = none →
        ((left.dropSupply supply).channel other).held = none := fun other => held_dropSupply left supply
    show Line items handle number start (left.dropSupply supply) p history resolved
    by_cases own : supply = .channel number
    · obtain ⟨producer, produced, stands⟩ := line.stands
      have here : world.supply? (.stream stream) = some (.channel number) := own ▸ found
      refine
        { passes := line.passes
          inside := (World.length_dropSupply left supply).symm ▸ line.inside
          paired := ?_
          own := fun other there => ?_
          awaits := line.awaits.of_world waiting sources held
          numbered := line.numbered
          stands := ⟨producer, ?_, ?_⟩ }
      · unfold World.Paired
        rw [World.producers_dropSupply left supply]
        exact line.paired
      · have there := (supplies (.stream handle)).symm.trans there
        split at there
        · cases there
        · exact line.own other there
      · rw [World.producers_dropSupply left supply]
        exact produced
      · generalize Standing.of handle history = standing at stands
        cases stands with
        | untouched sites serves =>
          refine .dropped fun place there => ?_
          rw [supplies] at there
          split at there
          · cases there
          · rename_i differs
            exact differs (((sites place).1 there).trans ((sites (.stream stream)).1 here).symm)
        | dropped nowhere => exact absurd here (nowhere (.stream stream))
        | reading sites => cases (sites (.stream stream)).1 here
        | left nowhere => exact absurd here (nowhere (.stream stream))
    · have apart : world.supply? (.stream stream) ≠ some (.channel number) := fun same =>
        own (Option.some.inj (found.symm.trans same))
      exact line.beside ((Aside.withoutStream world apart).trans (.dropSupply left own)) waiting sources held

/-- Streams that nobody can reach are given up. -/
theorem abandon (line : Line items handle number start world p history resolved) (inUse : List Value) :
    Line items handle number start (world.abandon provider inUse) p history resolved := by
  have dropAll : ∀ (handles : List Handle) {world : World},
      Line items handle number start world p history resolved →
      Line items handle number start (world.dropAll handles) p history resolved := by
    intro handles
    induction handles with
    | nil => exact fun line => line
    | cons first rest ih =>
      intro world line
      cases first with
      | stream number => exact ih (line.dropStream number)
      | function _ | dynamic _ | iterable _ => exact ih line
  unfold World.abandon
  split
  · exact dropAll _ line
  · exact line

end Line

end

/-! ## Moves -/

namespace Stage

variable {α : Type}

/-- The calls of a producer that are resolved in a move. -/
def resolved (stage : Stage α) (number : Nat) : Move → List (Stream.Step × Outcome)
  | .producer n => if n = number then stage.world.settledBy number else []
  | .rendering _ => []

/-- The calls of a producer that are resolved in some moves. -/
def resolvedIn (provider : Provider) (number : Nat) : List Move → Stage α → List (Stream.Step × Outcome)
  | [], _ => []
  | move :: rest, stage =>
    stage.resolved number move ++ resolvedIn provider number rest (stage.move provider move)

variable {items : List Item} {handle number : Nat} {stage : Stage α} {start p : Process α}
  {history : List Exchange} {resolved : List (Stream.Step × Outcome)} {provider : Provider}

/-- What a rendering is alone on a stage, and how far the producer has come, behind a move. -/
theorem line_move (line : Line items handle number start stage.world p history resolved)
    (alone : stage.renderings = [p]) (move : Move) :
    ∃ p', (stage.move provider move).renderings = [p'] ∧
      Line items handle number start (stage.move provider move).world p'
        (history ++ stage.exchanged provider (some move) 0) (resolved ++ stage.resolved number move) := by
  have turned : ∃ p', (stage.turn provider move).renderings = [p'] ∧
      Line items handle number start (stage.turn provider move).world p'
        (history ++ stage.exchanged provider (some move) 0) (resolved ++ stage.resolved number move) := by
    cases move with
    | producer n =>
      have asked : stage.exchanged provider (some (.producer n)) 0 = [] := rfl
      refine ⟨p, alone, ?_⟩
      rw [asked, List.append_nil]
      exact line.produce n
    | rendering n =>
      have nothing : resolved ++ stage.resolved number (.rendering n) = resolved := List.append_nil _
      rw [nothing]
      cases n with
      | zero =>
        have here : stage.renderings[0]? = some p := by
          rw [alone]
          rfl
        have asked : stage.exchanged provider (some (.rendering 0)) 0 =
            p.exchanges (World.host provider) 0 stage.world := by
          rw [exchanged, if_pos rfl, here]
          rfl
        refine ⟨(p.poll (World.host provider) 0 stage.world).1, ?_, ?_⟩
        · rw [turn, here, alone]
          rfl
        · rw [turn, here, asked]
          exact line.poll
      | succ n =>
        have absent : stage.renderings[n + 1]? = none := by
          rw [alone]
          rfl
        have asked : stage.exchanged provider (some (.rendering (n + 1))) 0 = [] := by
          rw [exchanged, if_neg (Nat.succ_ne_zero n).symm]
        refine ⟨p, ?_, ?_⟩
        · rw [turn, absent]
          exact alone
        · rw [turn, absent, asked, List.append_nil]
          exact line
  obtain ⟨p', alone', line'⟩ := turned
  exact ⟨p', alone', line'.abandon _⟩

/-- Whatever moves are made, a rendering and the producer stand to each other. -/
theorem line_follow (line : Line items handle number start stage.world p history resolved)
    (alone : stage.renderings = [p]) (moves : List Move) :
    ∃ p', (stage.follow provider moves).renderings = [p'] ∧
      Line items handle number start (stage.follow provider moves).world p'
        (history ++ exchangedIn provider moves stage 0)
        (resolved ++ resolvedIn provider number moves stage) := by
  induction moves generalizing stage p history resolved with
  | nil =>
    refine ⟨p, alone, ?_⟩
    rw [exchangedIn, resolvedIn, List.append_nil, List.append_nil]
    exact line
  | cons move rest ih =>
    obtain ⟨p₁, alone₁, line₁⟩ := @line_move _ _ _ _ _ _ _ _ _ provider line alone move
    obtain ⟨p₂, alone₂, line₂⟩ := ih line₁ alone₁
    refine ⟨p₂, alone₂, ?_⟩
    rw [List.append_assoc, List.append_assoc] at line₂
    exact line₂

end Stage

end Stencil.Render
