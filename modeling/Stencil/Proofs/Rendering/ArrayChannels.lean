import Stencil.Proofs.Rendering.Independence
import Stencil.Proofs.Rendering.Served
import Stencil.Proofs.Rendering.SparedTemplates
/-!
# Channels in the place of arrays

A producer sends the values of an array one after the other and signals the end. A call that is given
the channel, and names it only in heads of iterations of which it comes to one, ends as the call that is
given the array, whatever the order of turns is. When it succeeds, all calls of the producer were
accepted; when the body of the iteration fails for an item, those before the item were accepted and the
others are closed (`Stage.channel_renders_as_array`).
-/

set_option autoImplicit false

namespace Stencil.Render

open Stencil.Stream
open RenderM

/-- What a channel gives in the place of the array. -/
def Swap.items (swap : Swap) : List Item := swap.values.map fun value => { value }

/-- Whether a stream of a world is a channel whose producer sends items and then signals the end. -/
structure World.Offers (world : World) (handle number : Nat) (items : List Item) : Prop where
  stream : world.stream? handle = some (.channel number)
  producer : world.producers[number]? = some (number, { steps := stepsFor items })

theorem scriptOfSteps_stepsFor (items : List Item) : scriptOfSteps (stepsFor items) = items.map .ok := by
  induction items with
  | nil => rfl
  | cons item rest ih => exact congrArg (.ok item :: ·) ih

/-- In the view of the world at the start the stream gives the values of the array. -/
theorem World.Offers.view {world : World} {swap : Swap} {number : Nat}
    (offers : world.Offers swap.handle number swap.items) :
    world.view.streams swap.handle = some swap.script := by
  have given : world.script (.channel number) = swap.script := by
    rw [World.script, offers.producer]
    show scriptOfSteps (stepsFor swap.items) = swap.script
    rw [scriptOfSteps_stepsFor, Swap.items, Swap.script, List.map_map]
    rfl
  show (world.stream? swap.handle).map world.script = some swap.script
  rw [offers.stream, Option.map_some, given]

/-! ## How often a stream is asked for -/

/-- How often a call asks for a stream until it has ended. -/
def Call.askings (settings : Settings) (provider : Provider) (world : World) (call : Call) (handle : Nat) :
    Nat :=
  ((call.process settings).outcome provider world.view).2.asked handle

namespace Stage

variable {settings : Settings} {provider : Provider} {world : World}

/-- Whatever moves are made, a call asks for a stream no more often than it does until it has ended. -/
theorem askings_le (honest : provider.Honest) (prepared : world.Prepared) (kept : List Value) (call : Call)
    (handle : Nat) (moves : List Move) :
    askings handle (exchangedIn provider moves (ofCalls settings world kept [call]) 0) ≤
      call.askings settings provider world handle := by
  have runs := @World.Calm.runs world settings provider prepared.calm kept [call]
    (List.pairwise_singleton _ _)
  obtain ⟨known, readable, v, -, -, watches⟩ := runs.follow honest moves
  obtain ⟨p, -, same⟩ := watches.outcome 0 (call.process settings) rfl
  have asked := watches.asked 0 handle
  have less : (v 0).asked handle ≤ (p.outcome provider (v 0)).2.asked handle := p.asked_le (v 0) handle
  rw [same] at less
  refine le_trans ?_ less
  rw [asked]
  exact Nat.le_add_left _ _

end Stage

/-! ## How far the producer has come -/

section

variable {items : List Item} {handle number : Nat} {world : World} {settings : Settings}

/-- Before anything is rendered, a call and a producer stand to each other. -/
theorem Line.begin (calm : world.Calm) (offers : world.Offers handle number items) (call : Call) :
    Line items handle number (call.process settings) world (call.process settings) [] [] := by
  obtain ⟨-, empty, -⟩ := calm.channels number _ offers.producer
  refine
    { passes := .here _
      inside := calm.inside handle number offers.stream
      paired := fun n channel producer here => (calm.channels n (channel, producer) here).1
      own := fun supply here => Option.some.inj (here.symm.trans offers.stream)
      awaits := .inl calm.waiting
      numbered := ⟨call.fresh, ?_, fun _ _ _ _ same => Standing.noConfusion same⟩
      stands := ⟨_, offers.producer, .untouched (fun place => ⟨fun here => ?_, fun same => ?_⟩) ?_⟩ }
  · exact (render_numbered call.name call.data call.fresh).mono (Nat.zero_le _) le_rfl
      fun _ _ _ _ _ => trivial
  · cases place with
    | source key => cases (calm.source? key).symm.trans here
    | stream other => exact congrArg Place.stream (calm.exclusive other handle number here offers.stream)
  · rw [same]
    exact offers.stream
  · rw [empty]
    exact .begun

variable {α : Type} {start : Process α} {result : α} {history : List Exchange}
  {resolved : List (Stream.Step × Outcome)}

/-- When a rendering has ended that was told of the end, the producer has all its calls accepted. -/
theorem Line.accepted (line : Line items handle number start world (.done result) history resolved)
    (told : (Standing.of handle history).isTold = true) : resolved = acceptedAll items := by
  obtain ⟨producer, -, stands⟩ := line.stands
  generalize Standing.of handle history = standing at stands told
  cases stands with
  | untouched | dropped => cases told
  | reading sites serves holds free ended open_ => exact (serves.resolved_of_finished (ended told)).2
  | left nowhere deserted count ended => exact (ended told).2

/-- When a rendering has ended whose body has failed for an item, the producer has its calls before the
item accepted. The others are closed, or will be when it has its next turn. -/
theorem Line.closed {index : Nat}
    (line : Line items handle number start world (.done result) history resolved)
    (fails : BodyFails settings start handle index history) (once : askings handle history ≤ 1) :
    index < items.length ∧ resolved <+: acceptedUpTo index items ∧
      resolved ++ world.settledBy number = acceptedUpTo index items := by
  obtain ⟨told, standing⟩ := fails.left line.passes once
  obtain ⟨producer, produced, stands⟩ := line.stands
  rw [standing] at stands
  cases stands with
  | @left given count _ _ nowhere deserted counts ended =>
    obtain ⟨same, bound⟩ := counts rfl
    obtain rfl : count = index := Nat.succ_injective same
    have settled : world.settledBy number = (producer.proceed (world.channel number)).settled := by
      rw [World.settledBy, produced]
      rfl
    obtain ⟨behind, gone⟩ := deserted.proceed
    rw [settled]
    exact ⟨bound, (deserted.resolves bound).1, (behind.resolves bound).2 gone⟩

end

namespace Stage

variable {settings : Settings} {provider : Provider} {world : World}

theorem resolvedIn_concat {α : Type} (number : Nat) (moves : List Move) (move : Move) (stage : Stage α) :
    resolvedIn provider number (moves ++ [move]) stage =
      resolvedIn provider number moves stage ++ (stage.follow provider moves).resolved number move := by
  induction moves generalizing stage with
  | nil => exact List.append_nil _
  | cons first rest ih =>
    rw [List.cons_append, resolvedIn, ih, resolvedIn, List.append_assoc]
    rfl

/-- A channel in the place of an array. A call whose data holds a channel, on which a producer sends the
values of an array and signals the end, ends with the result of the call whose data holds the array: the
same text or the same failure, in whatever order the call and the producers of the world take turns. When
it has succeeded and has iterated the channel, every call of the producer was accepted. When the body of
the iteration has failed for an item, the calls before it were accepted, and the call with the item and
all later ones are closed, the latest when the producer has its next turn. -/
theorem channel_renders_as_array (honest : provider.Honest) (prepared : world.Prepared)
    (kept : List Value) {swap : Swap} (spare : TemplatesSpare settings provider swap.path) {number : Nat}
    (offers : world.Offers swap.handle number swap.items) (name : String) (fresh : Nat)
    {data data' : Value} (twins : Twins swap.array swap.stream swap.path data data')
    (once : Call.askings settings provider world ⟨name, data', fresh⟩ swap.handle ≤ 1) :
    ∃ result, EndsAlone settings provider world kept ⟨name, data, fresh⟩ result ∧
      EndsAlone settings provider world kept ⟨name, data', fresh⟩ result ∧
      ∀ moves,
        let start := ofCalls settings world kept [⟨name, data', fresh⟩]
        let history := exchangedIn provider moves start 0
        (start.follow provider moves).results = [some result] →
        ((∃ text, result = .ok text) → askings swap.handle history = 1 →
          resolvedIn provider number moves start = acceptedAll swap.items) ∧
        ∀ k, BodyFails settings (Call.process settings ⟨name, data', fresh⟩) swap.handle k history →
          k < swap.values.length ∧
          resolvedIn provider number moves start <+: acceptedUpTo k swap.items ∧
          resolvedIn provider number (moves ++ [.producer number]) start = acceptedUpTo k swap.items := by
  let call : Call := ⟨name, data', fresh⟩
  have same : Call.result settings provider world ⟨name, data, fresh⟩ =
      call.result settings provider world :=
    outcome_of_twins spare name (.inr twins) fresh offers.view (fun _ => rfl) once
  refine ⟨call.result settings provider world, same ▸ endsAlone honest prepared kept _,
    endsAlone honest prepared kept call, ?_⟩
  intro moves start history ended
  have fewer : askings swap.handle history ≤ 1 :=
    (askings_le honest prepared kept call swap.handle moves).trans once
  obtain ⟨p, alone, line⟩ := @line_follow _ _ _ _ start _ _ _ _ provider
    (Line.begin prepared.calm offers call) rfl moves
  obtain rfl : p = .done (call.result settings provider world) := by
    rw [results, alone] at ended
    cases p with
    | done out =>
      obtain rfl : out = call.result settings provider world := by simpa [Process.result?] using ended
      rfl
    | ask holding request next => simp [Process.result?] at ended
  constructor
  · rintro success asked
    exact line.accepted (isTold_of_drains (render_drains settings name data' fresh) line.passes success asked)
  · intro k fails
    obtain ⟨less, sofar, all⟩ := line.closed fails fewer
    refine ⟨?_, sofar, ?_⟩
    · rw [Swap.items, List.length_map] at less
      exact less
    · rw [resolvedIn_concat, resolved, if_pos rfl]
      exact all

/-- A list of two items: whatever the moves are, the items can come from a channel. -/
theorem channel_renders_as_array_list :
    let text := "\x7b\x7beach(i, item) items\x7d\x7d<li>$\x7bi\x7d: $\x7bitem\x7d</li>\x7b\x7b/each\x7d\x7d"
    let provider : Provider :=
      { load := Sources.load { templates := [("list", text)] }
        call := fun _ _ => .error { text := "no function" }
        lookup := fun _ _ => .error { text := "no lookup" }
        iterable := fun _ => []
        keepers := [] }
    let world : World :=
      (({} : World).addChannel [.send ⟨none, .string "a"⟩, .send ⟨none, .string "b"⟩, .signalEnd]).2
    let swap : Swap := ⟨["items"], 1, [.string "a", .string "b"], 0⟩
    let data : Value := .object 0 [("items", swap.array)]
    let data' : Value := .object 0 [("items", swap.stream)]
    provider.Honest ∧ world.Prepared ∧ TemplatesSpare {} provider swap.path ∧
      world.Offers swap.handle 0 swap.items ∧ Twins swap.array swap.stream swap.path data data' ∧
      Call.askings {} provider world ⟨"list", data', 2⟩ swap.handle ≤ 1 ∧
      ∃ result, EndsAlone {} provider world [] ⟨"list", data, 2⟩ result ∧
        EndsAlone {} provider world [] ⟨"list", data', 2⟩ result ∧
        ∀ moves,
          let start := ofCalls {} world [] [⟨"list", data', 2⟩]
          let history := exchangedIn provider moves start 0
          (start.follow provider moves).results = [some result] →
          ((∃ text, result = .ok text) → askings swap.handle history = 1 →
            resolvedIn provider 0 moves start = acceptedAll swap.items) ∧
          ∀ k, BodyFails {} (Call.process {} ⟨"list", data', 2⟩) swap.handle k history →
            k < swap.values.length ∧
            resolvedIn provider 0 moves start <+: acceptedUpTo k swap.items ∧
            resolvedIn provider 0 (moves ++ [.producer 0]) start = acceptedUpTo k swap.items := by
  intro text provider world swap data data'
  have honest : provider.Honest := by
    constructor
    · intro function args value given
      cases given
    · intro lookup name value given
      cases given
    · intro iterable handle listed
      cases listed
  have prepared : world.Prepared := .channel .empty _
  have spare : TemplatesSpare {} provider swap.path := by
    have parsed : ∀ t ∈ (parseTemplate ⟨({} : Settings).positions, false⟩ text).toOption,
        ChunksSpare ["items"] t.chunks := by
      decide +kernel
    rintro name template ⟨source, loaded, read⟩
    by_cases first : "list" = name
    · subst first
      obtain rfl : text = source := Except.ok.inj loaded
      exact parsed template (by rw [read]; rfl)
    · simp [provider, Sources.load, Table.get?, first] at loaded
  have offers : world.Offers swap.handle 0 swap.items := ⟨rfl, rfl⟩
  have twins : Twins swap.array swap.stream swap.path data data' :=
    .inside 0 [] [] (fun _ listed => absurd listed List.not_mem_nil) .here
  have once : Call.askings {} provider world ⟨"list", data', 2⟩ swap.handle ≤ 1 := by decide +kernel
  exact ⟨honest, prepared, spare, offers, twins, once,
    channel_renders_as_array honest prepared [] spare offers "list" 2 twins once⟩

end Stage

end Stencil.Render
