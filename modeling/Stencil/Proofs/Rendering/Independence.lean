import Stencil.Proofs.Rendering.OrderlyRender
import Stencil.Proofs.Rendering.Stages
import Stencil.Render.Sources
/-!
# Calls that share a renderer

Calls of one renderer share its cache, and each has data of its own. Whatever the order in which they
take their turns, the cache holds only what was loaded and parsed, and each call ends as it ends
alone with an empty cache (`Stage.calls_independent`). Loads of a template that overlap, and calls
that fail, make no difference.
-/

set_option autoImplicit false

namespace Stencil.Render

open Stencil.Stream

/-- A call of the renderer. Arrays and objects that its templates make are numbered from `fresh`. -/
structure Call where
  name : String
  data : Value
  fresh : Nat

/-- The process of a call. -/
def Call.process (settings : Settings) (call : Call) : Process (Except Failure String) :=
  render settings call.name call.data call.fresh

/-- The stage on which calls begin. -/
def Stage.ofCalls (settings : Settings) (world : World) (kept : List Value) (calls : List Call) :
    Stage (Except Failure String) :=
  { renderings := calls.map (Call.process settings), world, kept }

namespace World

/-- A world before anything is rendered in it: the cache is empty, and streams were made. -/
inductive Prepared : World → Prop
  | empty : Prepared {}
  | script {world : World} (prepared : Prepared world) (origin : Value) (script : Script) :
    Prepared (world.addStream (.script origin script)).2
  | values {world : World} (prepared : Prepared world) (all : List Value) :
    Prepared (world.addStream (.values all all)).2
  | channel {world : World} (prepared : Prepared world) (steps : List Step) :
    Prepared (world.addChannel steps).2

/-- What a supply gives before anything was taken from it. -/
def script (world : World) : Supply → Script
  | .script _ rest => rest
  | .values _ rest => rest.map fun value => .ok { value }
  | .channel number => ((world.producers[number]?).map fun entry => scriptOfSteps entry.2.steps).getD []

/-- What a process sees of a world at the start. -/
def view (world : World) : View where
  streams number := (world.stream? number).map world.script
  sources _ := none
  asked _ := 0

end World

/-- What can be reached from some data: by what functions, lookups and iterables keep, and by what
streams give. -/
inductive Reaches (provider : Provider) (world : World) (data : Value) : Handle → Prop
  | named {handle : Handle} (listed : handle ∈ data.handles) : Reaches provider world data handle
  | kept {keeper : Handle × List Value} {handle : Handle} (member : keeper ∈ provider.keepers)
    (reached : Reaches provider world data keeper.1)
    (listed : handle ∈ keeper.2.flatMap Value.handles) : Reaches provider world data handle
  | streamed {number : Nat} {script : Script} {handle : Handle}
    (given : world.view.streams number = some script)
    (reached : Reaches provider world data (.stream number)) (listed : handle ∈ script.handles) :
    Reaches provider world data handle

/-- From data of plain values nothing is reached. -/
theorem Reaches.not_of_plain {provider : Provider} {world : World} {data : Value} {handle : Handle}
    (plain : data.handles = []) : ¬Reaches provider world data handle := by
  intro reached
  induction reached with
  | named listed =>
    rw [plain] at listed
    exact nomatch listed
  | kept member reached listed ih => exact ih
  | streamed given reached listed ih => exact ih

/-- Whether calls have no stream in common. -/
def Disjoint (provider : Provider) (world : World) (calls : List Call) : Prop :=
  calls.Pairwise fun call other => ∀ number, Reaches provider world call.data (.stream number) →
    ¬Reaches provider world other.data (.stream number)

/-! ## The start -/

section

variable {world : World}

theorem stream?_addStream (supply : Supply) (number : Nat) :
    (world.addStream supply).2.stream? number =
      if number = world.streams.length then some supply else world.stream? number := by
  unfold World.stream? World.addStream
  dsimp only
  split
  · rename_i same
    rw [same, List.getElem?_concat_length]
    rfl
  · rename_i differs
    rcases Nat.lt_or_gt_of_ne differs with before | behind
    · rw [List.getElem?_append_left before]
    · rw [List.getElem?_eq_none_iff.2, List.getElem?_eq_none_iff.2 behind.le]
      rw [List.length_append]
      exact behind

/-- What holds of a world before anything is rendered in it. -/
structure World.Calm (world : World) : Prop where
  sources : world.sources = []
  waiting : world.waiting = []
  cache : world.cache = .empty
  length : world.channels.length = world.producers.length
  channels : ∀ number (entry : Nat × Producer), world.producers[number]? = some entry →
    entry.1 = number ∧ world.channel number = {} ∧ ∃ steps, entry.2 = { steps }
  inside : ∀ stream number, world.stream? stream = some (.channel number) →
    number < world.channels.length
  exclusive : ∀ stream other number, world.stream? stream = some (.channel number) →
    world.stream? other = some (.channel number) → stream = other
  values : ∀ stream all rest, world.stream? stream = some (.values all rest) → rest = all

theorem World.Calm.addStream (calm : world.Calm) {supply : Supply}
    (inside : ∀ number, supply = .channel number → number < world.channels.length)
    (new : ∀ stream number, supply = .channel number → world.stream? stream ≠ some (.channel number))
    (values : ∀ all rest, supply = .values all rest → rest = all) :
    (world.addStream supply).2.Calm := by
  refine ⟨calm.sources, calm.waiting, calm.cache, calm.length, calm.channels,
    fun stream number here => ?_, fun stream other number here there => ?_,
    fun stream all rest here => ?_⟩
  · rw [stream?_addStream] at here
    split at here
    · exact inside number (Option.some.inj here)
    · exact calm.inside stream number here
  · rw [stream?_addStream] at here there
    split at here
    · split at there
      · rename_i same same'
        exact same.trans same'.symm
      · exact absurd there (new other number (Option.some.inj here))
    · split at there
      · exact absurd here (new stream number (Option.some.inj there))
      · exact calm.exclusive stream other number here there
  · rw [stream?_addStream] at here
    split at here
    · exact values all rest (Option.some.inj here)
    · exact calm.values stream all rest here

theorem World.Prepared.calm (prepared : world.Prepared) : world.Calm := by
  induction prepared with
  | empty =>
    exact ⟨rfl, rfl, rfl, rfl, (nofun), (nofun), (nofun), (nofun)⟩
  | script prepared origin script ih =>
    exact ih.addStream (fun _ same => nomatch same) (fun _ _ same => nomatch same)
      fun _ _ same => nomatch same
  | values prepared all ih =>
    refine ih.addStream (fun _ same => nomatch same) (fun _ _ same => nomatch same)
      fun all rest same => ?_
    cases same
    rfl
  | @channel world prepared steps ih =>
    let wider : World := { world with
      channels := world.channels ++ [({} : Channel)]
      producers := world.producers ++ [(world.channels.length, ({ steps } : Producer))] }
    have calm : wider.Calm := by
      refine ⟨ih.sources, ih.waiting, ih.cache, ?_, fun number entry here => ?_,
        fun stream number here => ?_, ih.exclusive, ih.values⟩
      · show (world.channels ++ [_]).length = (world.producers ++ [_]).length
        rw [List.length_append, List.length_append, ih.length]
        rfl
      · have here : (world.producers ++ [(world.channels.length, ({ steps } : Producer))])[number]? =
          some entry := here
        rcases Nat.lt_trichotomy number world.producers.length with before | same | behind
        · rw [List.getElem?_append_left before] at here
          obtain ⟨same, empty, made⟩ := ih.channels number entry here
          refine ⟨same, ?_, made⟩
          show (((world.channels ++ [({} : Channel)])[number]?).getD ({} : Channel)) = _
          rw [List.getElem?_append_left (ih.length ▸ before)]
          exact empty
        · subst same
          rw [List.getElem?_concat_length] at here
          cases here
          refine ⟨ih.length, ?_, steps, rfl⟩
          show (((world.channels ++ [({} : Channel)])[world.producers.length]?).getD ({} : Channel)) = _
          rw [← ih.length, List.getElem?_concat_length]
          rfl
        · rw [List.getElem?_eq_none_iff.2] at here
          · exact nomatch here
          · rw [List.length_append]
            exact behind
      · show number < (world.channels ++ [_]).length
        rw [List.length_append]
        exact Nat.lt_succ_of_lt (ih.inside stream number here)
    refine calm.addStream (fun number same => ?_) (fun stream number same here => ?_)
      fun _ _ same => nomatch same
    · cases same
      show world.channels.length < (world.channels ++ [_]).length
      rw [List.length_append]
      exact Nat.lt_succ_self _
    · cases same
      exact Nat.lt_irrefl _ (ih.inside stream _ here)

variable {settings : Settings} {provider : Provider}

theorem World.Calm.source? (calm : world.Calm) (key : Nat × Nat) : world.source? key = none := by
  simp [World.source?, calm.sources]

theorem World.Calm.sound (calm : world.Calm) : world.Sound settings provider := by
  refine ⟨fun place other number here there => ?_, fun number channel producer here => ?_, ?_,
    fun name template here => ?_⟩
  · cases place with
    | source key => exact nomatch (calm.source? key).symm.trans here
    | stream number =>
      cases other with
      | source key => exact nomatch (calm.source? key).symm.trans there
      | stream number' => exact congrArg Place.stream (calm.exclusive _ _ _ here there)
  · exact (calm.channels number (channel, producer) here).1
  · rw [calm.waiting]
    exact List.nodup_nil
  · rw [calm.cache] at here
    exact nomatch here

/-- At the start every supply gives what its script says. -/
theorem World.Calm.supplies (calm : world.Calm) {stream : Nat} {supply : Supply}
    (here : world.stream? stream = some supply) : Supplies world supply (world.script supply) := by
  cases supply with
  | script origin rest => exact .script origin rest
  | values all rest =>
    obtain rfl := calm.values stream all rest here
    exact .values fun _ listed => listed
  | channel number =>
    have inside := calm.inside stream number here
    have produced : number < world.producers.length := calm.length ▸ inside
    obtain ⟨⟨owner, producer⟩, there⟩ : ∃ entry, world.producers[number]? = some entry :=
      ⟨_, List.getElem?_eq_getElem produced⟩
    obtain ⟨same, empty, steps, made⟩ := calm.channels number (owner, producer) there
    obtain rfl : number = owner := same.symm
    obtain rfl : producer = { steps } := made
    have script : world.script (.channel number) = scriptOfSteps steps := by
      rw [World.script, there]
      rfl
    rw [script]
    refine .channel inside there ?_
    rw [empty]
    exact .idle ⟨⟨rfl, rfl, nofun⟩, rfl, rfl, rfl, rfl, rfl⟩

/-- At the start a process has the view of the world. -/
theorem World.Calm.sees (calm : world.Calm) (task : Nat) (call : Call) :
    Sees settings provider world task (call.process settings)
      {handle | Reaches provider world call.data handle} ∅ world.view := by
  have knows : Knows {handle | Reaches provider world call.data handle} [call.data] := by
    intro value listed handle inside
    cases List.mem_singleton.1 listed
    exact .named inside
  refine ⟨render_orderly settings provider call.name call.fresh knows, ⟨?_, ?_⟩, fun waiting => ?_⟩
  · intro keeper member reached
    exact knows_iff.1 fun handle listed => .kept member reached listed
  · intro place mine
    cases place with
    | source key => exact mine.2.elim
    | stream number =>
      show Agrees world _ (world.stream? number) ((world.stream? number).map world.script)
      cases here : world.stream? number with
      | none => trivial
      | some supply =>
        have given : world.view.streams number = some (world.script supply) := by
          simp [World.view, here]
        exact ⟨calm.supplies here, fun handle listed => .streamed given mine listed⟩
  · rw [calm.waiting] at waiting
    exact nomatch waiting

theorem rests_process (call : Call) : (call.process settings).Rests := by
  unfold Call.process render
  cases settings.limit with
  | zero => trivial
  | succ n => exact fun _ listed => nomatch listed

/-- The result of a call in the view of the world at the start. -/
def Call.result (settings : Settings) (provider : Provider) (world : World) (call : Call) :
    Except Failure String :=
  ((call.process settings).outcome provider world.view).1

/-- At the start each call has a view of the world, in which it has its result. -/
theorem World.Calm.runs (calm : world.Calm) (kept : List Value) {calls : List Call}
    (disjoint : Disjoint provider world calls) :
    Stage.RunsWith settings provider (Stage.ofCalls settings world kept calls)
      (fun i => ((calls[i]?).map (Call.result settings provider world)).getD (.error .exhausted))
      (fun i => {handle | ∃ call, calls[i]? = some call ∧ Reaches provider world call.data handle})
      (fun _ => ∅) fun _ => world.view := by
  have process : ∀ (i : Nat) (p : Process (Except Failure String)),
      (Stage.ofCalls settings world kept calls).renderings[i]? = some p →
      ∃ call, calls[i]? = some call ∧ p = call.process settings := by
    intro i p here
    have here : (calls.map (Call.process settings))[i]? = some p := here
    rw [List.getElem?_map] at here
    obtain ⟨call, there, same⟩ := Option.map_eq_some_iff.1 here
    exact ⟨call, there, same.symm⟩
  refine ⟨calm.sound, ?_, ?_, ?_, ?_⟩
  · rintro i j number differs ⟨call, here, reached⟩ ⟨other, there, reached'⟩
    obtain ⟨inside, rfl⟩ := List.getElem?_eq_some_iff.1 here
    obtain ⟨inside', rfl⟩ := List.getElem?_eq_some_iff.1 there
    rcases Nat.lt_or_gt_of_ne differs with before | behind
    · exact List.pairwise_iff_getElem.1 disjoint i j inside inside' before number reached reached'
    · exact List.pairwise_iff_getElem.1 disjoint j i inside' inside behind number reached' reached
  · intro i p here
    obtain ⟨call, there, rfl⟩ := process i p here
    have same : {handle | ∃ call, calls[i]? = some call ∧ Reaches provider world call.data handle} =
        {handle | Reaches provider world call.data handle} := by
      ext handle
      simp [there]
    rw [same]
    exact calm.sees i call
  · intro i p here
    obtain ⟨call, -, rfl⟩ := process i p here
    exact rests_process call
  · intro i p here
    obtain ⟨call, there, rfl⟩ := process i p here
    rw [there]
    rfl

end

/-! ## Calls that run together -/

/-- Whether a call ends with a result when it runs alone, in whatever order it takes turns with
producers. -/
structure EndsAlone (settings : Settings) (provider : Provider) (world : World) (kept : List Value)
    (call : Call) (result : Except Failure String) : Prop where
  ends : ∃ rounds, ((Stage.ofCalls settings world kept [call]).settle provider rounds).results =
    [some result]
  only : ∀ moves other,
    ((Stage.ofCalls settings world kept [call]).follow provider moves).results = [some other] →
      other = result

namespace Stage

variable {settings : Settings} {provider : Provider} {world : World}

/-- A rendering that has ended has the result of its call. -/
theorem result_of_ended {α : Type} {stage : Stage α} {result : Nat → α} {known : Nat → Set Handle}
    {readable : Nat → Set Nat} {v : Nat → View}
    (runs : RunsWith settings provider stage result known readable v) {i : Nat} {ended : α}
    (here : stage.results[i]? = some (some ended)) : ended = result i := by
  obtain ⟨p, there, same⟩ : ∃ p, stage.renderings[i]? = some p ∧ p.result? = some ended := by
    simpa [Stage.results] using here
  cases p with
  | done ended' =>
    cases same
    exact runs.result i _ there
  | ask holding request next => cases same

/-- A call that runs alone ends with the result that it has in the view of the world. -/
theorem endsAlone (honest : provider.Honest) (prepared : world.Prepared) (kept : List Value)
    (call : Call) :
    EndsAlone settings provider world kept call (call.result settings provider world) := by
  have runs := @World.Calm.runs world settings provider prepared.calm kept [call]
    (List.pairwise_singleton _ _)
  constructor
  · obtain ⟨rounds, same⟩ := runs.settles_results honest
    exact ⟨rounds, same⟩
  · intro moves other here
    obtain ⟨known, readable, v, runs, -⟩ := runs.follow honest moves
    exact result_of_ended runs (i := 0) (by rw [here]; rfl)

/-- Calls that have no stream in common do not notice each other: whatever has happened so far, the
cache holds only what was loaded and parsed, a call that has ended has the result that it has alone,
and further rounds bring all calls to those results. -/
theorem calls_independent (honest : provider.Honest) (prepared : world.Prepared)
    (kept : List Value) {calls : List Call} (disjoint : Disjoint provider world calls) :
    ∃ alone : Call → Except Failure String,
      (∀ call ∈ calls, EndsAlone settings provider world kept call (alone call)) ∧
      ∀ moves, let stage := (ofCalls settings world kept calls).follow provider moves
        (∀ name template, stage.world.cache.get? name = some template →
          Coherent settings provider name template) ∧
        (∀ (i : Nat) (call : Call) (ended : Except Failure String), calls[i]? = some call →
          stage.results[i]? = some (some ended) → ended = alone call) ∧
        ∃ rounds, (stage.settle provider rounds).results = calls.map fun call => some (alone call) := by
  refine ⟨Call.result settings provider world, fun call _ => endsAlone honest prepared kept call,
    fun moves => ?_⟩
  obtain ⟨known, readable, v, runs, advances, -⟩ :=
    (@World.Calm.runs world settings provider prepared.calm kept calls disjoint).follow honest moves
  refine ⟨runs.sound.coherent, fun i call ended there here => ?_, ?_⟩
  · rw [result_of_ended runs here, there]
    rfl
  · obtain ⟨rounds, same⟩ := runs.settles_results honest
    refine ⟨rounds, same.trans (List.ext_getElem? fun i => ?_)⟩
    rw [advances.renderings, List.getElem?_map, List.getElem?_map]
    have count : (ofCalls settings world kept calls).renderings.length = calls.length := by
      simp [ofCalls]
    rw [count]
    by_cases inside : i < calls.length
    · rw [List.getElem?_range inside, List.getElem?_eq_getElem inside]
      simp [List.getElem?_eq_getElem inside]
    · rw [List.getElem?_eq_none_iff.2 (by rw [List.length_range]; omega),
        List.getElem?_eq_none_iff.2 (by omega)]
      rfl

/-- A call that iterates a channel runs beside one of the same template, whose data cannot be
iterated, and one of a template that is missing. -/
theorem calls_independent_channel :
    let provider : Provider :=
      { load := Sources.load { templates := [("list", "{{each $data}}-{{/each}}")] }
        call := fun _ _ => .error { text := "no function" }
        lookup := fun _ _ => .error { text := "no lookup" }
        iterable := fun _ => []
        keepers := [] }
    let world : World := (({} : World).addChannel [.send ⟨none, .null⟩, .signalEnd]).2
    let calls : List Call := [⟨"list", .stream 0, 0⟩, ⟨"list", .null, 0⟩, ⟨"none", .undefined, 0⟩]
    provider.Honest ∧ world.Prepared ∧ Disjoint provider world calls ∧
    ∃ alone : Call → Except Failure String,
      (∀ call ∈ calls, EndsAlone {} provider world [] call (alone call)) ∧
      ∀ moves, let stage := (ofCalls {} world [] calls).follow provider moves
        (∀ name template, stage.world.cache.get? name = some template →
          Coherent {} provider name template) ∧
        (∀ (i : Nat) (call : Call) (ended : Except Failure String), calls[i]? = some call →
          stage.results[i]? = some (some ended) → ended = alone call) ∧
        ∃ rounds, (stage.settle provider rounds).results =
          calls.map fun call => some (alone call) := by
  intro provider world calls
  have honest : provider.Honest := by
    constructor
    · intro function args value given
      cases given
    · intro lookup name value given
      cases given
    · intro iterable handle listed
      cases listed
  have prepared : world.Prepared := .channel .empty _
  have disjoint : Disjoint provider world calls := by
    have bare : ∀ data : Value, data.handles = [] → ∀ number,
        ¬Reaches provider world data (.stream number) := fun _ plain _ => Reaches.not_of_plain plain
    refine .cons ?_ (.cons ?_ (.cons (by simp) .nil))
    · intro other listed number _
      rcases List.mem_cons.1 listed with rfl | listed
      · exact bare _ rfl number
      · cases List.mem_singleton.1 listed
        exact bare _ rfl number
    · intro other listed number reached
      exact absurd reached (bare _ rfl number)
  exact ⟨honest, prepared, disjoint, calls_independent honest prepared [] disjoint⟩

end Stage

end Stencil.Render
