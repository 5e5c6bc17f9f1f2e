import Stencil.Proofs.Rendering.Independence
import Stencil.Proofs.Rendering.MirroredTemplates
/-!
# Positions change diagnostics only

Calls of a renderer that parses templates with positions, and the same calls of one that parses them
without, take the same course: whoever has the next turn, they ask for the same and get the same
answers, and the worlds that they leave behind differ in the spans of the cached templates only. So
each call gives the same text both times, or an error of the same kind with the same message; only
the span, the stack and the cause of the error may differ.
-/

set_option autoImplicit false

namespace Stencil.Render

open Stencil.Stream (Delivery Step Outcome)
open Stencil.Syntax

variable {α β : Type} {rel : α → β → Prop} {provider : Provider}

/-! ## Worlds -/

namespace World

/-- The world with another cache. -/
def withCache (world : World) (cache : Cache) : World := { world with cache }

variable (world : World) (cache : Cache)

theorem dropSupply_withCache (supply : Supply) :
    (world.withCache cache).dropSupply supply = (world.dropSupply supply).withCache cache := by
  cases supply <;> rfl

theorem dropStream_withCache (stream : Nat) :
    (world.withCache cache).dropStream stream = (world.dropStream stream).withCache cache := by
  unfold dropStream
  rw [show (world.withCache cache).stream? stream = world.stream? stream from rfl]
  split
  · next supply _ =>
    exact dropSupply_withCache { world with streams := world.streams.set stream none } cache supply
  · rfl

theorem releaseSource_withCache (source : Nat × Nat) :
    (world.withCache cache).releaseSource source =
      (world.releaseSource source).withCache cache := by
  unfold releaseSource
  rw [show (world.withCache cache).source? source = world.source? source from rfl]
  split
  · next supply _ =>
    exact dropSupply_withCache
      { world with sources := world.sources.filter fun entry => entry.1 ≠ source } cache supply
  · rfl

/-- Letting others go on before an answer that does not look at the cache. -/
theorem afterOthers_withCache {γ : Type} (task : Nat) (event : Option Event)
    (answer : World → γ × World)
    (blind : ∀ world : World, answer (world.withCache cache) =
      ((answer world).1, (answer world).2.withCache cache)) :
    (world.withCache cache).afterOthers task event answer =
      ((world.afterOthers task event answer).1,
        (world.afterOthers task event answer).2.withCache cache) := by
  unfold afterOthers
  rw [show (world.withCache cache).waiting = world.waiting from rfl]
  split_ifs
  · have given := blind { world with waiting := world.waiting.erase task }
    rw [withCache] at given
    dsimp only [withCache]
    rw [given]
    rfl
  · cases event <;> rfl

theorem pullChannel_withCache (task number : Nat) :
    (world.withCache cache).pullChannel task number =
      ((world.pullChannel task number).1, (world.pullChannel task number).2.withCache cache) := by
  unfold pullChannel
  rw [show (world.withCache cache).channel number = world.channel number from rfl,
    show (world.withCache cache).waiting = world.waiting from rfl]
  dsimp only
  generalize (if world.waiting.contains task then (world.channel number).receive
    else (world.channel number).pull) = received
  obtain ⟨delivery, channel⟩ := received
  cases delivery <;> rfl

theorem pull_withCache (task source : Nat) :
    (world.withCache cache).pull task source =
      ((world.pull task source).1, (world.pull task source).2.withCache cache) := by
  unfold pull
  rw [show (world.withCache cache).source? (task, source) = world.source? (task, source) from rfl]
  split
  · exact world.pullChannel_withCache cache task _
  · exact world.afterOthers_withCache cache task _ _ fun _ => rfl
  · rfl

theorem takeStream_withCache (source : Nat × Nat) (stream : Nat) :
    (world.withCache cache).takeStream source stream =
      ((world.takeStream source stream).1, (world.takeStream source stream).2.withCache cache) := by
  unfold takeStream
  rw [show (world.withCache cache).stream? stream = world.stream? stream from rfl]
  split <;> rfl

/-- A request that is about no template is answered without the cache. -/
theorem answer_withCache (task : Nat) {request : Request} (plain : request.isPlain = true) :
    answer provider task request (world.withCache cache) =
      ((answer provider task request world).1,
        (answer provider task request world).2.withCache cache) := by
  cases request with
  | cached => cases plain
  | store => cases plain
  | load name =>
    exact world.afterOthers_withCache cache task _ (fun world => (provider.load name, world))
      fun _ => rfl
  | lookup handle name =>
    exact world.afterOthers_withCache cache task _
      (fun world => (provider.lookup handle name, world)) fun _ => rfl
  | call handle args => rfl
  | iterate source handle => rfl
  | take source handle =>
    simp only [answer, takeStream_withCache]
  | pull source => exact world.pull_withCache cache task source
  | release source => simp only [answer, releaseSource_withCache]
  | pause =>
    exact world.afterOthers_withCache cache task none (fun world => ((), world)) fun _ => rfl

theorem abandon_withCache (inUse : List Value) :
    (world.withCache cache).abandon provider inUse =
      (world.abandon provider inUse).withCache cache := by
  unfold abandon
  rw [show (world.withCache cache).channels = world.channels from rfl,
    show (world.withCache cache).held = world.held from rfl,
    show (world.withCache cache).keepers = world.keepers from rfl]
  split_ifs with listening
  · -- the streams that are lost are given up one by one
    clear listening
    dsimp only
    generalize Handle.lost _ _ = lost
    induction lost generalizing world with
    | nil => rfl
    | cons handle rest ih =>
      rw [List.foldl_cons, List.foldl_cons]
      cases handle with
      | stream number =>
        dsimp only
        rw [dropStream_withCache, ih]
      | _ => exact ih world
  · rfl

/-- Noting the steps of a producer that are settled. -/
theorem noteAll_withCache (settled : List (Step × Outcome)) :
    settled.foldl (fun world entry => world.note (.settled entry.1 entry.2))
        (world.withCache cache) =
      (settled.foldl (fun world entry => world.note (.settled entry.1 entry.2)) world).withCache
        cache := by
  induction settled generalizing world with
  | nil => rfl
  | cons entry rest ih => exact ih (world.note (.settled entry.1 entry.2))

theorem produce_withCache (number : Nat) :
    (world.withCache cache).produce number = (world.produce number).withCache cache := by
  unfold produce
  rw [show (world.withCache cache).producers = world.producers from rfl]
  split
  · rfl
  · next channel producer _ =>
    dsimp only
    rw [show (world.withCache cache).channel channel = world.channel channel from rfl]
    generalize producer.proceed (world.channel channel) = turn
    exact noteAll_withCache { world.setChannel channel turn.channel with
      producers := world.producers.set number (channel, turn.producer) } cache turn.settled

/-- Two worlds differ in the spans of the templates in their caches only: those of the second are
erased. -/
structure Mirrors (world world' : World) : Prop where
  cached : ∀ name, world'.cache.get? name = (world.cache.get? name).map Template.eraseSpans
  rest : world' = world.withCache world'.cache

namespace Mirrors

variable {world world' : World}

/-- A step that does not look at the cache, and so leaves it as it is. -/
theorem step (mirrors : Mirrors world world') (f : World → World)
    (blind : ∀ (world : World) (cache : Cache),
      f (world.withCache cache) = (f world).withCache cache) : Mirrors (f world) (f world') := by
  have kept : (f world).cache = world.cache := by
    have same : f world = (f world).withCache world.cache := blind world world.cache
    rw [same]
    rfl
  obtain ⟨cached, rest⟩ := mirrors
  rw [rest, blind]
  constructor
  · rw [kept]
    exact cached
  · rfl

/-- The same events have been seen in both worlds. -/
theorem trace (mirrors : Mirrors world world') : world'.trace = world.trace := by
  rw [mirrors.rest]
  rfl

/-- Putting a template, and the erased one, into the cache. -/
theorem insert (mirrors : Mirrors world world') (name : String) (parsed : Template) :
    Mirrors (world.withCache (world.cache.insert name parsed))
      (world'.withCache (world'.cache.insert name parsed.eraseSpans)) := by
  obtain ⟨cached, rest⟩ := mirrors
  constructor
  · intro other
    show (world'.cache.insert name parsed.eraseSpans).get? other =
      ((world.cache.insert name parsed).get? other).map Template.eraseSpans
    rw [Cache.get?_insert, Cache.get?_insert]
    split_ifs
    · rfl
    · exact cached other
  · rw [rest]
    rfl

end Mirrors

end World

/-! ## Turns -/

/-- Processes that mirror each other go on alike: they get the same answers, up to the spans of
templates, and wait for the same. -/
theorem Process.Mirrors.poll (provider : Provider) {p : Process α} {p' : Process β}
    (mirrors : p.Mirrors rel p') (task : Nat) {world world' : World}
    (worlds : world.Mirrors world') :
    (p.poll (World.host provider) task world).1.Mirrors rel
        (p'.poll (World.host provider) task world').1 ∧
      (p.poll (World.host provider) task world).2.Mirrors
        (p'.poll (World.host provider) task world').2 := by
  induction mirrors generalizing world world' with
  | done related => exact ⟨.done related, worlds⟩
  | @ask holding holding' request next next' plain held goes ih =>
    have behind : (World.answer provider task request world).2.Mirrors
        (World.answer provider task request world').2 :=
      worlds.step (fun world => (World.answer provider task request world).2) fun world cache =>
        congrArg Prod.snd (world.answer_withCache cache task plain)
    have reply : (World.answer provider task request world').1 =
        (World.answer provider task request world).1 := by
      rw [worlds.rest, World.answer_withCache _ _ task plain]
    unfold Process.poll World.host
    dsimp only
    cases given : World.answer provider task request world with
    | mk answer after =>
      cases given' : World.answer provider task request world' with
      | mk answer' after' =>
        rw [given, given'] at behind reply
        dsimp only at behind reply
        subst reply
        cases answer' with
        | ready answer => exact ih answer behind
        | pending => exact ⟨.ask plain held goes, behind⟩
  | @cached holding holding' name next next' held goes ih =>
    show ((next (world.cache.get? name)).poll _ task world).1.Mirrors rel
        ((next' (world'.cache.get? name)).poll _ task world').1 ∧
      ((next (world.cache.get? name)).poll _ task world).2.Mirrors
        ((next' (world'.cache.get? name)).poll _ task world').2
    rw [worlds.cached]
    exact ih _ worlds
  | @store holding holding' name parsed next next' held goes ih =>
    exact ih (worlds.insert name parsed)

namespace Stage

/-- The renderings of two stages mirror each other, and so do their worlds. -/
structure Mirrors (rel : α → β → Prop) (stage : Stage α) (stage' : Stage β) : Prop where
  renderings : List.Forall₂ (Process.Mirrors rel) stage.renderings stage'.renderings
  world : stage.world.Mirrors stage'.world
  kept : stage'.kept = stage.kept

namespace Mirrors

variable {stage : Stage α} {stage' : Stage β}

/-- The values in use outside the worlds are the same. -/
theorem inUse (mirrors : Mirrors rel stage stage') : stage'.inUse = stage.inUse := by
  have held {ps : List (Process α)} {ps' : List (Process β)}
      (renderings : List.Forall₂ (Process.Mirrors rel) ps ps') :
      ps'.flatMap Process.held = ps.flatMap Process.held := by
    induction renderings with
    | nil => rfl
    | cons first _ ih => rw [List.flatMap_cons, List.flatMap_cons, first.held, ih]
  unfold Stage.inUse
  rw [mirrors.kept, held mirrors.renderings]

/-- The renderings of one number mirror each other, or there is none on either stage. -/
theorem at_ {ps : List (Process α)} {ps' : List (Process β)}
    (renderings : List.Forall₂ (Process.Mirrors rel) ps ps') (number : Nat) :
    Option.Rel (Process.Mirrors rel) ps[number]? ps'[number]? := by
  induction renderings generalizing number with
  | nil => exact .none
  | cons first rest ih =>
    cases number with
    | zero => exact .some first
    | succ number => simpa using ih number

/-- Other renderings, in the place of those of one number, that mirror each other. -/
theorem set {ps : List (Process α)} {ps' : List (Process β)}
    (renderings : List.Forall₂ (Process.Mirrors rel) ps ps') {p : Process α} {p' : Process β}
    (mirrors : p.Mirrors rel p') (number : Nat) :
    List.Forall₂ (Process.Mirrors rel) (ps.set number p) (ps'.set number p') := by
  induction renderings generalizing number with
  | nil => exact .nil
  | cons first rest ih =>
    cases number with
    | zero => exact .cons mirrors rest
    | succ number => exact .cons first (ih number)

theorem turn (mirrors : Mirrors rel stage stage') (move : Move) :
    Mirrors rel (stage.turn provider move) (stage'.turn provider move) := by
  obtain ⟨renderings, worlds, kept⟩ := mirrors
  cases move with
  | producer number =>
    have produced := worlds.step (World.produce · number) fun world cache =>
      world.produce_withCache cache number
    exact ⟨renderings, produced, kept⟩
  | rendering number =>
    have here := at_ renderings number
    cases first : stage.renderings[number]? with
    | none =>
      rw [first] at here
      cases second : stage'.renderings[number]? with
      | none =>
        simp only [Stage.turn, first, second]
        exact ⟨renderings, worlds, kept⟩
      | some p' =>
        rw [second] at here
        cases here
    | some p =>
      rw [first] at here
      cases second : stage'.renderings[number]? with
      | none =>
        rw [second] at here
        cases here
      | some p' =>
        rw [second] at here
        cases here with
        | some mirrors =>
          obtain ⟨polled, behind⟩ := mirrors.poll provider number worlds
          simp only [Stage.turn, first, second]
          exact ⟨set renderings polled number, behind, kept⟩

theorem move (mirrors : Mirrors rel stage stage') (move : Move) :
    Mirrors rel (stage.move provider move) (stage'.move provider move) := by
  have turned : Mirrors rel (stage.turn provider move) (stage'.turn provider move) :=
    mirrors.turn move
  unfold Stage.move Stage.abandon
  rw [turned.inUse]
  have abandoned := turned.world.step (World.abandon provider _) fun world cache =>
    world.abandon_withCache cache (stage.turn provider move).inUse
  exact ⟨turned.renderings, abandoned, turned.kept⟩

/-- Any list of moves, one after the other. -/
theorem follow (provider : Provider) (mirrors : Mirrors rel stage stage') (moves : List Move) :
    Mirrors rel (stage.follow provider moves) (stage'.follow provider moves) := by
  induction moves generalizing stage stage' with
  | nil => exact mirrors
  | cons move moves ih => exact ih (mirrors.move move)

/-- The results of the renderings that have ended are related, and the same have ended. -/
theorem results (mirrors : Mirrors rel stage stage') :
    List.Forall₂ (Option.Rel rel) stage.results stage'.results := by
  unfold Stage.results
  rw [List.forall₂_map_left_iff, List.forall₂_map_right_iff]
  refine mirrors.renderings.imp fun p p' mirrors => ?_
  cases mirrors with
  | done related => exact .some related
  | ask | cached | store => exact .none

theorem isSettled (mirrors : Mirrors rel stage stage') : stage'.isSettled = stage.isSettled := by
  have ended {results : List (Option α)} {results' : List (Option β)}
      (related : List.Forall₂ (Option.Rel rel) results results') :
      results'.all Option.isSome = results.all Option.isSome := by
    induction related with
    | nil => rfl
    | cons first _ ih => cases first <;> simp [ih]
  unfold Stage.isSettled
  rw [ended mirrors.results, mirrors.world.rest]
  rfl

/-- Rounds are alike, as there are as many renderings and producers on both stages. -/
theorem round (mirrors : Mirrors rel stage stage') : stage'.round = stage.round := by
  unfold Stage.round
  rw [mirrors.renderings.length_eq, mirrors.world.rest]
  rfl

/-- Rounds until all is settled, by induction on the bound on their number. -/
theorem settle (provider : Provider) (mirrors : Mirrors rel stage stage') (rounds : Nat) :
    Mirrors rel (stage.settle provider rounds) (stage'.settle provider rounds) := by
  induction rounds generalizing stage stage' with
  | zero => exact mirrors
  | succ n ih =>
    rw [Stage.settle, Stage.settle, mirrors.isSettled, mirrors.round]
    split_ifs
    · exact mirrors
    · exact ih (mirrors.follow provider stage.round)

end Mirrors

end Stage

/-! ## Calls -/

/-- The processes of a call with positions and without mirror each other. -/
theorem Call.process_mirrors {settings settings' : Settings}
    (differ : RenderM.DifferInPositions settings settings') (call : Call) :
    (call.process settings).Mirrors (EndsAlike Eq) (call.process settings') := by
  unfold Call.process render RenderM.process
  rw [differ.limit]
  have start : State.SameButPlaces
      ⟨{ frame := Frame.ofTemplate call.name call.data }, call.fresh, []⟩
      ⟨{ frame := Frame.ofTemplate call.name call.data }, call.fresh, []⟩ := ⟨rfl, rfl, rfl⟩
  exact (RenderM.mirrors_renderTemplate differ settings.limit call.name _ _ start).bind
    fun _ _ alike => .done alike.1

/-- Calls of a renderer that parses templates with positions, and of one that parses them without,
in a world whose cache is empty. -/
def Stage.placed (positions : Bool) (settings : Settings) (world : World) (kept : List Value)
    (calls : List Call) : Stage (Except Failure String) :=
  .ofCalls { settings with positions } (world.withCache .empty) kept calls

/-- The stages on which calls begin with positions and without mirror each other. -/
theorem Stage.placed_mirrors (settings : Settings) (world : World) (kept : List Value)
    (calls : List Call) :
    (Stage.placed true settings world kept calls).Mirrors (EndsAlike Eq)
      (Stage.placed false settings world kept calls) := by
  have differ : RenderM.DifferInPositions { settings with positions := true }
      { settings with positions := false } := ⟨rfl, rfl, rfl⟩
  constructor
  · show List.Forall₂ _ (calls.map (Call.process _)) (calls.map (Call.process _))
    rw [List.forall₂_map_left_iff, List.forall₂_map_right_iff, List.forall₂_same]
    exact fun call _ => call.process_mirrors differ
  · exact ⟨fun _ => rfl, rfl⟩
  · rfl

/-- Positions change diagnostics only. Whoever has the next turn, the same calls have ended with
positions and without, and each with the same text, or with an error of the same kind and the same
message; and the same events have been seen. So it is when rounds follow until all is settled. -/
theorem positions_change_diagnostics (settings : Settings) (provider : Provider) (world : World)
    (kept : List Value) (calls : List Call) (moves : List Move) (rounds : Nat) :
    let course (positions : Bool) :=
      ((Stage.placed positions settings world kept calls).follow provider moves).settle provider
        rounds
    List.Forall₂ (Option.Rel (EndsAlike Eq)) (course true).results (course false).results ∧
      (course false).world.trace = (course true).world.trace := by
  have begun := Stage.placed_mirrors settings world kept calls
  have ended := (begun.follow provider moves).settle provider rounds
  exact ⟨ended.results, ended.world.trace⟩

end Stencil.Render
