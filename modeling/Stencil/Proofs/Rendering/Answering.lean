import Stencil.Proofs.Rendering.Histories
import Stencil.Proofs.Rendering.Worlds
/-!
# Answers of a world

A world that is fit for processes answers an orderly process as its view tells, or lets it wait. So a
process that is polled ends up with the outcome that it has in its view, and what it changes no other
process sees.
-/

set_option autoImplicit false

namespace Stencil.Render

open Stencil.Stream
open Stencil.Syntax (Template)

section

variable {α : Type} {settings : Settings} {provider : Provider} {world world' : World}
  {task : Nat} {known : Set Handle} {readable readable' : Set Nat} {v v' : View}

/-- A world that holds no more than another. -/
theorem World.Sound.of_less (sound : world.Sound settings provider)
    (less : ∀ place supply, world'.supply? place = some supply → world.supply? place = some supply)
    (producers : world'.producers = world.producers) (waiting : world'.waiting.Nodup)
    (coherent : ∀ name template, world'.cache.get? name = some template →
      Coherent settings provider name template) : world'.Sound settings provider where
  exclusive place other number here there :=
    sound.exclusive place other number (less place _ here) (less other _ there)
  paired := producers ▸ sound.paired
  waiting := waiting
  coherent := coherent

/-- A source is set to a supply whose channel, if it is one, is nowhere else. -/
theorem World.Sound.setSource (sound : world.Sound settings provider) (key : Nat × Nat)
    {supply : Supply} (nowhere : ∀ place number, supply = .channel number →
      world.supply? place ≠ some (.channel number)) :
    (world.setSource key supply).Sound settings provider where
  exclusive place other number here there := by
    rw [World.supply?_setSource] at here there
    split at here
    · rename_i same
      split at there
      · rename_i same'
        exact same.trans same'.symm
      · exact absurd there (nowhere other number (Option.some.inj here))
    · split at there
      · exact absurd here (nowhere place number (Option.some.inj there))
      · exact sound.exclusive place other number here there
  paired := sound.paired
  waiting := sound.waiting
  coherent := sound.coherent

theorem Touches.setSource (task : Nat) (known : Set Handle) (world : World) (source : Nat)
    (supply : Supply) : Touches task known world (world.setSource (task, source) supply) := by
  refine ⟨fun place theirs => ?_, fun _ _ _ _ => rfl, rfl, rfl, fun _ _ => Iff.rfl⟩
  rw [World.supply?_setSource, if_neg]
  rintro rfl
  exact theirs rfl

/-- A view fits still when it tells what is new at one place. -/
theorem Fits.update (fits : Fits provider world task known readable v) (at_ : Place)
    (others : ∀ place, place ≠ at_ → Mine task known readable' place →
      Mine task known readable place ∧ world'.supply? place = world.supply? place ∧
        v'.script? place = v.script? place ∧
        ∀ supply script, world.supply? place = some supply → Supplies world supply script →
          Supplies world' supply script)
    (here : Mine task known readable' at_ →
      Agrees world' known (world'.supply? at_) (v'.script? at_)) :
    Fits provider world' task known readable' v' where
  keepers := fits.keepers
  places place mine := by
    by_cases same : place = at_
    · subst same
      exact here mine
    · obtain ⟨mine', supply, script, supplies⟩ := others place same mine
      rw [supply, script]
      exact (fits.places place mine').of_same supplies

/-- A supply gives the same where channels and producers are the same. -/
theorem Supplies.of_channels {supply : Supply} {script : Script}
    (supplies : Supplies world supply script) (channels : world'.channels = world.channels)
    (producers : world'.producers = world.producers) : Supplies world' supply script :=
  supplies.of_same (fun number _ => by rw [World.channel, World.channel, channels])
    (by rw [channels]) producers

theorem script?_opened {place : Place} {source : Nat} (mine : Mine task known readable place)
    (differs : place ≠ .source (task, source)) (script : Script) :
    (v.opened source script).script? place = v.script? place := by
  cases place with
  | stream number => rfl
  | source key =>
    obtain ⟨owner, inner⟩ := key
    obtain ⟨rfl, -⟩ := mine
    have apart : inner ≠ source := fun same => differs (same ▸ rfl)
    simp [View.script?, View.opened, apart]

theorem script?_spent {place : Place} {source : Nat} (mine : Mine task known readable place)
    (differs : place ≠ .source (task, source)) :
    (v.spent source).script? place = v.script? place := by
  cases place with
  | stream number => rfl
  | source key =>
    obtain ⟨owner, inner⟩ := key
    obtain ⟨rfl, -⟩ := mine
    have apart : inner ≠ source := fun same => differs (same ▸ rfl)
    simp [View.script?, View.spent, apart]

theorem script?_askedFor {handle : Nat} {place : Place} (differs : place ≠ .stream handle) :
    (v.askedFor handle).script? place = v.script? place := by
  cases place with
  | source key => rfl
  | stream number =>
    have apart : number ≠ handle := fun same => differs (same ▸ rfl)
    simp [View.script?, View.askedFor, apart]

/-- A source is set to a supply. -/
theorem Fits.setSource (fits : Fits provider world task known readable v) {source : Nat}
    {supply : Supply} {script : Script} (supplies : Supplies world supply script)
    (reach : ∀ handle ∈ script.handles, handle ∈ known) :
    Fits provider (world.setSource (task, source) supply) task known (insert source readable)
      (v.opened source script) := by
  refine fits.update (.source (task, source)) (fun place differs mine => ?_) fun _ => ?_
  · have mine' : Mine task known readable place := by
      cases place with
      | stream number => exact mine
      | source key =>
        refine ⟨mine.1, mine.2.resolve_left fun same => differs ?_⟩
        rw [← same, ← mine.1]
    refine ⟨mine', ?_, script?_opened mine' differs script, fun other others _ gives => ?_⟩
    · rw [World.supply?_setSource, if_neg differs]
    · exact gives.of_channels rfl rfl
  · rw [World.supply?_setSource, if_pos rfl]
    simp only [View.script?, View.opened, Function.update_self]
    exact ⟨supplies.of_channels rfl rfl, reach⟩

/-- A source is not read any more. -/
theorem Fits.leave (fits : Fits provider world task known readable v) {source : Nat}
    (supply : ∀ place, place ≠ .source (task, source) →
      world'.supply? place = world.supply? place ∧
        ∀ supply script, world.supply? place = some supply → Supplies world supply script →
          Supplies world' supply script)
    (script : ∀ place, Mine task known readable place → place ≠ .source (task, source) →
      v'.script? place = v.script? place) :
    Fits provider world' task known (readable \ {source}) v' := by
  refine fits.update (.source (task, source)) (fun place differs mine => ?_) fun mine => ?_
  · have mine' : Mine task known readable place := by
      cases place with
      | stream number => exact mine
      | source key => exact ⟨mine.1, mine.2.1⟩
    exact ⟨mine', (supply place differs).1, script place mine' differs, (supply place differs).2⟩
  · exact absurd rfl mine.2.2

/-- A process sees the world behind an answer. -/
theorem Sees.next {holding : Holding} {request : Request} {next : request.Answer → Process α}
    (sees : Sees settings provider world task (.ask holding request next) known readable v)
    {answer : request.Answer} (possible : Process.Possible settings provider request answer)
    (told : Knows known (request.told answer))
    (fits : Fits provider world' task known (Process.readableBehind readable request answer) v')
    (free : task ∉ world'.waiting) :
    Sees settings provider world' task (next answer) known
      (Process.readableBehind readable request answer) v' where
  orderly := by
    obtain ⟨reach, -, -, goes⟩ := sees.orderly
    exact goes known reach answer possible (knows_iff.2 told)
  fits := fits
  waits waiting := absurd waiting free

/-- What a keeper in reach keeps is in reach. -/
theorem Fits.keeps (fits : Fits provider world task known readable v) {handle : Handle}
    (reached : handle ∈ known) {values : List Value}
    (kept : ∀ other ∈ values.flatMap Value.handles, ∃ keeper ∈ provider.keepers,
      keeper.1 = handle ∧ other ∈ keeper.2.flatMap Value.handles) : Knows known values := by
  refine knows_iff.1 fun other listed => ?_
  obtain ⟨keeper, member, rfl, inside⟩ := kept other listed
  exact knows_iff.2 (fits.keepers keeper member reached) other inside

/-! ## Waiting -/

/-- Whether a process waits for the producer of a channel, which has something to do. -/
def Stuck (world : World) (task : Nat) : Request → Prop
  | .pull source => ∃ number producer, world.source? (task, source) = some (.channel number) ∧
      world.producers[number]? = some (number, producer) ∧
      Promises.Eager (world.channel number) producer
  | _ => False

/-- How a world answers a process: it lets it wait, or tells what is in its view. -/
structure Answered (settings : Settings) (provider : Provider) (world : World) (task : Nat)
    (known : Set Handle) (readable : Set Nat) (v : View) (holding : Holding) (request : Request)
    (next : request.Answer → Process α) (out : Reply request.Answer × World) : Prop where
  sound : out.2.Sound settings provider
  touches : Touches task known world out.2
  pending : out.1 = .pending →
    Sees settings provider out.2 task (.ask holding request next) known readable v ∧
      task ∈ out.2.waiting ∧ (task ∉ world.waiting ∨ Stuck out.2 task request)
  ready : ∀ answer, out.1 = .ready answer → ∃ readable' v',
    Sees settings provider out.2 task (next answer) known readable' v' ∧
      (next answer).outcome provider v' = (Process.ask holding request next).outcome provider v ∧
      (next answer).questions provider v' < (Process.ask holding request next).questions provider v ∧
      v'.asked = (v.answer provider request).2.asked

variable {holding : Holding} {request : Request} {next : request.Answer → Process α}

/-- What is waited for does not matter for what is seen. -/
theorem fits_waiting (fits : Fits provider world task known readable v) (waiting : List Nat)
    (trace : List Event) (cache : Cache) :
    Fits provider { world with waiting, trace, cache } task known readable v :=
  fits.of_same (fun _ listed => listed) fun place _ =>
    ⟨by cases place <;> rfl, rfl, fun _ _ _ gives => gives.of_channels rfl rfl⟩

/-- Nor does it matter for other processes. -/
theorem touches_waiting (known : Set Handle) {waiting : List Nat}
    (others : ∀ other, other ≠ task → (other ∈ waiting ↔ other ∈ world.waiting))
    (trace : List Event) (cache : Cache) :
    Touches task known world { world with waiting, trace, cache } :=
  ⟨fun place _ => by cases place <;> rfl, fun _ _ _ _ => rfl, rfl, rfl, others⟩

/-- A process has to wait. -/
theorem answered_pending (sound : world.Sound settings provider)
    (sees : Sees settings provider world task (.ask holding request next) known readable v)
    (free : task ∉ world.waiting) (waits : Waits world task request) (trace : List Event) :
    Answered settings provider world task known readable v holding request next
      (.pending, { world with waiting := task :: world.waiting, trace }) where
  sound := sound.of_less (fun place _ here => by cases place <;> exact here) rfl
    (List.nodup_cons.2 ⟨free, sound.waiting⟩) sound.coherent
  touches := touches_waiting known (fun other apart => by simp [apart]) trace world.cache
  pending _ := by
    refine ⟨⟨sees.orderly, fits_waiting sees.fits _ trace world.cache, fun _ => ?_⟩,
      List.mem_cons_self, .inl free⟩
    exact ⟨holding, request, next, rfl, by cases request <;> exact waits⟩
  ready _ same := nomatch same

/-- A request that is answered at once is not waited for. -/
theorem Sees.free (sees : Sees settings provider world task (.ask holding request next) known
    readable v) (never : ¬Waits world task request) : task ∉ world.waiting := by
  intro waiting
  obtain ⟨holding', request', next', same, waits⟩ := sees.waits waiting
  cases same
  exact never waits

/-- An answer that tells what is in the view. -/
theorem answered_ready (answer : request.Answer) (world' : World)
    (sound : world'.Sound settings provider) (touches : Touches task known world world')
    (sees : Sees settings provider world task (.ask holding request next) known readable v)
    (possible : Process.Possible settings provider request answer)
    (same : v.answer provider request = (answer, v')) (told : Knows known (request.told answer))
    (fits : Fits provider world' task known (Process.readableBehind readable request answer) v')
    (free : task ∉ world'.waiting) :
    Answered settings provider world task known readable v holding request next
      (.ready answer, world') where
  sound := sound
  touches := touches
  pending same := nomatch same
  ready answer same' := by
    cases same'
    refine ⟨_, v', sees.next possible told fits free, ?_, ?_, ?_⟩
    · rw [Process.outcome, same]
    · rw [Process.questions, same]
      exact Nat.lt_succ_self _
    · rw [same]

/-- What is answered when others have had their turn. -/
theorem answered_afterOthers (sound : world.Sound settings provider)
    (sees : Sees settings provider world task (.ask holding request next) known readable v)
    (waits : Waits world task request) (event : Option Event)
    (answer : World → request.Answer × World)
    (effect : ∀ world' : World, world'.Sound settings provider →
      Sees settings provider world' task (.ask holding request next) known readable v →
      (∀ source, world'.source? source = world.source? source) → task ∉ world'.waiting →
      Answered settings provider world' task known readable v holding request next
        (.ready (answer world').1, (answer world').2)) :
    Answered settings provider world task known readable v holding request next
      (world.afterOthers task event answer) := by
  unfold World.afterOthers
  split
  · have free : task ∉ world.waiting.erase task := sound.waiting.not_mem_erase
    have sees' : Sees settings provider { world with waiting := world.waiting.erase task } task
        (.ask holding request next) known readable v :=
      ⟨sees.orderly, fits_waiting sees.fits _ world.trace world.cache,
        fun waiting => absurd waiting free⟩
    have sound' : ({ world with waiting := world.waiting.erase task } : World).Sound settings
        provider :=
      sound.of_less (fun place _ here => by cases place <;> exact here) rfl
        (sound.waiting.erase task)
        sound.coherent
    have out := effect _ sound' sees' (fun _ => rfl) free
    refine ⟨out.sound, Touches.trans ?_ out.touches, (nomatch ·), out.ready⟩
    exact touches_waiting known (fun other apart => List.mem_erase_of_ne apart) world.trace
      world.cache
  · rename_i absent
    have free : task ∉ world.waiting := by simpa using absent
    cases event with
    | none => exact answered_pending sound sees free waits world.trace
    | some event => exact answered_pending sound sees free waits (event :: world.trace)

/-! ## Each request -/

variable (honest : provider.Honest) (sound : world.Sound settings provider)

include sound

theorem answered_cached {name : String} {next : Option Template → Process α}
    (sees : Sees settings provider world task (.ask holding (.cached name) next) known readable v) :
    Answered settings provider world task known readable v holding (.cached name) next
      (.ready (world.cache.get? name), world) where
  sound := sound
  touches := Touches.refl _ _ _
  pending same := nomatch same
  ready answer same := by
    cases same
    refine ⟨readable, v, sees.next (sound.coherent name) knows_nil sees.fits
      (sees.free fun waits => waits), ?_⟩
    obtain ⟨-, -, oblivious, -⟩ := sees.orderly
    show _ = (next none).outcome provider v ∧ _ < (next none).questions provider v + 1 ∧ _ = _
    cases found : world.cache.get? name with
    | none => exact ⟨rfl, Nat.lt_succ_self _, rfl⟩
    | some template =>
      obtain ⟨same, fewer⟩ := oblivious template (sound.coherent name template found) v
      exact ⟨same, Nat.lt_succ_of_le fewer, rfl⟩

theorem answered_store {name : String} {template : Template} {next : Unit → Process α}
    (sees : Sees settings provider world task (.ask holding (.store name template) next) known
      readable v) :
    Answered settings provider world task known readable v holding (.store name template) next
      (.ready (), { world with cache := world.cache.insert name template }) := by
  obtain ⟨-, coherent, -, -⟩ := sees.orderly
  have kept : ({ world with cache := world.cache.insert name template } : World).Sound settings
      provider := by
    refine sound.of_less (fun place _ here => by cases place <;> exact here) rfl sound.waiting
      fun other found here => ?_
    dsimp only at here
    rw [Cache.get?_insert] at here
    split at here
    · rename_i same
      cases here
      exact same ▸ coherent
    · exact sound.coherent other found here
  exact answered_ready _ _ kept (touches_waiting known (fun _ _ => Iff.rfl) world.trace _) sees
    trivial rfl knows_nil (fits_waiting sees.fits world.waiting world.trace _)
    (sees.free fun waits => waits)

theorem answered_load {name : String} {next : Except Cause String → Process α}
    (sees : Sees settings provider world task (.ask holding (.load name) next) known readable v) :
    Answered settings provider world task known readable v holding (.load name) next
      (World.answer provider task (.load name) world) := by
  refine answered_afterOthers sound sees trivial (some (.loaded name))
    (fun world => (provider.load name, world)) fun world' sound sees _ free => ?_
  exact answered_ready _ world' sound (Touches.refl _ _ _) sees rfl rfl knows_nil sees.fits free

theorem answered_pause {next : Unit → Process α}
    (sees : Sees settings provider world task (.ask holding .pause next) known readable v) :
    Answered settings provider world task known readable v holding .pause next
      (World.answer provider task .pause world) := by
  refine answered_afterOthers sound sees trivial none
    (fun world => ((), world)) fun world' sound sees _ free => ?_
  exact answered_ready _ world' sound (Touches.refl _ _ _) sees trivial rfl knows_nil sees.fits free

include honest

theorem answered_lookup {handle : Nat} {name : String} {next : Except Cause Value → Process α}
    (sees : Sees settings provider world task (.ask holding (.lookup handle name) next) known
      readable v) :
    Answered settings provider world task known readable v holding (.lookup handle name) next
      (World.answer provider task (.lookup handle name) world) := by
  refine answered_afterOthers sound sees trivial (some (.lookedUp handle name))
    (fun world => (provider.lookup handle name, world)) fun world' sound sees _ free => ?_
  have reached : Handle.dynamic handle ∈ known :=
    sees.orderly.1 _ (List.mem_append_right _ List.mem_cons_self)
  refine answered_ready _ world' sound (Touches.refl _ _ _) sees trivial rfl ?_ sees.fits free
  cases told : provider.lookup handle name with
  | error cause => exact knows_nil
  | ok value =>
    refine sees.fits.keeps reached fun other listed => ?_
    have inside : other ∈ value.handles := by simpa [Request.told] using listed
    exact honest.lookup handle name value told other inside

theorem answered_call {handle : Nat} {args : List Value} {next : Except Cause Value → Process α}
    (sees : Sees settings provider world task (.ask holding (.call handle args) next) known
      readable v) :
    Answered settings provider world task known readable v holding (.call handle args) next
      (World.answer provider task (.call handle args) world) := by
  have reached : ∀ other ∈ Request.handles (.call handle args), other ∈ known :=
    fun other listed => sees.orderly.1 _ (List.mem_append_right _ listed)
  refine answered_ready _ (world.note _) ?_ ?_ sees trivial rfl ?_ ?_ (sees.free fun waits => waits)
  · exact sound.of_less (fun place _ here => by cases place <;> exact here) rfl sound.waiting
      sound.coherent
  · exact touches_waiting known (fun _ _ => Iff.rfl) _ world.cache
  · cases told : provider.call handle args with
    | error cause => exact knows_nil
    | ok value =>
      refine knows_iff.1 fun other listed => ?_
      have inside : other ∈ value.handles := by
        simpa [Request.told] using listed
      rcases honest.call handle args value told other inside with given | ⟨keeper, member, same, kept⟩
      · exact reached other (List.mem_cons_of_mem _ given)
      · exact knows_iff.2
          (sees.fits.keepers keeper member (same ▸ reached _ List.mem_cons_self)) other kept
  · exact fits_waiting sees.fits world.waiting _ world.cache

theorem answered_iterate {source handle : Nat} {next : Unit → Process α}
    (sees : Sees settings provider world task (.ask holding (.iterate source handle) next) known
      readable v) :
    Answered settings provider world task known readable v holding (.iterate source handle) next
      (World.answer provider task (.iterate source handle) world) := by
  have reached : Handle.iterable handle ∈ known :=
    sees.orderly.1 _ (List.mem_append_right _ List.mem_cons_self)
  have noted : (world.note (.iterated handle)).Sound settings provider :=
    sound.of_less (fun place _ here => by cases place <;> exact here) rfl sound.waiting
      sound.coherent
  have fits : Fits provider (world.note (.iterated handle)) task known readable v :=
    fits_waiting sees.fits world.waiting _ world.cache
  refine answered_ready _ _ (noted.setSource _ fun _ _ same => nomatch same)
    (Touches.trans ?_ (Touches.setSource _ _ _ _ _)) sees trivial rfl knows_nil
    (fits.setSource (.script _ _) fun other listed => ?_) (sees.free fun waits => waits)
  · exact touches_waiting known (fun _ _ => Iff.rfl) _ world.cache
  · obtain ⟨keeper, member, same, kept⟩ := honest.iterable handle other listed
    exact knows_iff.2 (sees.fits.keepers keeper member (same ▸ reached)) other kept

omit honest

theorem answered_take {source handle : Nat} {next : Bool → Process α}
    (sees : Sees settings provider world task (.ask holding (.take source handle) next) known
      readable v) :
    Answered settings provider world task known readable v holding (.take source handle) next
      (World.answer provider task (.take source handle) world) := by
  have reached : Handle.stream handle ∈ known :=
    sees.orderly.1 _ (List.mem_append_right _ List.mem_cons_self)
  have here := sees.fits.places (.stream handle) reached
  have free := sees.free fun waits => waits
  simp only [World.answer, World.takeStream]
  rw [World.supply?] at here
  cases found : world.stream? handle with
  | none =>
    rw [found] at here
    have told : v.streams handle = none := here.of_none
    have fits : Fits provider world task known readable (v.askedFor handle) := by
      refine sees.fits.update (.stream handle) (fun place differs mine => ?_) fun _ => ?_
      · exact ⟨mine, rfl, script?_askedFor differs, fun _ _ _ gives => gives⟩
      · simp [World.supply?, found, View.script?, View.askedFor, Agrees]
    exact answered_ready _ world sound (Touches.refl _ _ _) sees trivial
      (by rw [View.answer, told]) knows_nil fits free
  | some supply =>
    rw [found] at here
    obtain ⟨script, told, supplies, reach⟩ := here.of_some
    have told : v.streams handle = some script := told
    let taken : World := { world with streams := world.streams.set handle none }
    have taken_supply : ∀ place, taken.supply? place =
        if place = .stream handle then none else world.supply? place :=
      world.supply?_without_stream handle
    have taken_sound : taken.Sound settings provider := by
      refine sound.of_less (fun place supply here => ?_) rfl sound.waiting sound.coherent
      rw [taken_supply] at here
      split at here
      · cases here
      · exact here
    have taken_fits : Fits provider taken task known readable (v.askedFor handle) := by
      refine sees.fits.update (.stream handle) (fun place differs mine => ?_) fun _ => ?_
      · refine ⟨mine, ?_, script?_askedFor differs, fun _ _ _ gives => gives.of_channels rfl rfl⟩
        rw [taken_supply, if_neg differs]
      · rw [taken_supply, if_pos rfl]
        simp [View.script?, View.askedFor, Agrees]
    have taken_touches : Touches task known world taken := by
      refine ⟨fun place theirs => ?_, fun _ _ _ _ => rfl, rfl, rfl, fun _ _ => Iff.rfl⟩
      rw [taken_supply, if_neg]
      rintro rfl
      exact theirs reached
    refine answered_ready _ _ (taken_sound.setSource _ fun place number same there => ?_)
      (taken_touches.trans (Touches.setSource _ _ _ _ _)) sees trivial
      (by rw [View.answer, told]) knows_nil
      (taken_fits.setSource (supplies.of_channels rfl rfl) reach) free
    -- The channel was behind the stream that is taken, and so it is behind nothing else.
    rw [taken_supply] at there
    split at there
    · cases there
    · rename_i differs
      exact differs (sound.exclusive place (.stream handle) number there (same ▸ found))

theorem answered_release {source : Nat} {next : Unit → Process α}
    (sees : Sees settings provider world task (.ask holding (.release source) next) known
      readable v) :
    Answered settings provider world task known readable v holding (.release source) next
      (World.answer provider task (.release source) world) := by
  have free := sees.free fun waits => waits
  simp only [World.answer, World.releaseSource]
  cases found : world.source? (task, source) with
  | none =>
    refine answered_ready _ world sound (Touches.refl _ _ _) sees trivial rfl knows_nil ?_ free
    exact sees.fits.leave (fun place _ => ⟨rfl, fun _ _ _ gives => gives⟩)
      fun place mine differs => script?_spent mine differs
  | some supply =>
    let left : World :=
      { world with sources := world.sources.filter fun entry => entry.1 ≠ (task, source) }
    have left_supply : ∀ place, (left.dropSupply supply).supply? place =
        if place = .source (task, source) then none else world.supply? place := by
      intro place
      rw [World.supply?_dropSupply]
      exact world.supply?_without_source (task, source) place
    -- The channel of the source is behind no other place.
    have apart : ∀ place number, place ≠ .source (task, source) →
        world.supply? place = some (.channel number) → supply ≠ .channel number := by
      intro place number differs there same
      exact differs (sound.exclusive place (.source (task, source)) number there (same ▸ found))
    have channel : ∀ place number, place ≠ .source (task, source) →
        world.supply? place = some (.channel number) →
        (left.dropSupply supply).channel number = world.channel number := by
      intro place number differs there
      exact World.channel_dropSupply left supply (apart place number differs there)
    refine answered_ready _ _ ?_ ?_ sees trivial rfl knows_nil ?_ ?_
    · refine sound.of_less (fun place other here => ?_) (World.producers_dropSupply left supply)
        ?_ ?_
      · rw [left_supply] at here
        split at here
        · exact nomatch here
        · exact here
      · rw [World.waiting_dropSupply]
        exact sound.waiting
      · rw [World.cache_dropSupply]
        exact sound.coherent
    · refine ⟨fun place theirs => ?_, fun place number theirs there => ?_,
        World.length_dropSupply left supply, World.producers_dropSupply left supply, fun _ _ => ?_⟩
      · rw [left_supply, if_neg]
        rintro rfl
        exact theirs rfl
      · refine channel place number ?_ there
        rintro rfl
        exact theirs rfl
      · rw [World.waiting_dropSupply]
    · refine sees.fits.leave (fun place differs => ⟨?_, fun other script here gives => ?_⟩)
        fun place mine differs => script?_spent mine differs
      · rw [left_supply, if_neg differs]
      · refine gives.of_same (fun number same => channel place number differs (same ▸ here))
          (World.length_dropSupply left supply) (World.producers_dropSupply left supply)
    · rw [World.waiting_dropSupply]
      exact free

/-! ## The next item of a source -/

/-- A supply that is no channel gives what its script says. -/
theorem answered_advance {source : Nat} {next : Except Cause (Option Item) → Process α}
    (sees : Sees settings provider world task (.ask holding (.pull source) next) known readable v)
    {supply : Supply} (found : world.source? (task, source) = some supply)
    (plain : ∀ number, supply ≠ .channel number) (free : task ∉ world.waiting) :
    Answered settings provider world task known readable v holding (.pull source) next
      (.ready (World.advance supply).1, world.setSource (task, source) (World.advance supply).2) := by
  have mine : Mine task known readable (.source (task, source)) := ⟨rfl, sees.orderly.2.1⟩
  have here := sees.fits.places _ mine
  rw [World.supply?, found] at here
  obtain ⟨script, told, supplies, reach⟩ := here.of_some
  have told : v.sources source = some script := told
  have touches := fun supply => Touches.setSource task known world source supply
  have kept : insert source readable = readable := Set.insert_eq_of_mem sees.orderly.2.1
  have leaves : ∀ (supply : Supply) (v' : View), (∀ place, Mine task known readable place →
      place ≠ .source (task, source) → v'.script? place = v.script? place) →
      Fits provider (world.setSource (task, source) supply) task known (readable \ {source}) v' := by
    intro supply v' same
    refine sees.fits.leave (fun place differs => ⟨?_, fun _ _ _ gives => gives.of_channels rfl rfl⟩)
      same
    rw [World.supply?_setSource, if_neg differs]
  -- An item, and what is left behind it.
  have item : ∀ (entry : Item) (rest : Script) (behind : Supply), script = .ok entry :: rest →
      (∀ number, behind ≠ .channel number) → Supplies world behind rest →
      Answered settings provider world task known readable v holding (.pull source) next
        (.ready (.ok (some entry)), world.setSource (task, source) behind) := by
    rintro entry rest behind rfl plain supplies
    rw [Script.handles_cons, List.forall_mem_append] at reach
    have fits : Fits provider (world.setSource (task, source) behind) task known
        (insert source readable) (v.opened source rest) := sees.fits.setSource supplies reach.2
    rw [kept] at fits
    refine answered_ready _ _ (sound.setSource _ fun _ number same => absurd same (plain number))
      (touches behind) sees trivial (by rw [View.answer, told]) ?_ fits free
    exact knows_iff.1 reach.1
  cases supplies with
  | script origin =>
    cases script with
    | nil =>
      exact answered_ready _ _ (sound.setSource _ fun _ _ same => by cases same) (touches _) sees
        trivial (by rw [View.answer, told]; rfl) knows_nil (leaves _ v fun _ _ _ => rfl) free
    | cons entry rest =>
      cases entry with
      | ok entry => exact item entry rest _ rfl (fun _ same => by cases same) (.script _ _)
      | error cause =>
        exact answered_ready _ _ (sound.setSource _ fun _ _ same => by cases same) (touches _) sees
          trivial (by rw [View.answer, told]; rfl) knows_nil
          (leaves _ _ fun place mine differs => script?_opened mine differs rest) free
  | @values all rest part =>
    cases rest with
    | nil =>
      exact answered_ready _ _ (sound.setSource _ fun _ _ same => by cases same) (touches _) sees
        trivial (by rw [View.answer, told]; rfl) knows_nil (leaves _ v fun _ _ _ => rfl) free
    | cons value rest =>
      exact item { value } _ _ rfl (fun _ same => by cases same)
        (.values fun other listed => part other (List.mem_cons_of_mem _ listed))
  | channel => exact absurd rfl (plain _)

omit sound

theorem sound_setChannel (sound : world.Sound settings provider) (number : Nat) (channel : Channel) {waiting : List Nat} (nodup : waiting.Nodup) :
    ({ world.setChannel number channel with waiting } : World).Sound settings provider :=
  sound.of_less (fun place _ there => by cases place <;> exact there) rfl nodup sound.coherent

section Channel

variable {source number : Nat} {channel : Channel} (sound : world.Sound settings provider)
  (found : world.source? (task, source) = some (.channel number))

include sound found

/-- The channel of a source is behind no other place. -/
theorem channel_elsewhere (channel : Channel) {place : Place} {supply : Supply}
    (differs : place ≠ .source (task, source)) (there : world.supply? place = some supply)
    (other : Nat) (same : supply = .channel other) :
    (world.setChannel number channel).channel other = world.channel other := by
  refine World.channel_setChannel_of_ne world channel ?_
  rintro rfl
  exact differs (sound.exclusive place (.source (task, source)) other (same ▸ there) found)

theorem touches_setChannel (channel : Channel) (known : Set Handle) {waiting : List Nat}
    (others : ∀ other, other ≠ task → (other ∈ waiting ↔ other ∈ world.waiting)) :
    Touches task known world { world.setChannel number channel with waiting } := by
  refine ⟨fun place _ => by cases place <;> rfl, fun place other theirs there => ?_,
    List.length_set, rfl, others⟩
  refine channel_elsewhere sound found channel ?_ there other rfl
  rintro rfl
  exact theirs rfl

/-- A view fits when it tells what the channel behind its source promises. -/
theorem fits_setChannel {producer : Producer} {rest : Script}
    (fits : Fits provider world task known readable v) (inside : number < world.channels.length)
    (produced : world.producers[number]? = some (number, producer))
    (promises : Promises channel producer rest) (reach : ∀ handle ∈ rest.handles, handle ∈ known)
    (told : v'.sources source = some rest)
    (others : ∀ place, Mine task known readable place → place ≠ .source (task, source) →
      v'.script? place = v.script? place) (waiting : List Nat) :
    Fits provider { world.setChannel number channel with waiting } task known readable v' := by
  refine fits.update (.source (task, source)) (fun place differs mine => ?_) fun _ => ?_
  · refine ⟨mine, by cases place <;> rfl, others place mine differs,
      fun supply script there gives => ?_⟩
    exact gives.of_same (channel_elsewhere sound found channel differs there) List.length_set rfl
  · have there : World.supply? { world.setChannel number channel with waiting }
        (.source (task, source)) = some (.channel number) := found
    have same : World.channel { world.setChannel number channel with waiting } number = channel :=
      World.channel_setChannel_self world channel inside
    rw [there, View.script?, told]
    refine ⟨.channel ?_ produced ?_, reach⟩
    · show number < (world.channels.set number channel).length
      rwa [List.length_set]
    · rw [same]
      exact promises

theorem fits_leaveChannel (channel : Channel) (fits : Fits provider world task known readable v)
    (others : ∀ place, Mine task known readable place → place ≠ .source (task, source) →
      v'.script? place = v.script? place) (waiting : List Nat) :
    Fits provider { world.setChannel number channel with waiting } task known
      (readable \ {source}) v' := by
  refine fits.leave (fun place differs => ⟨by cases place <;> rfl, fun supply script there gives => ?_⟩)
    others
  exact gives.of_same (channel_elsewhere sound found channel differs there) List.length_set rfl

/-- The consumer of a channel gets what the channel promises. -/
theorem answered_pullChannel {next : Except Cause (Option Item) → Process α}
    (sees : Sees settings provider world task (.ask holding (.pull source) next) known readable v) :
    Answered settings provider world task known readable v holding (.pull source) next
      (world.pullChannel task number) := by
  have here := sees.fits.places (.source (task, source)) ⟨rfl, sees.orderly.2.1⟩
  rw [World.supply?, found] at here
  obtain ⟨script, told, supplies, reach⟩ := here.of_some
  have told : v.sources source = some script := told
  cases supplies with
  | @channel _ producer _ inside produced promises =>
  let taken := if world.waiting.contains task then (world.channel number).receive
    else (world.channel number).pull
  -- A consumer that waits has accepted what it used.
  have delivers : Promises.Delivers producer script taken.1 taken.2 := by
    by_cases waiting : world.waiting.contains task = true
    · rw [show taken = (world.channel number).receive from if_pos waiting]
      obtain ⟨_, _, _, same, waits⟩ := sees.waits (by simpa using waiting)
      cases same
      obtain ⟨supply, there, waits⟩ := waits
      exact promises.receive (waits number (Option.some.inj (there.symm.trans found)))
    · rw [show taken = (world.channel number).pull from if_neg waiting]
      exact promises.pull
  have free : task ∉ world.waiting.erase task := sound.waiting.not_mem_erase
  have nodup := sound.waiting.erase task
  have erased : ∀ other, other ≠ task →
      (other ∈ world.waiting.erase task ↔ other ∈ world.waiting) :=
    fun other apart => List.mem_erase_of_ne apart
  have waits {channel : Channel} (same : taken = (.waiting, channel)) :
      world.pullChannel task number = (.pending,
        { world.setChannel number channel with waiting := task :: world.waiting.erase task }) := by
    unfold World.pullChannel
    dsimp only
    rw [show (if world.waiting.contains task then (world.channel number).receive
      else (world.channel number).pull) = _ from same]
    rfl
  have answers {delivery : Delivery} {channel : Channel} (same : taken = (delivery, channel))
      (ready : delivery ≠ .waiting) :
      world.pullChannel task number = (World.ofDelivery delivery,
        { world.setChannel number channel with waiting := world.waiting.erase task }) := by
    unfold World.pullChannel
    dsimp only
    rw [show (if world.waiting.contains task then (world.channel number).receive
      else (world.channel number).pull) = _ from same]
    cases delivery with
    | waiting => exact absurd rfl ready
    | item | ended | failed => rfl
  obtain ⟨⟨delivery, channel⟩, same⟩ : ∃ out, taken = out := ⟨_, rfl⟩
  rw [same] at delivers
  dsimp only at delivers
  cases delivers with
  | waiting promises held eager =>
    rw [waits same]
    have there : World.channel { world.setChannel number channel with
        waiting := task :: world.waiting.erase task } number = channel :=
      World.channel_setChannel_self world channel inside
    refine ⟨sound_setChannel sound number channel (List.nodup_cons.2 ⟨free, nodup⟩),
      touches_setChannel sound found channel known fun other apart => ?_, fun _ => ?_,
      fun _ same => by cases same⟩
    · rw [List.mem_cons, or_iff_right apart, erased other apart]
    · refine ⟨⟨sees.orderly, fits_setChannel sound found sees.fits inside produced promises reach told
        (fun _ _ _ => rfl) _, fun _ => ⟨holding, .pull source, next, rfl, _, found, ?_⟩⟩,
        List.mem_cons_self, .inr ⟨number, producer, found, produced, ?_⟩⟩
      · intro other same
        cases same
        exact (congrArg Channel.held there).trans held
      · exact there.symm ▸ eager
  | @item _ entry rest promises =>
    rw [answers same (by simp)]
    rw [Script.handles_cons, List.forall_mem_append] at reach
    exact answered_ready _ _ (sound_setChannel sound number channel nodup)
      (touches_setChannel sound found channel known erased) sees trivial
      (by rw [View.answer, told]) (knows_iff.1 reach.1)
      (fits_setChannel sound found sees.fits inside produced promises reach.2
        (by simp [View.opened]) (fun place mine differs => script?_opened mine differs rest) _) free
  | ended =>
    rw [answers same (by simp)]
    exact answered_ready _ _ (sound_setChannel sound number channel nodup)
      (touches_setChannel sound found channel known erased) sees trivial
      (by rw [View.answer, told]) knows_nil
      (fits_leaveChannel sound found channel sees.fits (fun _ _ _ => rfl) _) free
  | failed =>
    rw [answers same (by simp)]
    exact answered_ready _ _ (sound_setChannel sound number channel nodup)
      (touches_setChannel sound found channel known erased) sees trivial
      (by rw [View.answer, told]; rfl) knows_nil
      (fits_leaveChannel sound found channel sees.fits
        (fun place mine differs => script?_opened mine differs []) _) free

end Channel

theorem answered_pull (sound : world.Sound settings provider) {source : Nat}
    {next : Except Cause (Option Item) → Process α}
    (sees : Sees settings provider world task (.ask holding (.pull source) next) known readable v) :
    Answered settings provider world task known readable v holding (.pull source) next
      (World.answer provider task (.pull source) world) := by
  show Answered settings provider world task known readable v holding (.pull source) next
    (world.pull task source)
  unfold World.pull
  have advance : ∀ supply : Supply, world.source? (task, source) = some supply →
      (∀ number, supply ≠ .channel number) →
      Answered settings provider world task known readable v holding (.pull source) next
        (world.afterOthers task (World.pullEvent? supply) fun world =>
          ((World.advance supply).1, world.setSource (task, source) (World.advance supply).2)) := by
    intro supply found plain
    refine answered_afterOthers sound sees ?_ _ _ fun world' sound sees same free => ?_
    · exact ⟨supply, found, fun number same => absurd same (plain number)⟩
    · exact answered_advance sound sees ((same _).trans found) plain free
  cases found : world.source? (task, source) with
  | none =>
    have here := sees.fits.places (.source (task, source)) ⟨rfl, sees.orderly.2.1⟩
    rw [World.supply?, found] at here
    have told : v.sources source = none := here.of_none
    refine answered_ready _ world sound (Touches.refl _ _ _) sees trivial
      (by rw [View.answer, told]) knows_nil ?_ (sees.free fun waits => ?_)
    · exact sees.fits.leave (fun place _ => ⟨rfl, fun _ _ _ gives => gives⟩) fun _ _ _ => rfl
    · obtain ⟨supply, there, -⟩ := waits
      cases found.symm.trans there
  | some supply =>
    cases supply with
    | channel number => exact answered_pullChannel sound found sees
    | script origin rest => exact advance _ found fun _ same => by cases same
    | values all rest => exact advance _ found fun _ same => by cases same

/-! ## All requests -/

/-- A world answers an orderly process as its view tells. -/
theorem answered (honest : provider.Honest) (sound : world.Sound settings provider)
    (sees : Sees settings provider world task (.ask holding request next) known readable v) :
    Answered settings provider world task known readable v holding request next
      (World.answer provider task request world) := by
  cases request with
  | cached name => exact answered_cached sound sees
  | store name template => exact answered_store sound sees
  | load name => exact answered_load sound sees
  | lookup handle name => exact answered_lookup honest sound sees
  | call handle args => exact answered_call honest sound sees
  | iterate source handle => exact answered_iterate honest sound sees
  | take source handle => exact answered_take sound sees
  | pull source => exact answered_pull sound sees
  | release source => exact answered_release sound sees
  | pause => exact answered_pause sound sees

/-- Whether a process holds what it asks for. -/
def Process.Rests : Process α → Prop
  | done _ => True
  | ask holding request _ => ∀ handle ∈ request.handles, handle ∈ holding.handles

/-- A process that has to wait holds what it asks for. -/
theorem rests_of_pending {world' : World}
    (orderly : (Process.ask holding request next).Orderly settings provider (fun _ _ _ => True) known
      readable)
    (pending : World.answer provider task request world = (.pending, world')) :
    (Process.ask holding request next).Rests := by
  have allowed := orderly.2.1
  cases request with
  | lookup handle name =>
    intro other listed
    cases List.mem_singleton.1 listed
    exact allowed
  | load name | pull source | pause => exact fun _ listed => nomatch listed
  | cached name | store name template | call handle args | iterate source handle
  | take source handle | release source => exact nomatch congrArg Prod.fst pending

/-- How much a process still has to ask and to wait. -/
def weight (provider : Provider) (world : World) (task : Nat) (p : Process α) (v : View) : Nat :=
  2 * p.questions provider v + if task ∈ world.waiting then 0 else 1

/-- Whether a process has ended, or waits for a producer that has something to do. -/
def Blocked (world : World) (task : Nat) : Process α → Prop
  | .done _ => True
  | .ask _ request _ => Stuck world task request

/-- A view counts how often a stream is asked for. -/
theorem View.asked_answer (provider : Provider) (v : View) (request : Request) (stream : Nat) :
    (v.answer provider request).2.asked stream =
      v.asked stream + if request.asksFor stream then 1 else 0 := by
  cases request with
  | take source handle =>
    have counted : (v.askedFor handle).asked stream =
        v.asked stream + if (Request.take source handle).asksFor stream then 1 else 0 := by
      by_cases same : handle = stream
      · subst same
        simp [View.askedFor, Request.asksFor]
      · simp [View.askedFor, Request.asksFor, same, Ne.symm same]
    unfold View.answer
    dsimp only
    split <;> exact counted
  | pull source =>
    unfold View.answer
    dsimp only
    split <;> rfl
  | _ => rfl

/-- How a process goes on when it is polled: as its view tells, and if it can go on, it does. -/
structure Polled (settings : Settings) (provider : Provider) (world : World) (task : Nat)
    (known : Set Handle) (v : View) (p : Process α) (out : Process α × World) (readable' : Set Nat)
    (v' : View) : Prop where
  sound : out.2.Sound settings provider
  touches : Touches task known world out.2
  rests : out.1.Rests
  sees : Sees settings provider out.2 task out.1 known readable' v'
  outcome : out.1.outcome provider v' = p.outcome provider v
  asked : ∀ stream, v'.asked stream =
    v.asked stream + askings stream (p.exchanges (World.host provider) task world)
  weight : weight provider out.2 task out.1 v' < weight provider world task p v ∨
    weight provider out.2 task out.1 v' = weight provider world task p v ∧
      Blocked out.2 task out.1

theorem polled (honest : provider.Honest) (p : Process α) {world : World} {readable : Set Nat}
    {v : View} (sound : world.Sound settings provider)
    (sees : Sees settings provider world task p known readable v) :
    ∃ readable' v', Polled settings provider world task known v p
      (p.poll (World.host provider) task world) readable' v' := by
  induction p generalizing world readable v with
  | done result =>
    exact ⟨readable, v, sound, Touches.refl _ _ _, trivial, sees, rfl, fun _ => rfl, .inr ⟨rfl, trivial⟩⟩
  | ask holding request next ih =>
    have out := answered honest sound sees
    rw [Process.poll]
    have host : (World.host provider).answer task request world =
      World.answer provider task request world := rfl
    rw [host]
    cases told : World.answer provider task request world with
    | mk reply behind =>
      rw [told] at out
      cases reply with
      | pending =>
        obtain ⟨sees', waiting, progress⟩ := out.pending rfl
        have waiting : task ∈ behind.waiting := waiting
        have silent : (Process.ask holding request next).exchanges (World.host provider) task world = [] := by
          rw [Process.exchanges, host, told]
        refine ⟨readable, v, out.sound, out.touches, rests_of_pending sees.orderly told, sees', rfl,
          fun _ => by rw [silent]; rfl, ?_⟩
        by_cases before : task ∈ world.waiting
        · refine .inr ⟨?_, progress.resolve_left fun free => free before⟩
          simp [weight, before, waiting]
        · left
          simp [weight, before, waiting]
      | ready answer =>
        obtain ⟨readable', v', sees', same, fewer, asked⟩ := out.ready answer rfl
        obtain ⟨readable'', v'', after⟩ := ih answer out.sound sees'
        refine ⟨readable'', v'', after.sound, out.touches.trans after.touches, after.rests, after.sees,
          after.outcome.trans same, fun stream => ?_, .inl ?_⟩
        · rw [Process.exchanges, host, told, askings_cons, after.asked stream, asked, View.asked_answer]
          dsimp only
          omega
        have bound : weight provider behind task (next answer) v' <
            weight provider world task (.ask holding request next) v := by
          unfold weight
          split <;> split <;> omega
        rcases after.weight with less | ⟨equal, -⟩
        · exact less.trans bound
        · exact equal.trans_lt bound

end

end Stencil.Render
