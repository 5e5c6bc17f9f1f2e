import Mathlib.Logic.Relation
import Mathlib.Tactic.SplitIfs
import Stencil.Proofs.Syntax.References
import Stencil.Proofs.Rendering.Running
import Stencil.Render.Schedule
/-!
# Preloading

Preloading a name brings its template into the cache, and every template that can be reached from
it along fixed references. The walk keeps a list of names it has seen and a stack of names to
come; `Walked` says what the two hold at every step, and when the stack is empty the names seen
are those that can be reached, no more and no less. The listing of a cache is the same walk over
the cache alone.

The theory is stated for a loader that is a function: asked twice, it gives the same source.
-/

set_option autoImplicit false

namespace Stencil.Render

open Stencil.Syntax

/-! ## Running alone -/

namespace Process

variable {α β : Type} {load : String → Except Cause String}

/-- The result of a process that runs alone under a loader, and the cache behind it. -/
def alone (load : String → Except Cause String) (process : Process α) (cache : Cache) :
    α × Cache :=
  process.runAlone (m := Id) load cache

@[simp] theorem alone_done (result : α) (cache : Cache) :
    (done result).alone load cache = (result, cache) := rfl

/-- One process behind another. -/
theorem alone_bind (process : Process α) (next : α → Process β) (cache : Cache) :
    (process.bind next).alone load cache
      = (next (process.alone load cache).1).alone load (process.alone load cache).2 := by
  induction process generalizing cache with
  | done result => rfl
  | ask holding request after ih => exact ih _ _

end Process

/-! ## Templates by name -/

/-- The template of a name: the one in the cache, or else the one that is parsed from what the
loader gives. -/
def templateOf (settings : Settings) (load : String → Except Cause String) (cache : Cache)
    (name : String) : Option Template :=
  match cache.get? name with
  | some t => some t
  | none =>
    match load name with
    | .ok source => (parseTemplate ⟨settings.positions, false⟩ source).toOption
    | .error _ => none

/-- The template of the first name refers to the second. -/
def Refers (templates : String → Option Template) (name other : String) : Prop :=
  ∃ t, templates name = some t ∧ t.RefersTo other

/-- The second name can be reached from the first along references. -/
def LeadsTo (templates : String → Option Template) : String → String → Prop :=
  Relation.ReflTransGen (Refers templates)

/-- The cache holds templates of their names, and all that the first cache held. -/
structure Cache.Extends (templates : String → Option Template) (before cache : Cache) : Prop where
  sound : ∀ name t, cache.get? name = some t → templates name = some t
  keeps : ∀ name t, before.get? name = some t → cache.get? name = some t

/-! ## The walk -/

/-- What a walk over references has done: it has seen names, and others are to come. -/
structure Walked (templates : String → Option Template) (name : String) (seen stack : List String) :
    Prop where
  /-- No name is seen twice. -/
  once : seen.Nodup
  /-- Only names that can be reached are seen or to come. -/
  reached : ∀ other ∈ seen ++ stack, LeadsTo templates name other
  /-- What a name that was seen refers to is seen or to come. -/
  closed : ∀ other ∈ seen, ∀ next, Refers templates other next → next ∈ seen ++ stack
  /-- So is the name the walk began with. -/
  began : name ∈ seen ++ stack

namespace Walked

variable {templates : String → Option Template} {name next : String} {seen stack : List String}

/-- A walk begins with a name to come. -/
theorem start (templates : String → Option Template) (name : String) :
    Walked templates name [] [name] where
  once := .nil
  reached := by
    intro other mem
    obtain rfl : other = name := by simpa using mem
    exact .refl
  closed := by simp
  began := by simp

/-- A name that was seen is passed over. -/
theorem skip (walked : Walked templates name seen (next :: stack)) (known : next ∈ seen) :
    Walked templates name seen stack where
  once := walked.once
  reached := by
    intro other mem
    refine walked.reached other ?_
    rcases List.mem_append.1 mem with mem | mem
    · simp [mem]
    · simp [mem]
  closed := by
    intro other mem target refers
    have := walked.closed other mem target refers
    rw [List.mem_append, List.mem_cons] at this
    rw [List.mem_append]
    rcases this with mem | rfl | mem
    · exact .inl mem
    · exact .inl known
    · exact .inr mem
  began := by
    have := walked.began
    rw [List.mem_append, List.mem_cons] at this
    rw [List.mem_append]
    rcases this with mem | rfl | mem
    · exact .inl mem
    · exact .inl known
    · exact .inr mem

/-- A name that was not seen is seen, and what its template refers to comes next. -/
theorem visit (walked : Walked templates name seen (next :: stack)) (fresh : next ∉ seen)
    {t : Template} (found : templates next = some t) :
    Walked templates name (next :: seen) (t.dependencies ++ stack) where
  once := List.nodup_cons.2 ⟨fresh, walked.once⟩
  reached := by
    have here : LeadsTo templates name next := walked.reached next (by simp)
    intro other mem
    rw [List.mem_append, List.mem_cons, List.mem_append] at mem
    rcases mem with (rfl | mem) | mem | mem
    · exact here
    · exact walked.reached other (by simp [mem])
    · exact here.tail ⟨t, found, (mem_dependencies t other).1 mem⟩
    · exact walked.reached other (by simp [mem])
  closed := by
    intro other mem target refers
    rcases List.mem_cons.1 mem with rfl | mem
    · obtain ⟨t', found', refersTo⟩ := refers
      rw [found] at found'
      cases found'
      simp [(mem_dependencies t target).2 refersTo]
    · have := walked.closed other mem target refers
      rw [List.mem_append, List.mem_cons] at this
      rcases this with mem | rfl | mem
      · simp [mem]
      · simp
      · simp [mem]
  began := by
    have := walked.began
    rw [List.mem_append, List.mem_cons] at this
    rcases this with mem | rfl | mem
    · simp [mem]
    · simp
    · simp [mem]

/-- When no name is to come, exactly the names that can be reached were seen. -/
theorem complete (walked : Walked templates name seen []) (other : String) :
    other ∈ seen ↔ LeadsTo templates name other := by
  constructor
  · intro mem
    exact walked.reached other (by simp [mem])
  · intro reaches
    induction reaches with
    | refl => simpa using walked.began
    | tail _ refers ih => simpa using walked.closed _ ih _ refers

end Walked

/-! ## Preloading -/

namespace RenderM

variable {settings : Settings} {load : String → Except Cause String} {before cache behind : Cache}
  {name : String} {state after : State}

/-- A part of a rendering that runs alone behind another. -/
theorem alone_bind {α β : Type} {m : RenderM α} {next : α → RenderM β} {result : α}
    (first : (m.start state).alone load cache = ((.ok result, after), behind)) :
    ((m >>= next).start state).alone load cache
      = ((next result).start after).alone load behind := by
  rw [start_bind, Process.alone_bind, first]
  rfl

/-- A part that fails ends what was to come behind it. -/
theorem alone_bind_error {α β : Type} {m : RenderM α} {next : α → RenderM β} {failure : Failure}
    (first : (m.start state).alone load cache = ((.error failure, after), behind)) :
    ((m >>= next).start state).alone load cache = ((.error failure, after), behind) := by
  rw [start_bind, Process.alone_bind, first]
  rfl

theorem alone_modifyScope {α : Type} (f : Scope → Scope) (next : Unit → RenderM α) :
    ((modifyScope f >>= next).start state).alone load cache
      = ((next ()).start { state with scope := f state.scope }).alone load cache := rfl

/-- A question is answered, and the part behind it goes on with the answer. -/
theorem alone_ask {α : Type} {request : Request} {next : request.Answer → RenderM α}
    {result : (Except Failure α × State) × Cache}
    (run : ((ask request >>= next).start state).alone load cache = result) :
    ∃ answer cache', Process.answerAlone (m := Id) load request cache = (answer, cache') ∧
      ((next answer).start state).alone load cache' = result :=
  ⟨_, _, rfl, run⟩

/-- A template that is not in the cache is loaded and parsed. -/
theorem alone_storeLoaded {t : Template} {source : Except Cause String}
    (run : ((storeLoaded settings name source).start state).alone load cache
      = ((.ok t, after), behind)) :
    (∃ text, source = .ok text ∧ parseTemplate ⟨settings.positions, false⟩ text = .ok t) ∧
      behind = cache.insert name t := by
  unfold storeLoaded at run
  split at run
  · cases run
  · next text =>
    split at run
    · cases run
    · next parsed =>
      obtain ⟨answer, cache', stored, run⟩ := alone_ask run
      cases stored
      cases run
      exact ⟨⟨text, rfl, parsed⟩, rfl⟩

/-- Getting the template of a name gives that template and leaves it in the cache. -/
theorem alone_parsedTemplate {t : Template}
    (extends_ : Cache.Extends (templateOf settings load before) before cache)
    (run : ((parsedTemplate settings name).start state).alone load cache
      = ((.ok t, after), behind)) :
    templateOf settings load before name = some t ∧ behind.get? name = some t ∧
      Cache.Extends (templateOf settings load before) before behind ∧
      ∀ other t, cache.get? other = some t → behind.get? other = some t := by
  obtain ⟨answer, cache', found, run⟩ := alone_ask run
  obtain ⟨held, rfl⟩ := Prod.mk.inj (show (cache.get? name, cache) = (answer, cache') from found)
  cases answer with
  | some kept =>
    cases run
    exact ⟨extends_.sound name t held, held, extends_, fun _ _ known => known⟩
  | none =>
    obtain ⟨source, cache', given, run⟩ := alone_ask run
    cases given
    obtain ⟨⟨text, loaded, parsed⟩, rfl⟩ := alone_storeLoaded run
    have loaded : load name = .ok text := loaded
    have missing : before.get? name = none := by
      cases old : before.get? name with
      | none => rfl
      | some t =>
        have := extends_.keeps name t old
        rw [held] at this
        cases this
    have known : templateOf settings load before name = some t := by
      simp [templateOf, missing, loaded, parsed, Except.toOption]
    have stays (other : String) (t' : Template) (there : cache.get? other = some t') :
        (cache.insert name t).get? other = some t' := by
      rw [Cache.get?_insert]
      split
      · next same =>
        rw [same, held] at there
        cases there
      · exact there
    refine ⟨known, by simp [Cache.get?_insert], ⟨?_, ?_⟩, stays⟩
    · intro other t' there
      rw [Cache.get?_insert] at there
      split at there
      · next same =>
        cases there
        rw [same]
        exact known
      · exact extends_.sound other t' there
    · intro other t' old
      exact stays other t' (extends_.keeps other t' old)

/-- A run of the walk: it ends with the number of names seen, and every name seen is in the cache.
By induction on the bound; each round is one step of the walk. -/
theorem alone_preloadFrom {n count : Nat} {seen stack : List String}
    (walked : Walked (templateOf settings load before) name seen stack)
    (extends_ : Cache.Extends (templateOf settings load before) before cache)
    (held : ∀ other ∈ seen, ∃ t, cache.get? other = some t)
    (run : ((preloadFrom settings n seen stack).start state).alone load cache
      = ((.ok count, after), behind)) :
    ∃ names, Walked (templateOf settings load before) name names [] ∧ names.length = count ∧
      Cache.Extends (templateOf settings load before) before behind ∧
      ∀ other ∈ names, ∃ t, behind.get? other = some t := by
  induction n generalizing seen stack cache state with
  | zero => cases run
  | succ n ih =>
    cases stack with
    | nil =>
      cases run
      exact ⟨seen, walked, rfl, extends_, held⟩
    | cons next rest =>
      rw [preloadFrom] at run
      split_ifs at run with known
      · have known : next ∈ seen := by simpa using known
        exact ih (walked.skip known) extends_ held run
      · have fresh : next ∉ seen := by simpa using known
        rw [alone_modifyScope] at run
        cases first : ((parsedTemplate settings next).start
            { state with scope := { frame := Frame.ofTemplate next .undefined } }).alone load cache with
        | mk outcome cache' =>
          obtain ⟨result, state'⟩ := outcome
          cases result with
          | error failure =>
            rw [alone_bind_error first] at run
            cases run
          | ok t =>
            obtain ⟨found, there, extends', stays⟩ := alone_parsedTemplate extends_ first
            rw [alone_bind first] at run
            refine ih (walked.visit fresh found) extends' ?_ run
            intro other mem
            rcases List.mem_cons.1 mem with rfl | mem
            · exact ⟨t, there⟩
            · obtain ⟨t', known⟩ := held other mem
              exact ⟨t', stays other t' known⟩

end RenderM

/-! ## Listing -/

/-- The references that a listing has yet to put on its stack, if it has taken the given names. -/
def referencesLeft (entries : List (String × Template)) (taken : List String) : Nat :=
  entries.foldr (fun entry count =>
    (if entry.1 ∈ taken then 0 else entry.2.dependencies.length) + count) 0

/-- Once more names are taken, no more references are left. -/
theorem referencesLeft_mono (entries : List (String × Template)) (taken : List String)
    (name : String) : referencesLeft entries (taken ++ [name]) ≤ referencesLeft entries taken := by
  induction entries with
  | nil => exact Nat.le_refl _
  | cons entry rest ih =>
    simp only [referencesLeft, List.foldr_cons, List.mem_append, List.mem_singleton] at ih ⊢
    by_cases known : entry.1 ∈ taken
    · simpa [known] using ih
    · simp only [known, false_or, if_false]
      split <;> omega

/-- Taking a name puts the references of its template on the stack. -/
theorem referencesLeft_take {entries : List (String × Template)} {taken : List String}
    {name : String} {t : Template} (fresh : name ∉ taken) (found : Table.get? entries name = some t) :
    referencesLeft entries (taken ++ [name]) + t.dependencies.length
      ≤ referencesLeft entries taken := by
  induction entries with
  | nil => cases found
  | cons entry rest ih =>
    by_cases here : entry.1 = name
    · obtain rfl : entry.2 = t := by simpa [Table.get?, here] using found
      have rest_le := referencesLeft_mono rest taken name
      simp only [referencesLeft, List.foldr_cons, here, fresh, List.mem_append,
        List.mem_singleton, or_true, if_true, if_false] at rest_le ⊢
      omega
    · have rest_le := ih (by simpa [Table.get?, here] using found)
      simp only [referencesLeft, List.foldr_cons, here, List.mem_append, List.mem_singleton,
        or_false] at rest_le ⊢
      omega

namespace Cache

variable {cache : Cache} {name : String}

/-- A run of the listing is a walk over the cache, if the cache holds all that can be reached. By
induction on the bound, which stays above the names to come and the references that are left. -/
theorem listingFrom_walked {n : Nat} {listed : List (String × List String)} {stack : List String}
    (complete : ∀ other, LeadsTo cache.get? name other → ∃ t, cache.get? other = some t)
    (walked : Walked cache.get? name (Table.keys listed).reverse stack)
    (told : ∀ entry ∈ listed, (cache.get? entry.1).map (·.dependencies) = some entry.2)
    (bound : stack.length + referencesLeft cache.templates (Table.keys listed) < n) :
    Walked cache.get? name (Table.keys (cache.listingFrom n listed stack)).reverse [] ∧
      ∀ entry ∈ cache.listingFrom n listed stack,
        (cache.get? entry.1).map (·.dependencies) = some entry.2 := by
  induction n generalizing listed stack with
  | zero => omega
  | succ n ih =>
    cases stack with
    | nil => exact ⟨walked, told⟩
    | cons next rest =>
      rw [List.length_cons] at bound
      rw [listingFrom]
      split
      · next known =>
        have known : next ∈ (Table.keys listed).reverse := by
          obtain ⟨entry, mem, same⟩ : ∃ entry ∈ listed, entry.1 = next := by
            simpa [Table.get?] using known
          rw [List.mem_reverse]
          exact List.mem_map.2 ⟨entry, mem, same⟩
        exact ih (walked.skip known) told (by omega)
      · next known =>
        have fresh : next ∉ Table.keys listed := by
          intro mem
          obtain ⟨entry, mem, same⟩ := List.mem_map.1 mem
          exact known (by simpa [Table.get?] using ⟨entry.2, by rw [← same]; exact mem⟩)
        obtain ⟨t, found⟩ := complete next (walked.reached next (by simp))
        have keys : Table.keys (listed ++ [(next, t.dependencies)]) = Table.keys listed ++ [next] := by
          simp [Table.keys]
        have left := referencesLeft_take fresh found
        simp only [found]
        apply ih
        · rw [keys, List.reverse_append]
          exact walked.visit (by simpa using fresh) found
        · intro entry mem
          rcases List.mem_append.1 mem with mem | mem
          · exact told entry mem
          · rw [List.mem_singleton.1 mem, found]
            rfl
        · rw [keys, List.length_append]
          omega

/-- Listing a cache that holds all that can be reached from a name lists exactly these names,
each once and with what it refers to. -/
theorem listing_complete
    (complete : ∀ other, LeadsTo cache.get? name other → ∃ t, cache.get? other = some t) :
    (Table.keys (cache.listing name)).Nodup ∧
      (∀ other, other ∈ Table.keys (cache.listing name) ↔ LeadsTo cache.get? name other) ∧
      ∀ entry ∈ cache.listing name,
        (cache.get? entry.1).map (·.dependencies) = some entry.2 := by
  have all : referencesLeft cache.templates (Table.keys ([] : List (String × List String)))
      = cache.referenceCount := by
    simp [referencesLeft, referenceCount, Table.keys]
  have nothing : ∀ entry ∈ ([] : List (String × List String)),
      (cache.get? entry.1).map (·.dependencies) = some entry.2 := by simp
  have start : Walked cache.get? name
      (Table.keys ([] : List (String × List String))).reverse [name] := Walked.start _ _
  have bound : [name].length + referencesLeft cache.templates
      (Table.keys ([] : List (String × List String))) < cache.referenceCount + 2 := by
    rw [all, List.length_singleton]
    omega
  obtain ⟨walked, told⟩ := listingFrom_walked complete start nothing bound
  refine ⟨(List.pairwise_reverse.1 walked.once).imp Ne.symm, fun other => ?_, told⟩
  rw [← walked.complete other, List.mem_reverse]
  rfl

end Cache

end Stencil.Render
