import Stencil.Proofs.Rendering.SparedExprs
/-!
# Iterations of an array and of a stream

An iteration of the collection goes through the same rounds on both sides, though it reads the items of
an array here, and a source there (`alike_iterate`). All other iterations are of the same collection on
both sides, and read sources that give the same.
-/

set_option autoImplicit false

namespace Stencil.Render

open Stencil.Error (Kind)
open Stencil.Stream (Item)
open Stencil.Syntax
open Stencil.Text (Span)

namespace RenderM

variable {α β : Type} {swap : Swap} {provider : Provider} {settings : Settings} {rel : α → α → Prop}
  {hole : Set Nat} {state state' : State} {v v' : View}

/-! ## Views -/

theorem sources_opened_of_ne {source other : Nat} (apart : other ≠ source) (v : View) (script : Script) :
    (v.opened source script).sources other = v.sources other :=
  Function.update_of_ne apart _ _

theorem sources_spent_of_ne {source other : Nat} (apart : other ≠ source) (v : View) :
    (v.spent source).sources other = v.sources other :=
  Function.update_of_ne apart _ _

/-- A source that both sides read gives the same behind a change. -/
theorem Linked.opened (linked : Linked swap hole state state' v v') {source : Nat}
    (used : source < state.fresh) (script : Script) :
    Linked swap hole state state' (v.opened source script) (v'.opened source script) :=
  { linked with
    sources := fun other outside => by
      by_cases same : other = source
      · simp [View.opened, same]
      · simpa [View.opened, same] using linked.sources other outside
    unopened := fun other above => by
      have apart : other ≠ source := fun same => absurd above (by omega)
      simpa [View.opened, apart] using linked.unopened other above }

theorem Linked.spent (linked : Linked swap hole state state' v v') (source : Nat) :
    Linked swap hole state state' (v.spent source) (v'.spent source) :=
  { linked with
    sources := fun other outside => by
      by_cases same : other = source
      · simp [View.spent, same]
      · simpa [View.spent, same] using linked.sources other outside
    unopened := fun other above => by
      by_cases same : other = source
      · simp [View.spent, same]
      · simpa [View.spent, same] using linked.unopened other above }

/-- Both sides ask for a stream that is still the same for them. -/
theorem Linked.askedFor (linked : Linked swap hole state state' v v') (stream : Nat) :
    Linked swap hole state state' (v.askedFor stream) (v'.askedFor stream) :=
  { linked with
    streams := fun other free => by
      by_cases same : other = stream
      · simp [View.askedFor, same]
      · have free : other = swap.handle → v'.asked other = 0 := fun equal => by
          simpa [View.askedFor, same] using free equal
        simpa [View.askedFor, same] using linked.streams other free
    script := fun free => by
      by_cases same : swap.handle = stream
      · simp [View.askedFor, same] at free
      · have free : v'.asked swap.handle = 0 := by simpa [View.askedFor, same] using free
        simpa [View.askedFor, same] using linked.script free }

/-- The side of the stream asks for it. -/
theorem Linked.taken (linked : Linked swap hole state state' v v') (above : ∀ source ∈ hole, source < state.fresh)
    {source : Nat} (vacant : source ∉ hole) (used : source < state.fresh) :
    Linked swap (insert source hole) state state' v
      ((v'.askedFor swap.handle).opened source swap.script) :=
  { linked with
    below := fun other listed => by
      rcases listed with rfl | listed
      · exact used
      · exact above other listed
    sources := fun other outside => by
      have apart : other ≠ source := fun same => outside (.inl same)
      simpa [View.opened, View.askedFor, apart] using
        linked.sources other fun listed => outside (.inr listed)
    streams := fun other free => by
      by_cases same : other = swap.handle
      · have free := free same
        simp [View.opened, View.askedFor, same] at free
      · simpa [View.opened, View.askedFor, same] using
          linked.streams other fun equal => absurd equal same
    script := fun free => by simp [View.opened, View.askedFor] at free }

/-! ## Questions about sources -/

theorem alikeAt_ask {still : Set Nat} (request : Request)
    (same : (v'.answer provider request).1 = (v.answer provider request).1)
    (behind : Linked swap hole state state' (v.answer provider request).2 (v'.answer provider request).2)
    (kept : Kept hole still v v' (v.answer provider request).2 (v'.answer provider request).2) :
    AlikeAt swap provider Eq hole still state state' v v' (ask request) (ask request) := by
  refine .inr ?_
  rw [start_ask, start_ask]
  simp only [Process.outcome]
  exact ⟨by rw [same]; exact .ok rfl, behind, le_rfl, kept⟩

/-- What a source gives when it is read, and what is left of it, depends on what it still gives. -/
theorem answer_pull (provider : Provider) (source : Nat) (given : Option Script) :
    ∃ (answer : (Request.pull source).Answer) (left : View → View),
      (left = id ∨ ∃ rest, left = fun w => w.opened source rest) ∧
      ∀ w : View, w.sources source = given → w.answer provider (.pull source) = (answer, left w) := by
  match given with
  | none | some [] =>
    refine ⟨(.ok none : Except Cause (Option Item)), id, .inl rfl, fun w here => ?_⟩
    simp only [View.answer, here]
    rfl
  | some (.ok item :: rest) =>
    refine ⟨(.ok (some item) : Except Cause (Option Item)), _, .inr ⟨rest, rfl⟩, fun w here => ?_⟩
    simp only [View.answer, here]
  | some (.error cause :: rest) =>
    refine ⟨(.error cause : Except Cause (Option Item)), _, .inr ⟨rest, rfl⟩, fun w here => ?_⟩
    simp only [View.answer, here]

theorem alikeAt_pull (linked : Linked swap hole state state' v v') {source : Nat} (outside : source ∉ hole)
    (used : source < state.fresh) :
    AlikeAt swap provider Eq hole hole state state' v v' (ask (.pull source)) (ask (.pull source)) := by
  obtain ⟨answer, left, change, told⟩ := answer_pull provider source (v.sources source)
  have here := told v rfl
  have here' := told v' (linked.sources source outside)
  apply alikeAt_ask
  · rw [here, here']
  · rw [here, here']
    rcases change with rfl | ⟨rest, rfl⟩
    · exact linked
    · exact linked.opened used rest
  · rw [here, here']
    have apart : ∀ other ∈ hole, other ≠ source := fun other listed equal => outside (equal ▸ listed)
    rcases change with rfl | ⟨rest, rfl⟩
    · exact .refl _ _ _ _
    · exact ⟨fun other listed => by simp [View.opened, apart other listed],
        fun other listed => by simp [View.opened, apart other listed]⟩

/-! ## Items -/

/-- Both sides get the same item, and go on with the same source. -/
theorem alikeAt_nextItem_external (linked : Linked swap hole state state' v v') {source : Nat}
    (outside : source ∉ hole) (used : source < state.fresh) :
    AlikeAt swap provider (fun next next' => next = next' ∧ ∀ out, next = some out → out.2 = .external source)
      hole hole state state' v v' (nextItem settings (.external source))
      (nextItem settings (.external source)) := by
  refine (alikeAt_pull linked outside used).bind fun answer answer' s s' w w' same linked _ _ => ?_
  subst same
  refine (alike_accept answer _ _ _ _ _ linked).bind fun item item' t t' x x' same linked _ _ => ?_
  subst same
  refine alike_pure ⟨rfl, fun out here => ?_⟩ _ _ _ _ _ linked
  cases item with
  | none => exact nomatch here
  | some item =>
    cases here
    rfl

/-- What comes next of the items of an array. -/
def nextOf (array : Value) : List Value → Option (Item × Source)
  | [] => none
  | value :: rest => some (⟨none, value⟩, .items array rest)

theorem outcome_nextItem_items (array : Value) (rest : List Value)
    (next : Option (Item × Source) → RenderM β) (state : State) (v : View) :
    ((nextItem settings (.items array rest) >>= next).start state).outcome provider v =
      ((next (nextOf array rest)).start state).outcome provider v := by
  rw [outcome_start_bind]
  cases rest with
  | nil => rfl
  | cons value rest => rfl

/-- What comes next of a source. -/
theorem outcome_nextItem_external {source : Nat} {rest : List Value}
    (next : Option (Item × Source) → RenderM β) (state : State) {v : View}
    (given : v.sources source = some (rest.map fun value => .ok { value })) :
    ((nextItem settings (.external source) >>= next).start state).outcome provider v =
      match rest with
      | [] => ((next none).start state).outcome provider v
      | value :: rest => ((next (some (⟨none, value⟩, .external source))).start state).outcome provider
          (v.opened source (rest.map fun value => .ok { value })) := by
  have asked : ((nextItem settings (.external source)).start state).outcome provider v =
      match rest with
      | [] => ((.ok none, state), v)
      | value :: rest => ((.ok (some (⟨none, value⟩, .external source)), state),
          v.opened source (rest.map fun value => .ok { value })) := by
    unfold nextItem
    rw [outcome_start_bind, start_ask]
    cases rest with
    | nil =>
      have told : v.answer provider (.pull source) = ((.ok none : Except Cause (Option Item)), v) := by
        simp only [View.answer, given, List.map_nil]
        rfl
      simp only [Process.outcome, told]
      rfl
    | cons value rest =>
      have told : v.answer provider (.pull source) =
          ((.ok (some ⟨none, value⟩) : Except Cause (Option Item)),
            v.opened source (rest.map fun value => .ok { value })) := by
        simp only [View.answer, given, List.map_cons]
        rfl
      simp only [Process.outcome, told]
      rfl
  rw [outcome_start_bind, asked]
  cases rest <;> rfl

/-! ## Rounds -/

section

variable {still : Set Nat} (frame : Nat → Item → Frame) {body : RenderM String}

/-- The round for an item, and then those for the items behind it. -/
theorem AlikeAt.round (linked : Linked swap hole state state' v v') (part : still ⊆ hole)
    (inner : Alike swap provider Eq body body) {next next' : String → RenderM String} (index : Nat)
    (item : Item)
    (rest : ∀ text behind behind' w w', Linked swap hole behind behind' w w' →
      state.fresh ≤ behind.fresh → Kept hole hole v v' w w' →
      AlikeAt swap provider Eq hole still behind behind' w w' (next text) (next' text)) :
    AlikeAt swap provider Eq hole still state state' v v' (within (frame index item) body >>= next)
      (within (frame index item) body >>= next') := by
  have twins := FrameTwins.refl swap.array swap.stream swap.path (frame index item)
  have alike := inner.within twins hole state state' v v' linked
  unfold AlikeAt at alike ⊢
  rw [outcome_start_bind, outcome_start_bind]
  generalize ((within (frame index item) body).start state).outcome provider v = out at *
  generalize ((within (frame index item) body).start state').outcome provider v' = out' at *
  obtain ⟨⟨result, behind⟩, w⟩ := out
  obtain ⟨⟨result', behind'⟩, w'⟩ := out'
  rcases alike with twice | ⟨agree, linked, grown, kept⟩
  · exact .inl (twice.trans (Process.asked_le _ _ _))
  · have kept' : Kept hole still v v' w w' := ⟨kept.here, fun source listed => kept.there source (part listed)⟩
    cases agree with
    | error failure => exact .inr ⟨.error failure, linked, grown, kept'⟩
    | @ok text text' same =>
      subst same
      rcases rest text behind behind' w w' linked grown kept with twice | after
      · exact .inl twice
      · exact .inr ⟨after.agree, after.linked, grown.trans after.grown, kept'.trans after.kept⟩

/-- The rounds for the items of an array that both sides read. -/
theorem alike_rounds_items (inner : Alike swap provider Eq body body) (array array' : Value) (n : Nat) :
    ∀ (rest : List Value) (index : Nat) (written : String),
      Alike swap provider Eq (forEach settings frame body n (.items array rest) index written)
        (forEach settings frame body n (.items array' rest) index written) := by
  induction n with
  | zero => exact fun _ _ _ => alike_throw _
  | succ n ih =>
    intro rest index written hole state state' v v' linked
    rw [forEach, forEach]
    unfold AlikeAt
    rw [outcome_nextItem_items, outcome_nextItem_items]
    cases rest with
    | nil => exact alike_pure rfl hole state state' v v' linked
    | cons value rest =>
      exact AlikeAt.round frame linked subset_rfl inner index ⟨none, value⟩
        fun text behind behind' w w' linked _ _ =>
          ih rest (index + 1) (written ++ text) hole behind behind' w w' linked

/-- The rounds for the items of a source that both sides read. -/
theorem alikeAt_rounds_external (inner : Alike swap provider Eq body body) {source : Nat}
    (outside : source ∉ hole) (n : Nat) :
    ∀ (index : Nat) (written : String) {state state' : State} {v v' : View},
      Linked swap hole state state' v v' → source < state.fresh →
      AlikeAt swap provider Eq hole hole state state' v v'
        (forEach settings frame body n (.external source) index written)
        (forEach settings frame body n (.external source) index written) := by
  induction n with
  | zero => exact fun _ _ _ _ _ _ linked _ => alike_throw _ _ _ _ _ _ linked
  | succ n ih =>
    intro index written state state' v v' linked used
    rw [forEach]
    refine (alikeAt_nextItem_external linked outside used).bind
      fun next next' s s' w w' related linked grown _ => ?_
    obtain ⟨rfl, onward⟩ := related
    cases next with
    | none => exact alike_pure rfl hole s s' w w' linked
    | some out =>
      obtain ⟨item, next⟩ := out
      obtain rfl : next = .external source := onward _ rfl
      exact AlikeAt.round frame linked subset_rfl inner index item
        fun text behind behind' x x' linked grown' _ =>
          ih (index + 1) (written ++ text) linked (used.trans_le (grown.trans grown'))

/-- A source of the hole is read by the side of the stream. -/
theorem Linked.read (linked : Linked swap hole state state' v v') {source : Nat} (inside : source ∈ hole)
    (script : Script) : Linked swap hole state state' v (v'.opened source script) :=
  { linked with
    sources := fun other outside => by
      have apart : other ≠ source := fun same => outside (same ▸ inside)
      simpa [View.opened, apart] using linked.sources other outside }

/-- The rounds for the items of the collection: those of an array here, those of a source there. -/
theorem alikeAt_rounds_swap (inner : Alike swap provider Eq body body) (array : Value) {source : Nat}
    (inside : source ∈ hole) (part : still ⊆ hole) (apart : source ∉ still) (n : Nat) :
    ∀ (rest : List Value) (index : Nat) (written : String) {state state' : State} {v v' : View},
      Linked swap hole state state' v v' →
      v'.sources source = some (rest.map fun value => .ok { value }) →
      AlikeAt swap provider Eq hole still state state' v v'
        (forEach settings frame body n (.items array rest) index written)
        (forEach settings frame body n (.external source) index written) := by
  induction n with
  | zero =>
    exact fun _ _ _ _ _ _ _ linked _ => (alike_throw _ _ _ _ _ _ linked).of_subset part
  | succ n ih =>
    intro rest index written state state' v v' linked given
    rw [forEach, forEach]
    unfold AlikeAt
    rw [outcome_nextItem_items, outcome_nextItem_external _ _ given]
    cases rest with
    | nil => exact (alike_pure rfl hole state state' v v' linked).of_subset part
    | cons value rest =>
      have read := linked.read inside (rest.map fun value => .ok { value })
      have round := AlikeAt.round frame read part inner index ⟨none, value⟩
        fun text behind behind' w w' linked _ kept =>
          ih rest (index + 1) (written ++ text) linked
            ((kept.there source inside).trans (by simp [View.opened]))
      refine round.imp_right fun after => { after with kept := ⟨after.kept.here, fun other listed => ?_⟩ }
      have differs : other ≠ source := fun same => apart (same ▸ listed)
      rw [after.kept.there other listed]
      simp [View.opened, differs]

end

/-! ## Iterations -/

/-- A source is given back when the rounds have ended. -/
theorem outcome_releasing_external (source : Nat) (m : RenderM α) (state : State) (v : View) :
    ((releasing (.external source) m).start state).outcome provider v =
      (((m.start state).outcome provider v).1, ((m.start state).outcome provider v).2.spent source) := by
  rw [start_releasing_external, Process.outcome_bind]
  rfl

theorem outcome_keeping (values : List Value) (m : RenderM α) (state : State) (v : View) :
    ((keeping values m).start state).outcome provider v =
      (let out := (m.start { state with inUse := values ++ state.inUse }).outcome provider v
      ((out.1.1, { out.1.2 with inUse := state.inUse }), out.2)) := by
  rw [start_keeping, Process.outcome_bind]
  rfl

section

variable {loop : Loop}

/-- The rounds of an iteration from their start. -/
def Loop.begin_ (settings : Settings) (loop : Loop) (source : Source) : RenderM String :=
  releasing source (loop.rounds settings settings.limit source 0 "")

/-- The iteration of a collection whose source has a number. -/
def Loop.under (settings : Settings) (loop : Loop) (number : Nat) : Value → RenderM String
  | .array identity items => loop.begin_ settings (.items (.array identity items) items)
  | .iterable handle => do
    ask (.iterate number handle)
    loop.begin_ settings (.external number)
  | .stream handle => do
    match ← ask (.take number handle) with
    | true => loop.begin_ settings (.external number)
    | false => fail settings .notIterable "cannot iterate over a stream that was already consumed"
  | other => fail settings .notIterable ("cannot iterate over " ++ other.typeName)

theorem Loop.iterate_eq (collection : Value) :
    loop.iterate settings collection = freshIdentity >>= fun number => loop.under settings number collection := by
  unfold Loop.iterate openCollection
  rw [bind_assoc]
  congr 1
  funext number
  cases collection with
  | array identity items => rfl
  | iterable handle => rfl
  | stream handle =>
    show (_ >>= _) >>= _ = _ >>= _
    rw [bind_assoc]
    congr 1
    funext taken
    cases taken with
    | true => rfl
    | false => rfl
  | _ => rfl

variable (inner : Alike swap provider Eq (loop.body settings) (loop.body settings))

include inner

theorem alike_begin_items (array array' : Value) (rest : List Value) :
    Alike swap provider Eq (loop.begin_ settings (.items array rest))
      (loop.begin_ settings (.items array' rest)) :=
  (alike_rounds_items loop.frame inner array array' settings.limit rest 0 "").keeping _ _

theorem alikeAt_begin_external (linked : Linked swap hole state state' v v') {source : Nat}
    (outside : source ∉ hole) (used : source < state.fresh) :
    AlikeAt swap provider Eq hole hole state state' v v' (loop.begin_ settings (.external source))
      (loop.begin_ settings (.external source)) := by
  have rounds : AlikeAt swap provider Eq hole hole state state' v v'
      (loop.rounds settings settings.limit (.external source) 0 "")
      (loop.rounds settings settings.limit (.external source) 0 "") :=
    alikeAt_rounds_external loop.frame inner outside settings.limit 0 "" linked used
  unfold AlikeAt Loop.begin_
  rw [outcome_releasing_external, outcome_releasing_external]
  refine rounds.imp_right fun after => ⟨after.agree, after.linked.spent source, after.grown, ?_, ?_⟩
  · intro other listed
    have apart : other ≠ source := fun same => outside (same ▸ listed)
    exact (sources_spent_of_ne apart _).trans (after.kept.here other listed)
  · intro other listed
    have apart : other ≠ source := fun same => outside (same ▸ listed)
    exact (sources_spent_of_ne apart _).trans (after.kept.there other listed)

/-- The rounds of the collection: those of the array on the one side, and those of the stream, which was
taken as a source, on the other. -/
theorem alikeAt_begin_swap (linked : Linked swap hole state state' v v') {source : Nat}
    (outside : source ∉ hole) (used : source < state.fresh) (vacant : v.sources source = none) :
    2 ≤ (((loop.begin_ settings (.external source)).start state').outcome provider
        ((v'.askedFor swap.handle).opened source swap.script)).2.asked swap.handle ∨
      After swap hole hole Eq state.fresh v v'
        (((loop.begin_ settings (.items swap.array swap.values)).start state).outcome provider v)
        (((loop.begin_ settings (.external source)).start state').outcome provider
          ((v'.askedFor swap.handle).opened source swap.script)) := by
  have taken : Linked swap (insert source hole) { state with inUse := [swap.array] ++ state.inUse } state' v
      ((v'.askedFor swap.handle).opened source swap.script) :=
    { linked.taken linked.below outside used with }
  have rounds : AlikeAt swap provider Eq (insert source hole) hole _ state' v _
      (loop.rounds settings settings.limit (.items swap.array swap.values) 0 "")
      (loop.rounds settings settings.limit (.external source) 0 "") :=
    alikeAt_rounds_swap loop.frame inner swap.array (Set.mem_insert source hole)
      (Set.subset_insert source hole) outside settings.limit swap.values 0 "" taken
      (Function.update_self ..)
  unfold Loop.begin_
  rw [outcome_releasing_external]
  show _ ∨ After swap hole hole Eq state.fresh v v'
    (((keeping [swap.array] (loop.rounds settings settings.limit (.items swap.array swap.values) 0 "")).start
      state).outcome provider v) _
  rw [outcome_keeping]
  refine rounds.imp_right fun after => ⟨after.agree, ?_, after.grown, fun other listed => ?_,
    fun other listed => ?_⟩
  · -- The source was opened on one side only, and is given back: it is as good as never opened.
    have kept := after.kept.here source (Set.mem_insert source hole)
    exact
      { after.linked with
        below := fun other listed => after.linked.below other (Set.mem_insert_of_mem source listed)
        sources := fun other apart => by
          by_cases same : other = source
          · subst same
            exact (Function.update_self ..).trans (kept.trans vacant).symm
          · rw [sources_spent_of_ne same]
            exact after.linked.sources other fun listed => listed.elim same apart }
  · exact after.kept.here other (Set.mem_insert_of_mem source listed)
  · have apart : other ≠ source := fun same => outside (same ▸ listed)
    rw [sources_spent_of_ne apart]
    refine (after.kept.there other listed).trans ?_
    exact sources_opened_of_ne apart _ _

omit inner

/-- A stream is taken by the first who asks for it. -/
theorem outcome_under_stream (source handle : Nat) (state : State) (v : View) :
    ((loop.under settings source (.stream handle)).start state).outcome provider v =
      match v.streams handle with
      | none =>
        ((fail settings .notIterable "cannot iterate over a stream that was already consumed" :
          RenderM String).start state).outcome provider (v.askedFor handle)
      | some script => ((loop.begin_ settings (.external source)).start state).outcome provider
          ((v.askedFor handle).opened source script) := by
  unfold Loop.under
  rw [outcome_start_bind, start_ask]
  cases given : v.streams handle with
  | none =>
    have told : v.answer provider (.take source handle) = (false, v.askedFor handle) := by
      simp only [View.answer, given]
      rfl
    simp only [Process.outcome, told]
    rfl
  | some script =>
    have told : v.answer provider (.take source handle) =
        (true, (v.askedFor handle).opened source script) := by
      simp only [View.answer, given]
      rfl
    simp only [Process.outcome, told]
    rfl

/-- Who asks for the stream again has asked for it twice. -/
theorem twice_of_stream (source : Nat) {handle : Nat} (asked : v.asked handle ≠ 0) (state : State) :
    2 ≤ (((loop.under settings source (.stream handle)).start state).outcome provider v).2.asked
      handle := by
  have again : 2 ≤ (v.askedFor handle).asked handle := by
    simp only [View.askedFor, Function.update_self]
    omega
  rw [outcome_under_stream]
  split
  · exact again.trans (Process.asked_le _ _ _)
  · exact again.trans (Process.asked_le _ ((v.askedFor handle).opened source _) _)

include inner

/-- The iteration of the array on the one side, and of the stream on the other. -/
theorem alikeAt_under_swap (linked : Linked swap hole state state' v v') {source : Nat}
    (outside : source ∉ hole) (used : source < state.fresh) (vacant : v.sources source = none) :
    AlikeAt swap provider Eq hole hole state state' v v' (loop.under settings source swap.array)
      (loop.under settings source swap.stream) := by
  by_cases first : v'.asked swap.handle = 0
  · unfold AlikeAt Swap.stream
    rw [outcome_under_stream, linked.script first]
    exact alikeAt_begin_swap inner linked outside used vacant
  · exact .inl (twice_of_stream source first state')

/-- The iteration of the same collection on both sides. -/
theorem alikeAt_under (linked : Linked swap hole state state' v v') {source : Nat}
    (outside : source ∉ hole) (used : source < state.fresh) (collection : Value) :
    AlikeAt swap provider Eq hole hole state state' v v' (loop.under settings source collection)
      (loop.under settings source collection) := by
  have apart : ∀ other ∈ hole, other ≠ source := fun other listed same => outside (same ▸ listed)
  have kept : ∀ (w w' : View) (script : Script), Kept hole hole v v' w w' →
      Kept hole hole v v' (w.opened source script) (w'.opened source script) :=
    fun w w' script kept => kept.trans
      ⟨fun other listed => sources_opened_of_ne (apart other listed) _ _,
        fun other listed => sources_opened_of_ne (apart other listed) _ _⟩
  cases collection with
  | array identity items => exact alike_begin_items inner _ _ items hole state state' v v' linked
  | iterable handle =>
    have asked : AlikeAt swap provider Eq hole hole state state' v v' (ask (.iterate source handle))
        (ask (.iterate source handle)) :=
      alikeAt_ask (.iterate source handle) rfl (linked.opened used _) (kept v v' _ (.refl _ _ _ _))
    refine asked.bind fun _ _ behind behind' w w' _ linked grown _ => ?_
    exact alikeAt_begin_external inner linked outside (used.trans_le grown)
  | stream handle =>
    by_cases free : handle = swap.handle → v'.asked handle = 0
    · have same := linked.streams handle free
      have behind := linked.askedFor handle
      unfold AlikeAt
      rw [outcome_under_stream, outcome_under_stream, same]
      split
      · rcases @alike_fail _ swap provider settings Eq _ _ hole state state' _ _ behind with twice | after
        · exact .inl twice
        · exact .inr { after with kept := ⟨after.kept.here, after.kept.there⟩ }
      · rename_i script given
        refine (alikeAt_begin_external inner (behind.opened used script) outside used).imp_right fun after => ?_
        exact { after with kept := (kept (v.askedFor handle) (v'.askedFor handle) script
          ⟨fun _ _ => rfl, fun _ _ => rfl⟩).trans after.kept }
    · obtain ⟨rfl, again⟩ := Classical.not_imp.1 free
      exact .inl (twice_of_stream source again state')
  | _ => exact alike_fail _ _ hole state state' v v' linked

/-- On twin data an iteration gives the same. -/
theorem alike_iterate {rest : List String} {collection collection' : Value}
    (pair : Pair swap.array swap.stream rest collection collection') :
    Alike swap provider Eq (loop.iterate settings collection) (loop.iterate settings collection') := by
  intro hole state state' v v' linked
  have outside : state.fresh ∉ hole := fun listed => absurd (linked.below _ listed) (by omega)
  have grown : Linked swap hole { state with fresh := state.fresh + 1 }
      { state' with fresh := state.fresh + 1 } v v' :=
    { linked with
      fresh := rfl
      below := fun source listed => (linked.below source listed).trans (Nat.lt_succ_self _)
      unopened := fun source above => linked.unopened source ((Nat.le_succ _).trans above) }
  have used : state.fresh < state.fresh + 1 := Nat.lt_succ_self _
  have numbered : AlikeAt swap provider Eq hole hole { state with fresh := state.fresh + 1 }
      { state' with fresh := state.fresh + 1 } v v' (loop.under settings state.fresh collection)
      (loop.under settings state.fresh collection') := by
    rcases pair with rfl | twins
    · exact alikeAt_under inner grown outside used collection
    · cases twins with
      | here => exact alikeAt_under_swap inner grown outside used (linked.unopened _ le_rfl)
      | inside => exact alike_fail _ _ hole _ _ v v' grown
  unfold AlikeAt
  rw [Loop.iterate_eq, Loop.iterate_eq, outcome_start_bind, outcome_start_bind, start_freshIdentity,
    start_freshIdentity, linked.fresh]
  exact numbered.imp_right fun after => { after with grown := (Nat.le_succ _).trans after.grown }

end

end RenderM

end Stencil.Render
