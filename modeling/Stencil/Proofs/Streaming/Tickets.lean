import Stencil.Stream.Producer
import Mathlib.Data.List.Basic
import Mathlib.Data.List.Perm.Basic
/-!
# Tickets of a channel

A ticket that was handed out waits in the queue, is held by the consumer, or is settled, and it is at
one of these places only (`Channel.Tally`). So it is settled at most once. It is accepted only when
the consumer was given its item and has come back.
-/

set_option autoImplicit false

namespace Stencil.Stream

namespace Channel

/-- The tickets that are not settled. -/
def unsettled (channel : Channel) : List Nat :=
  channel.held.toList ++ channel.queue.filterMap Signal.ticket?

/-- What emitters do to a channel, with the items that they send. -/
inductive Emits : Channel → List Item → Channel → Prop
  | done (channel : Channel) : Emits channel [] channel
  | send {channel next last : Channel} {item : Item} {items : List Item} {ticket : Nat}
    (sent : channel.send item = (.ok ticket, next)) (later : Emits next items last) :
    Emits channel (item :: items) last
  | refused {channel next last : Channel} {item : Item} {items : List Item} {outcome : Outcome}
    (refused : channel.send item = (.error outcome, next)) (later : Emits next items last) :
    Emits channel items last
  | signalEnd {channel last : Channel} {items : List Item}
    (later : Emits channel.signalEnd.2 items last) : Emits channel items last
  | addEmitter {channel last : Channel} {items : List Item}
    (later : Emits channel.addEmitter items last) : Emits channel items last
  | dropEmitter {channel last : Channel} {items : List Item}
    (later : Emits channel.dropEmitter items last) : Emits channel items last

/-- How the tickets of a channel hang together with the items that were sent, and with the tickets of
those that the consumer was given. -/
structure Tally (channel : Channel) (sent : List Item) (taken : List Nat) : Prop where
  tickets : channel.tickets = sent.length
  places : (channel.unsettled ++ channel.settled.map (·.1)).Perm (List.range sent.length)
  queued : ∀ ticket item, .item ticket item ∈ channel.queue →
    sent[ticket]? = some item ∧ ticket ∉ taken
  held : ∀ ticket, channel.held = some ticket → ticket ∈ taken
  outcomes : ∀ entry ∈ channel.settled, entry.2 = .closed ∨ entry.2 = .accepted ∧ entry.1 ∈ taken
  once : taken.Nodup
  inside : ∀ ticket ∈ taken, ticket < sent.length
  deserted : channel.listening = false → channel.unsettled = []

section

variable {channel next : Channel} {sent items : List Item} {taken : List Nat}

theorem tally_new : Tally {} [] [] := by
  constructor <;> simp [unsettled]

namespace Tally

/-- No ticket is settled twice. -/
theorem settled_nodup (tally : Tally channel sent taken) : (channel.settled.map (·.1)).Nodup :=
  (List.nodup_append.1 (tally.places.nodup_iff.2 List.nodup_range)).2.1

/-- A settled ticket is no longer waiting. -/
theorem not_mem_unsettled (tally : Tally channel sent taken) {entry : Nat × Outcome}
    (settled : entry ∈ channel.settled) : entry.1 ∉ channel.unsettled := by
  intro waiting
  have apart := (List.nodup_append.1 (tally.places.nodup_iff.2 List.nodup_range)).2.2
  exact apart _ waiting _ (List.mem_map_of_mem settled) rfl

/-- The outcome of a settled ticket. -/
theorem outcome?_eq (tally : Tally channel sent taken) {ticket : Nat} {outcome : Outcome}
    (settled : (ticket, outcome) ∈ channel.settled) : channel.outcome? ticket = some outcome := by
  have nodup := tally.settled_nodup
  unfold outcome?
  generalize channel.settled = entries at settled nodup
  induction entries with
  | nil => exact nomatch settled
  | cons entry rest ih =>
    rw [List.map_cons, List.nodup_cons] at nodup
    rcases List.mem_cons.1 settled with rfl | later
    · simp
    · have differs : entry.1 ≠ ticket := fun same =>
        nodup.1 (same ▸ List.mem_map_of_mem later)
      rw [List.find?_cons_of_neg (by simpa using differs)]
      exact ih later nodup.2

/-- A ticket that waits has no outcome. -/
theorem outcome?_none (tally : Tally channel sent taken) {ticket : Nat}
    (waiting : ticket ∈ channel.unsettled) : channel.outcome? ticket = none := by
  unfold outcome?
  rw [Option.map_eq_none_iff, List.find?_eq_none]
  intro entry listed same
  rw [decide_eq_true_eq] at same
  exact tally.not_mem_unsettled listed (same ▸ waiting)

end Tally

/-- An outcome is that of a settled ticket. -/
theorem mem_of_outcome? {ticket : Nat} {outcome : Outcome}
    (told : channel.outcome? ticket = some outcome) : (ticket, outcome) ∈ channel.settled := by
  obtain ⟨entry, found, same⟩ := Option.map_eq_some_iff.1 told
  have right := List.find?_some found
  rw [decide_eq_true_eq] at right
  obtain rfl : entry = (ticket, outcome) := Prod.ext right same
  exact List.mem_of_find?_eq_some found

/-! ## Emitters -/

/-- What emitters do settles nothing, and does not take from the consumer what it holds. -/
theorem Emits.keeps (emits : Emits channel items next) :
    next.settled = channel.settled ∧ next.held = channel.held ∧
      next.listening = channel.listening := by
  induction emits with
  | done channel => exact ⟨rfl, rfl, rfl⟩
  | @send channel next last item items ticket sent later ih =>
    refine ih.elim fun settled rest => ?_
    unfold Channel.send at sent
    split at sent
    · cases sent
    · split at sent
      · cases sent
        exact ⟨settled, rest⟩
      · cases sent
  | @refused channel next last item items outcome refused later ih =>
    refine ih.elim fun settled rest => ?_
    unfold Channel.send at refused
    split at refused
    · cases refused
      exact ⟨settled, rest⟩
    · split at refused
      · cases refused
      · cases refused
        exact ⟨settled, rest⟩
  | @signalEnd channel last items later ih =>
    have kept : channel.signalEnd.2.settled = channel.settled ∧
        channel.signalEnd.2.held = channel.held ∧
        channel.signalEnd.2.listening = channel.listening := by
      unfold Channel.signalEnd record
      split
      · exact ⟨rfl, rfl, rfl⟩
      · split <;> exact ⟨rfl, rfl, rfl⟩
    exact ⟨ih.1.trans kept.1, ih.2.1.trans kept.2.1, ih.2.2.trans kept.2.2⟩
  | addEmitter later ih => exact ih
  | dropEmitter later ih => exact ih

/-- The tally does not depend on who emits, nor on the marks of the protocol. -/
theorem Tally.of_same (tally : Tally channel sent taken) (tickets : next.tickets = channel.tickets)
    (queue : next.queue.filterMap Signal.ticket? = channel.queue.filterMap Signal.ticket?)
    (items : ∀ ticket item, .item ticket item ∈ next.queue → .item ticket item ∈ channel.queue)
    (held : next.held = channel.held) (settled : next.settled = channel.settled)
    (listening : next.listening = channel.listening) : Tally next sent taken := by
  have same : next.unsettled = channel.unsettled := by
    rw [unsettled, unsettled, held, queue]
  exact
    { tickets := tickets.trans tally.tickets
      places := by
        rw [same, settled]
        exact tally.places
      queued := fun ticket item listed => tally.queued ticket item (items ticket item listed)
      held := fun ticket holds => tally.held ticket (held ▸ holds)
      outcomes := settled ▸ tally.outcomes
      once := tally.once
      inside := tally.inside
      deserted := fun gone => same.trans (tally.deserted (listening ▸ gone)) }

theorem Tally.send (tally : Tally channel sent taken) {item : Item} {ticket : Nat}
    (handed : channel.send item = (.ok ticket, next)) : Tally next (sent ++ [item]) taken := by
  unfold Channel.send at handed
  split at handed
  · cases handed
  · split at handed
    · rename_i listening
      cases handed
      refine ⟨?_, ?_, fun ticket other listed => ?_, tally.held, tally.outcomes, tally.once,
        fun ticket listed => ?_, fun gone => absurd (listening.symm.trans gone) Bool.noConfusion⟩
      · show channel.tickets + 1 = _
        rw [tally.tickets, List.length_append]
        rfl
      · show ((channel.held.toList ++ (channel.queue ++ [_]).filterMap Signal.ticket?) ++ _).Perm _
        rw [List.filterMap_append, List.length_append, List.length_singleton, List.range_succ]
        show ((channel.held.toList ++ (_ ++ [channel.tickets])) ++ _).Perm _
        rw [← List.append_assoc, ← unsettled, tally.tickets, List.append_assoc]
        refine (List.perm_append_comm_assoc _ _ _).trans ?_
        exact List.perm_append_comm.trans (tally.places.append_right _)
      · rcases List.mem_append.1 listed with before | new
        · obtain ⟨here, untaken⟩ := tally.queued ticket other before
          rw [List.getElem?_append_left (List.getElem?_eq_some_iff.1 here).1]
          exact ⟨here, untaken⟩
        · cases List.mem_singleton.1 new
          rw [tally.tickets, List.getElem?_concat_length]
          exact ⟨rfl, fun old => Nat.lt_irrefl _ (tally.inside _ old)⟩
      · rw [List.length_append]
        exact Nat.lt_succ_of_lt (tally.inside ticket listed)
    · cases handed

/-- What emitters do keeps the tally. -/
theorem Tally.emits (tally : Tally channel sent taken) (emits : Emits channel items next) :
    Tally next (sent ++ items) taken := by
  induction emits generalizing sent with
  | done channel =>
    rw [List.append_nil]
    exact tally
  | send handed later ih =>
    rw [List.append_cons]
    exact ih (tally.send handed)
  | refused refused later ih =>
    refine ih ?_
    unfold Channel.send at refused
    split at refused
    · cases refused
      exact tally.of_same rfl rfl (fun _ _ listed => listed) rfl rfl rfl
    · split at refused
      · cases refused
      · cases refused
        exact tally
  | @signalEnd channel last items later ih =>
    refine ih ?_
    unfold Channel.signalEnd
    split
    · exact tally.of_same rfl rfl (fun _ _ listed => listed) rfl rfl rfl
    · split
      · refine tally.of_same rfl ?_ (fun ticket item listed => ?_) rfl rfl rfl
        · rw [List.filterMap_append]
          exact List.append_nil _
        · rcases List.mem_append.1 listed with before | new
          · exact before
          · exact nomatch List.mem_singleton.1 new
      · exact tally.of_same rfl rfl (fun _ _ listed => listed) rfl rfl rfl
  | addEmitter later ih => exact ih (tally.of_same rfl rfl (fun _ _ listed => listed) rfl rfl rfl)
  | dropEmitter later ih => exact ih (tally.of_same rfl rfl (fun _ _ listed => listed) rfl rfl rfl)

/-- The steps of a producer are what an emitter does. -/
theorem emits_takeSteps (steps : List Step) (channel : Channel) :
    ∃ items, Emits channel items (Producer.takeSteps channel steps).channel := by
  induction steps generalizing channel with
  | nil => exact ⟨[], .dropEmitter (.done _)⟩
  | cons step rest ih =>
    cases step with
    | send item =>
      rw [Producer.takeSteps]
      split
      · rename_i ticket next sent
        exact ⟨[item], .send sent (.done _)⟩
      · rename_i outcome next refused
        obtain ⟨items, later⟩ := ih next
        exact ⟨items, .refused refused later⟩
    | signalEnd =>
      obtain ⟨items, later⟩ := ih channel.signalEnd.2
      exact ⟨items, .signalEnd later⟩

theorem emits_proceed (producer : Producer) (channel : Channel) :
    ∃ items, Emits channel items (producer.proceed channel).channel := by
  unfold Producer.proceed
  split
  · exact ⟨[], .done _⟩
  · split
    · split
      · exact ⟨[], .done _⟩
      · exact emits_takeSteps _ _
    · exact emits_takeSteps _ _

/-! ## The consumer -/

/-- The consumer that comes back accepts the item that it holds, and no other. -/
theorem acceptHeld_settled :
    channel.acceptHeld.settled = (channel.held.toList.map (·, .accepted)) ++ channel.settled := by
  unfold acceptHeld
  cases channel.held <;> rfl

theorem acceptHeld_held : channel.acceptHeld.held = none := by
  unfold acceptHeld
  cases same : channel.held with
  | none => exact same
  | some ticket => rfl

theorem Tally.acceptHeld (tally : Tally channel sent taken) : Tally channel.acceptHeld sent taken := by
  unfold Channel.acceptHeld
  cases held : channel.held with
  | none => exact tally
  | some ticket =>
    have places := tally.places
    rw [unsettled, held] at places
    refine ⟨tally.tickets, List.perm_middle.trans places, tally.queued, (nofun),
      fun entry listed => ?_, tally.once, tally.inside, fun gone => ?_⟩
    · rcases List.mem_cons.1 listed with rfl | before
      · exact .inr ⟨rfl, tally.held ticket held⟩
      · exact tally.outcomes entry before
    · have none_left := tally.deserted gone
      rw [unsettled, held] at none_left
      exact nomatch none_left

/-- What the consumer gets is the item of the ticket that it holds from then on. -/
theorem receive_item {item : Item} (got : channel.receive.1 = .item item) :
    ∃ ticket, .item ticket item ∈ channel.queue ∧ channel.receive.2.held = some ticket := by
  unfold receive at got ⊢
  split at got
  · split at got <;> cases got
  · rename_i ticket item' queue same
    split at got
    · cases got
    · cases got
      rename_i calm
      exact ⟨ticket, same ▸ List.mem_cons_self, rfl⟩
  · split at got <;> cases got

theorem receive_held (free : channel.held = none) {ticket : Nat}
    (holds : channel.receive.2.held = some ticket) : ∃ item, channel.receive.1 = .item item := by
  unfold receive settle at *
  split at holds
  · split at holds <;> exact nomatch free.symm.trans holds
  · split at holds
    · exact nomatch free.symm.trans holds
    · exact ⟨_, rfl⟩
  · split at holds <;> exact nomatch free.symm.trans holds

/-- Settled tickets stay settled. -/
theorem receive_settled : channel.settled <:+ channel.receive.2.settled := by
  unfold receive settle
  split
  · split <;> exact List.suffix_rfl
  · split
    · exact List.suffix_cons _ _
    · exact List.suffix_rfl
  · split <;> exact List.suffix_rfl

theorem Tally.receive (tally : Tally channel sent taken) (free : channel.held = none) :
    Tally channel.receive.2 sent (taken ++ channel.receive.2.held.toList) := by
  have places := tally.places
  rw [unsettled, free] at places
  have unchanged : Tally channel sent (taken ++ channel.held.toList) := by
    rw [free, Option.toList_none, List.append_nil]
    exact tally
  unfold Channel.receive
  split
  · split <;> exact unchanged
  · rename_i ticket item queue same
    rw [same] at places
    obtain ⟨here, untaken⟩ := tally.queued ticket item (same ▸ List.mem_cons_self)
    have later : ∀ ticket item, .item ticket item ∈ queue →
        sent[ticket]? = some item ∧ ticket ∉ taken := fun ticket item listed =>
      tally.queued ticket item (same ▸ List.mem_cons_of_mem _ listed)
    have deserted : channel.listening ≠ false := fun gone => by
      have none_left := tally.deserted gone
      rw [unsettled, free, same] at none_left
      exact nomatch none_left
    split
    · dsimp only [settle]
      rw [free, Option.toList_none, List.append_nil]
      refine ⟨tally.tickets, List.perm_middle.trans places, later, (nofun),
        fun entry listed => ?_, tally.once, tally.inside, fun gone => absurd gone deserted⟩
      · rcases List.mem_cons.1 listed with rfl | before
        · exact .inl rfl
        · exact tally.outcomes entry before
    · have fresh : ∀ other item, .item other item ∈ queue → other ≠ ticket := by
        rintro other item' listed rfl
        have nodup := (List.nodup_append.1 (places.nodup_iff.2 List.nodup_range)).1
        exact (List.nodup_cons.1 nodup).1 (List.mem_filterMap.2 ⟨_, listed, rfl⟩)
      refine ⟨tally.tickets, places, fun other item' listed => ?_, fun other holds => ?_,
        fun entry listed => ?_, ?_, fun other listed => ?_, fun gone => absurd gone deserted⟩
      · refine ⟨(later other item' listed).1, fun old => ?_⟩
        rcases List.mem_append.1 old with old | new
        · exact (later other item' listed).2 old
        · exact fresh other item' listed (List.mem_singleton.1 new)
      · cases holds
        exact List.mem_append_right _ (List.mem_singleton.2 rfl)
      · exact (tally.outcomes entry listed).imp_right fun ⟨accepted, old⟩ =>
          ⟨accepted, List.mem_append_left _ old⟩
      · refine List.nodup_append.2 ⟨tally.once, List.pairwise_singleton _ _, ?_⟩
        rintro other old new listed rfl
        cases List.mem_singleton.1 listed
        exact untaken old
      · rcases List.mem_append.1 listed with old | new
        · exact tally.inside other old
        · cases List.mem_singleton.1 new
          exact (List.getElem?_eq_some_iff.1 here).1
  · rename_i queue same
    have fewer : ∀ ticket item, .item ticket item ∈ queue → .item ticket item ∈ channel.queue :=
      fun ticket item listed => same ▸ List.mem_cons_of_mem _ listed
    have queue_same : queue.filterMap Signal.ticket? = channel.queue.filterMap Signal.ticket? := by
      rw [same]
      rfl
    split
    · exact unchanged.of_same rfl queue_same fewer rfl rfl rfl
    · exact unchanged.of_same rfl queue_same fewer rfl rfl rfl

/-- Asking for the next item is to accept what is held, and then to fail, to be told of the end
again, or to receive. -/
theorem pull_cases :
    (∃ breach, channel.pull = (.failed breach, { channel.acceptHeld with breach := none })) ∨
    channel.pull = (.ended, channel.acceptHeld) ∨ channel.pull = channel.acceptHeld.receive := by
  unfold pull
  dsimp only
  split
  · rename_i breach _
    exact .inl ⟨breach, rfl⟩
  · split
    · exact .inr (.inl rfl)
    · exact .inr (.inr rfl)

/-- The consumer that goes away closes what it holds and what it has not taken. -/
theorem close_settled :
    channel.close.settled = channel.unsettled.map (·, .closed) ++ channel.settled := rfl

theorem Tally.close (tally : Tally channel sent taken) : Tally channel.close sent taken := by
  refine ⟨tally.tickets, ?_, (nofun), (nofun),
    fun entry listed => ?_, tally.once, tally.inside, fun _ => rfl⟩
  · rw [close_settled, List.map_append, List.map_map]
    show (channel.unsettled.map id ++ _).Perm _
    rw [List.map_id]
    exact tally.places
  · rw [close_settled] at listed
    rcases List.mem_append.1 listed with new | old
    · obtain ⟨ticket, -, rfl⟩ := List.mem_map.1 new
      exact .inl rfl
    · exact tally.outcomes entry old

end

end Channel

end Stencil.Stream
