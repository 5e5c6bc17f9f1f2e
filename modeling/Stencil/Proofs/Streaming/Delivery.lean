import Stencil.Stream.Channel
import Mathlib.Data.List.Basic
/-!
# What a channel delivers

Any number of emitters and one consumer act on a channel in any order. The consumer stops when a
pull has failed. Until then, what it was given and what stands in the queue are together what was
sent (`Session.Sound.none_lost`), and the only signal of the end, if there was one, stands last.
From this invariant follows what the next pull of the consumer gives.
-/

set_option autoImplicit false

namespace Stencil.Stream

/-! ## Courses of a channel -/

/-- What a party of a channel does. -/
inductive Act where
  /-- An emitter sends an item. -/
  | send (item : Item)
  /-- An emitter signals the end. -/
  | signalEnd
  /-- An emitter is made from another one. -/
  | addEmitter
  /-- An emitter is given up. -/
  | dropEmitter
  /-- The consumer asks for the next item, or goes on waiting for it. -/
  | pull

/-- A channel, and what has happened on it. -/
structure Session where
  channel : Channel := {}
  /-- The items whose sending was accepted, oldest first. -/
  accepted : List Item := []
  /-- How the signals of the end went, oldest first. -/
  signals : List Outcome := []
  /-- The breaches of the emitters, oldest first. -/
  breaches : List Breach := []
  /-- Whether the consumer waits in a pull. -/
  waiting : Bool := false
  /-- The items that the consumer was given, oldest first. -/
  returned : List Item := []
  /-- How the consumer has failed. -/
  failure : Option Breach := none

namespace Session

/-- The breach that an outcome tells of. -/
def breachOf : Outcome → List Breach
  | .refused breach => [breach]
  | _ => []

/-- An emitter sends an item. -/
def send (s : Session) (item : Item) : Session :=
  match s.channel.send item with
  | (.ok _, channel) => { s with channel, accepted := s.accepted ++ [item] }
  | (.error outcome, channel) => { s with channel, breaches := s.breaches ++ breachOf outcome }

/-- An emitter signals the end. -/
def signalEnd (s : Session) : Session :=
  let (outcome, channel) := s.channel.signalEnd
  { s with
    channel, signals := s.signals ++ [outcome], breaches := s.breaches ++ breachOf outcome }

/-- What the consumer gets when it is let go on, and the channel behind that. -/
def next (s : Session) : Delivery × Channel :=
  if s.waiting then s.channel.receive else s.channel.pull

/-- The consumer is let go on. -/
def pull (s : Session) : Session :=
  let channel := s.next.2
  match s.next.1 with
  | .waiting => { s with channel, waiting := true }
  | .item item => { s with channel, waiting := false, returned := s.returned ++ [item] }
  | .ended => { s with channel, waiting := false }
  | .failed breach => { s with channel, waiting := false, failure := some breach }

/-- What a party does to the session, if it can: only an emitter that is left can act, and the
consumer only as long as no pull has failed. -/
def step (s : Session) : Act → Option Session
  | .send item => if s.channel.emitters = 0 then none else some (s.send item)
  | .signalEnd => if s.channel.emitters = 0 then none else some s.signalEnd
  | .addEmitter =>
    if s.channel.emitters = 0 then none else some { s with channel := s.channel.addEmitter }
  | .dropEmitter =>
    if s.channel.emitters = 0 then none else some { s with channel := s.channel.dropEmitter }
  | .pull => if s.failure.isSome then none else some s.pull

/-- The session behind acts, in the order in which they are taken. -/
def after (acts : List Act) : Option Session := acts.foldlM step {}

/-- What the parties can do, guards included. -/
theorem step_cases {s s' : Session} {act : Act} (h : s.step act = some s') :
    (∃ item, act = .send item ∧ s' = s.send item) ∨
    (act = .signalEnd ∧ s' = s.signalEnd) ∨
    (∃ emitters, s' = { s with channel := { s.channel with emitters } }) ∨
    (act = .pull ∧ s.failure = none ∧ s' = s.pull) := by
  cases act with
  | send item =>
    simp only [step, Option.ite_none_left_eq_some, Option.some.injEq] at h
    exact .inl ⟨item, rfl, h.2.symm⟩
  | signalEnd =>
    simp only [step, Option.ite_none_left_eq_some, Option.some.injEq] at h
    exact .inr (.inl ⟨rfl, h.2.symm⟩)
  | addEmitter =>
    simp only [step, Option.ite_none_left_eq_some, Option.some.injEq] at h
    exact .inr (.inr (.inl ⟨s.channel.emitters + 1, h.2.symm⟩))
  | dropEmitter =>
    simp only [step, Option.ite_none_left_eq_some, Option.some.injEq] at h
    exact .inr (.inr (.inl ⟨s.channel.emitters - 1, h.2.symm⟩))
  | pull =>
    simp only [step, Option.ite_none_left_eq_some, Option.some.injEq] at h
    exact .inr (.inr (.inr ⟨rfl, by simpa using h.1, h.2.symm⟩))

/-! ## The invariant -/

/-- The items that stand in a queue. -/
def queued (queue : List Signal) : List Item := queue.filterMap Signal.item?

@[simp] theorem queued_nil : queued [] = [] := rfl

@[simp] theorem queued_item (ticket : Nat) (item : Item) (queue : List Signal) :
    queued (.item ticket item :: queue) = item :: queued queue := rfl

@[simp] theorem queued_ended (queue : List Signal) : queued (.ended :: queue) = queued queue := rfl

@[simp] theorem queued_append (queue later : List Signal) :
    queued (queue ++ later) = queued queue ++ queued later := List.filterMap_append

/-- How the queue and the marks of a channel hang together with what has happened on it. -/
structure Sound (s : Session) : Prop where
  /-- The consumer is never gone. -/
  listening : s.channel.listening = true
  /-- Before the end is signalled, nobody has breached the protocol. -/
  unended : s.channel.ended = false →
    s.signals = [] ∧ s.breaches = [] ∧ s.channel.finished = false ∧
      ∀ signal ∈ s.channel.queue, signal ≠ .ended
  /-- The first signal of the end is the only one that is accepted. -/
  ended : s.channel.ended = true → s.signals.count .accepted = 1
  /-- The end stands last in the queue until the consumer has taken it. -/
  last : s.channel.ended = true → s.failure = none → s.channel.finished = false →
    ∃ front, s.channel.queue = front ++ [.ended] ∧ ∀ signal ∈ front, signal ≠ .ended
  /-- Behind the end nothing is left. -/
  finished : s.failure = none → s.channel.finished = true → s.channel.queue = []
  /-- The first breach waits for the consumer. -/
  breach : s.failure = none → s.channel.breach = s.breaches.head?
  /-- What was sent was given to the consumer or is still to be. -/
  none_lost : s.failure = none → s.accepted = s.returned ++ queued s.channel.queue
  /-- The consumer was given nothing else, and in this order. -/
  returned : s.returned <+: s.accepted
  /-- The consumer waits only for what may come. -/
  waiting : s.waiting = true → s.failure = none ∧ s.channel.finished = false

theorem sound_start : Sound {} := by
  constructor <;> simp

theorem sound_send {s : Session} (sound : s.Sound) (item : Item) : (s.send item).Sound := by
  cases ended : s.channel.ended with
  | true =>
    -- The breach is kept behind those there are, so the first one stays the first.
    have sent : s.send item = { s with
        channel := s.channel.record .dataAfterEnd
        breaches := s.breaches ++ [.dataAfterEnd] } := by
      simp [send, Channel.send, ended, breachOf]
    rw [sent]
    exact
      { listening := sound.listening
        unended := fun unended => absurd (ended.symm.trans unended) (by simp)
        ended := sound.ended
        last := sound.last
        finished := sound.finished
        breach := fun live => by
          simp [Channel.record, sound.breach live, List.head?_append]
        none_lost := sound.none_lost
        returned := sound.returned
        waiting := sound.waiting }
  | false =>
    obtain ⟨signals, breaches, open_, items⟩ := sound.unended ended
    have sent : s.send item = { s with
        channel := { s.channel with
          queue := s.channel.queue ++ [.item s.channel.tickets item]
          tickets := s.channel.tickets + 1 }
        accepted := s.accepted ++ [item] } := by
      simp [send, Channel.send, ended, sound.listening]
    rw [sent]
    refine
      { listening := sound.listening
        unended := fun _ => ⟨signals, breaches, open_, ?_⟩
        ended := fun true_ => absurd (ended.symm.trans true_) (by simp)
        last := fun true_ => absurd (ended.symm.trans true_) (by simp)
        finished := fun _ true_ => absurd (open_.symm.trans true_) (by simp)
        breach := sound.breach
        none_lost := fun live => ?_
        returned := sound.returned.trans (List.prefix_append _ _)
        waiting := sound.waiting }
    · intro signal listed
      rcases List.mem_append.1 listed with old | new
      · exact items signal old
      · rw [List.mem_singleton.1 new]
        exact fun same => nomatch same
    · have before := sound.none_lost live
      simp [before]

theorem sound_signalEnd {s : Session} (sound : s.Sound) : s.signalEnd.Sound := by
  cases ended : s.channel.ended with
  | true =>
    have signalled : s.signalEnd = { s with
        channel := s.channel.record .repeatedEnd
        signals := s.signals ++ [.refused .repeatedEnd]
        breaches := s.breaches ++ [.repeatedEnd] } := by
      simp [signalEnd, Channel.signalEnd, ended, breachOf]
    rw [signalled]
    exact
      { listening := sound.listening
        unended := fun unended => absurd (ended.symm.trans unended) (by simp)
        ended := fun _ => by simpa [List.count_append] using sound.ended ended
        last := sound.last
        finished := sound.finished
        breach := fun live => by
          simp [Channel.record, sound.breach live, List.head?_append]
        none_lost := sound.none_lost
        returned := sound.returned
        waiting := sound.waiting }
  | false =>
    obtain ⟨signals, breaches, open_, items⟩ := sound.unended ended
    have signalled : s.signalEnd = { s with
        channel := { s.channel with ended := true, queue := s.channel.queue ++ [.ended] }
        signals := s.signals ++ [.accepted] } := by
      simp [signalEnd, Channel.signalEnd, ended, sound.listening, breachOf]
    rw [signalled]
    exact
      { listening := sound.listening
        unended := fun false_ => nomatch false_
        ended := fun _ => by simp [signals]
        last := fun _ _ _ => ⟨s.channel.queue, rfl, items⟩
        finished := fun _ true_ => absurd (open_.symm.trans true_) (by simp)
        breach := sound.breach
        none_lost := fun live => by simpa using sound.none_lost live
        returned := sound.returned
        waiting := sound.waiting }

theorem sound_emitters {s : Session} (sound : s.Sound) (emitters : Nat) :
    { s with channel := { s.channel with emitters } }.Sound :=
  { sound with }

/-! ## What the next pull gives -/

/-- A breach is what the consumer is told next. -/
theorem next_of_breach {s : Session} (sound : s.Sound) (live : s.failure = none) {breach : Breach}
    {later : List Breach} (breaches : s.breaches = breach :: later) :
    s.next.1 = .failed breach := by
  have kept : s.channel.breach = some breach := by simp [sound.breach live, breaches]
  cases waits : s.waiting with
  | false => simp [next, waits, Channel.pull, kept]
  | true =>
    -- A consumer that waits has not taken the end, which therefore stands in the queue.
    have ended : s.channel.ended = true := by
      by_contra unended
      have := (sound.unended (by simpa using unended)).2.1
      simp [this] at breaches
    obtain ⟨front, queue, -⟩ := sound.last ended live (sound.waiting waits).2
    rw [next, waits, if_pos rfl, Channel.receive]
    cases front with
    | nil => simp [queue, kept]
    | cons signal front => cases signal <;> simp [queue, kept]

/-- The channel whose next signal a consumer takes that is told of nothing. It is the channel of
the session, except that the item before is settled. -/
structure TakesFrom (s : Session) (channel : Channel) : Prop where
  queue : channel.queue = s.channel.queue
  emitters : channel.emitters = s.channel.emitters
  listening : channel.listening = s.channel.listening
  ended : channel.ended = s.channel.ended
  unfinished : channel.finished = false
  calm : channel.breach = none
  unfinished_before : s.channel.finished = false
  next : s.next = channel.receive

/-- Where there is no breach, the consumer is at the end already or takes the next signal. -/
theorem next_calm {s : Session} (sound : s.Sound) (live : s.failure = none)
    (calm : s.breaches = []) :
    (s.channel.finished = true ∧ s.next = (.ended, s.channel.acceptHeld)) ∨
      ∃ channel, s.TakesFrom channel := by
  have kept : s.channel.breach = none := by simp [sound.breach live, calm]
  cases waits : s.waiting with
  | true =>
    have open_ := (sound.waiting waits).2
    exact .inr ⟨s.channel, rfl, rfl, rfl, rfl, open_, kept, open_, by simp [next, waits]⟩
  | false =>
    cases finished : s.channel.finished with
    | true => exact .inl ⟨rfl, by simp [next, waits, Channel.pull, kept, finished]⟩
    | false =>
      refine .inr ⟨s.channel.acceptHeld, ?_, ?_, ?_, ?_, ?_, ?_, finished, ?_⟩ <;>
        simp [next, waits, kept, finished, Channel.pull_eq_receive]

/-- A pull that is told of a breach is the last one. -/
theorem sound_failed {s : Session} (sound : s.Sound) {breach : Breach}
    (unended : s.channel.ended = false →
      s.next.2.finished = false ∧ ∀ signal ∈ s.next.2.queue, signal ≠ .ended) :
    { s with channel := s.next.2, waiting := false, failure := some breach }.Sound := by
  have keeps : s.next.2.listening = s.channel.listening ∧ s.next.2.ended = s.channel.ended := by
    unfold next
    split
    · exact ⟨s.channel.receive_keeps.1, s.channel.receive_keeps.2.1⟩
    · exact ⟨s.channel.pull_keeps.1, s.channel.pull_keeps.2.1⟩
  exact
    { listening := keeps.1.trans sound.listening
      unended := fun false_ =>
        have old := sound.unended (keeps.2.symm.trans false_)
        ⟨old.1, old.2.1, unended (keeps.2.symm.trans false_)⟩
      ended := fun true_ => sound.ended (keeps.2.symm.trans true_)
      last := fun _ live => nomatch live
      finished := fun live => nomatch live
      breach := fun live => nomatch live
      none_lost := fun live => nomatch live
      returned := sound.returned
      waiting := fun waits => nomatch waits }

section

variable {s : Session} {channel : Channel} (sound : s.Sound) (live : s.failure = none)
  (calm : s.breaches = []) (takes : s.TakesFrom channel)
include sound live calm takes

/-- A consumer that has to wait leaves the channel as it is. -/
theorem sound_waiting (empty : channel.queue = []) :
    { s with channel, waiting := true }.Sound := by
  have nothing : s.channel.queue = [] := takes.queue.symm.trans empty
  refine
    { listening := takes.listening.trans sound.listening
      unended := fun false_ => ?_
      ended := fun true_ => sound.ended (takes.ended.symm.trans true_)
      last := fun true_ _ _ => ?_
      finished := fun _ _ => empty
      breach := fun _ => by simp [takes.calm, calm]
      none_lost := fun _ => by simpa [nothing, empty] using sound.none_lost live
      returned := sound.returned
      waiting := fun _ => ⟨live, takes.unfinished⟩ }
  · have old := sound.unended (takes.ended.symm.trans false_)
    exact ⟨old.1, old.2.1, takes.unfinished, by simp [empty]⟩
  · obtain ⟨front, same, -⟩ :=
      sound.last (takes.ended.symm.trans true_) live takes.unfinished_before
    simp [nothing] at same

/-- An item goes from the queue to the consumer. -/
theorem sound_item {ticket : Nat} {item : Item} {rest : List Signal}
    (queue : channel.queue = .item ticket item :: rest) :
    { s with
      channel := { channel with queue := rest, held := some ticket }
      waiting := false, returned := s.returned ++ [item] }.Sound := by
  have before : s.channel.queue = .item ticket item :: rest := takes.queue.symm.trans queue
  have lost := sound.none_lost live
  rw [before] at lost
  refine
    { listening := takes.listening.trans sound.listening
      unended := fun false_ => ?_
      ended := fun true_ => sound.ended (takes.ended.symm.trans true_)
      last := fun true_ _ _ => ?_
      finished := fun _ true_ => absurd (takes.unfinished.symm.trans true_) (by simp)
      breach := fun _ => by simp [takes.calm, calm]
      none_lost := fun _ => by simpa using lost
      returned := ⟨queued rest, by simpa using lost.symm⟩
      waiting := fun waits => nomatch waits }
  · have old := sound.unended (takes.ended.symm.trans false_)
    exact ⟨old.1, old.2.1, takes.unfinished, fun signal listed =>
      old.2.2.2 signal (by simp [before, listed])⟩
  · obtain ⟨front, same, items⟩ :=
      sound.last (takes.ended.symm.trans true_) live takes.unfinished_before
    rw [before] at same
    cases front with
    | nil => simp at same
    | cons first front =>
      exact ⟨front, (List.cons.inj same).2, fun signal listed => items signal (by simp [listed])⟩

omit calm in
/-- The end stands alone in the queue when the consumer takes it, and it was signalled. -/
theorem signalled_of_ended {rest : List Signal} (queue : channel.queue = .ended :: rest) :
    channel.ended = true ∧ rest = [] := by
  have before : s.channel.queue = .ended :: rest := takes.queue.symm.trans queue
  have signalled : s.channel.ended = true := by
    by_contra false_
    exact (sound.unended (by simpa using false_)).2.2.2 .ended (by simp [before]) rfl
  obtain ⟨front, same, items⟩ := sound.last signalled live takes.unfinished_before
  rw [before] at same
  cases front with
  | nil => exact ⟨takes.ended.trans signalled, (List.cons.inj same).2⟩
  | cons first front => exact absurd (List.cons.inj same).1.symm (items first (by simp))

/-- The end goes from the queue to the consumer. -/
theorem sound_over {rest : List Signal} (queue : channel.queue = .ended :: rest) :
    { s with
      channel := { channel with queue := rest, finished := true }, waiting := false }.Sound := by
  obtain ⟨signalled, rfl⟩ := signalled_of_ended sound live takes queue
  have lost := sound.none_lost live
  rw [takes.queue.symm.trans queue] at lost
  exact
    { listening := takes.listening.trans sound.listening
      unended := fun false_ => absurd (signalled.symm.trans false_) (by simp)
      ended := fun true_ => sound.ended (takes.ended.symm.trans true_)
      last := fun _ _ false_ => nomatch false_
      finished := fun _ _ => rfl
      breach := fun _ => by simp [takes.calm, calm]
      none_lost := fun _ => by simpa using lost
      returned := sound.returned
      waiting := fun waits => nomatch waits }

end

theorem sound_pull {s : Session} (sound : s.Sound) (live : s.failure = none) : s.pull.Sound := by
  cases breaches : s.breaches with
  | cons breach later =>
    simp only [pull, next_of_breach sound live breaches]
    refine sound_failed sound fun unended => ?_
    simp [(sound.unended unended).2.1] at breaches
  | nil =>
    rcases next_calm sound live breaches with ⟨finished, next⟩ | ⟨channel, takes⟩
    · simp only [pull, next]
      exact
        { listening := by simpa using sound.listening
          unended := by simpa using sound.unended
          ended := by simpa using sound.ended
          last := by simpa using sound.last
          finished := by simpa using sound.finished
          breach := by simpa using sound.breach
          none_lost := by simpa using sound.none_lost
          returned := sound.returned
          waiting := fun waits => nomatch waits }
    · cases queue : channel.queue with
      | nil =>
        by_cases gone : channel.emitters = 0
        · have failed : s.next = (.failed .missingEnd, channel) := by
            simp [takes.next, Channel.receive, queue, gone]
          have behind := @sound_failed s sound .missingEnd fun _ => by
            rw [failed]
            exact ⟨takes.unfinished, by simp [queue]⟩
          simpa only [pull, failed] using behind
        · have waits : s.next = (.waiting, channel) := by
            simp [takes.next, Channel.receive, queue, gone]
          simpa only [pull, waits] using sound_waiting sound live breaches takes queue
      | cons signal rest =>
        cases signal with
        | item ticket item =>
          have given : s.next =
              (.item item, { channel with queue := rest, held := some ticket }) := by
            simp [takes.next, Channel.receive, queue, takes.calm]
          simpa only [pull, given] using sound_item sound live breaches takes queue
        | ended =>
          have told : s.next = (.ended, { channel with queue := rest, finished := true }) := by
            simp [takes.next, Channel.receive, queue, takes.calm]
          simpa only [pull, told] using sound_over sound live breaches takes queue

/-- What the parties do keeps the invariant. -/
theorem sound_step {s s' : Session} {act : Act} (sound : s.Sound) (h : s.step act = some s') :
    s'.Sound := by
  rcases step_cases h with ⟨item, -, rfl⟩ | ⟨-, rfl⟩ | ⟨emitters, rfl⟩ | ⟨-, live, rfl⟩
  · exact sound_send sound item
  · exact sound_signalEnd sound
  · exact sound_emitters sound emitters
  · exact sound_pull sound live

/-- The invariant holds in every course. -/
theorem sound_after {acts : List Act} {s : Session} (course : after acts = some s) : s.Sound := by
  suffices run : ∀ (acts : List Act) (start : Session), start.Sound →
      acts.foldlM step start = some s → s.Sound from run acts {} sound_start course
  intro acts
  induction acts with
  | nil =>
    intro start sound course
    cases course
    exact sound
  | cons act acts ih =>
    intro start sound course
    obtain ⟨middle, first, rest⟩ := Option.bind_eq_some_iff.1 course
    exact ih middle (sound_step sound first) rest

/-- The end is given only behind everything that was sent, and to a consumer that is told of no
breach. -/
theorem next_eq_ended {s : Session} (sound : s.Sound) (live : s.failure = none)
    (told : s.next.1 = .ended) :
    s.signals.count .accepted = 1 ∧ s.breaches = [] ∧ s.returned = s.accepted := by
  have calm : s.breaches = [] := by
    cases breaches : s.breaches with
    | nil => rfl
    | cons breach later => simp [next_of_breach sound live breaches] at told
  have lost := sound.none_lost live
  rcases next_calm sound live calm with ⟨finished, -⟩ | ⟨channel, takes⟩
  · have ended : s.channel.ended = true := by
      by_contra false_
      have := (sound.unended (by simpa using false_)).2.2.1
      simp [this] at finished
    refine ⟨sound.ended ended, calm, ?_⟩
    simpa [sound.finished live finished] using lost.symm
  · rw [takes.next, Channel.receive] at told
    cases queue : channel.queue with
    | nil =>
      rw [queue] at told
      by_cases gone : channel.emitters = 0 <;> simp [gone] at told
    | cons signal rest =>
      cases signal with
      | item ticket item => simp [queue, takes.calm] at told
      | ended =>
        obtain ⟨signalled, rfl⟩ := signalled_of_ended sound live takes queue
        rw [takes.queue.symm.trans queue] at lost
        exact ⟨sound.ended (takes.ended.symm.trans signalled), calm, by simpa using lost.symm⟩

/-- Without emitters and without an end, the consumer gets what is left of what was sent, and then
is told that the end is missing. -/
theorem next_of_deserted {s : Session} (sound : s.Sound) (live : s.failure = none)
    (deserted : s.channel.emitters = 0) (unended : s.signals = []) :
    s.next.1 =
      match s.accepted[s.returned.length]? with
      | some item => .item item
      | none => .failed .missingEnd := by
  have false_ : s.channel.ended = false := by
    by_contra true_
    have := sound.ended (by simpa using true_)
    simp [unended] at this
  obtain ⟨-, calm, unfinished, items⟩ := sound.unended false_
  have lost := sound.none_lost live
  rcases next_calm sound live calm with ⟨finished, -⟩ | ⟨channel, takes⟩
  · exact absurd (unfinished.symm.trans finished) (by simp)
  · rw [takes.next, Channel.receive]
    cases queue : channel.queue with
    | nil =>
      rw [takes.queue.symm.trans queue] at lost
      simp [lost, takes.emitters, deserted]
    | cons signal rest =>
      rw [takes.queue.symm.trans queue] at lost items
      cases signal with
      | item ticket item => simp [lost, takes.calm]
      | ended => exact absurd rfl (items .ended (by simp))

/-- In every course of a channel, up to the first pull that fails, the consumer is given what was
sent, in order and without loss. It is given the end only when this was signalled once, without
a breach, and everything sent was given before. A breach is what it is told next. Where every
emitter is gone and none has signalled the end, it is told so behind the last item. -/
theorem delivers {acts : List Act} {s : Session} (course : after acts = some s) :
    s.returned <+: s.accepted ∧
    (s.failure = none →
      s.accepted = s.returned ++ queued s.channel.queue ∧
      (s.next.1 = .ended →
        s.signals.count .accepted = 1 ∧ s.breaches = [] ∧ s.returned = s.accepted) ∧
      (∀ breach later, s.breaches = breach :: later → s.next.1 = .failed breach) ∧
      (s.channel.emitters = 0 → s.signals = [] →
        s.next.1 =
          match s.accepted[s.returned.length]? with
          | some item => .item item
          | none => .failed .missingEnd)) := by
  have sound := sound_after course
  refine ⟨sound.returned, fun live => ⟨sound.none_lost live, ?_, ?_, ?_⟩⟩
  · exact next_eq_ended sound live
  · exact fun _ _ breaches => next_of_breach sound live breaches
  · exact next_of_deserted sound live

/-- The end is signalled again while the consumer waits behind an item. The pull that waits is told
so, although the end stands in the queue. -/
theorem delivers_repeatedEnd :
    ∃ s, after [.pull, .addEmitter, .send ⟨none, .null⟩, .pull, .pull, .signalEnd, .signalEnd]
        = some s ∧
      s.waiting = true ∧ s.returned <+: [⟨none, .null⟩] ∧ s.next.1 = .failed .repeatedEnd := by
  obtain ⟨s, course⟩ : ∃ s, after
      [.pull, .addEmitter, .send ⟨none, .null⟩, .pull, .pull, .signalEnd, .signalEnd]
        = some s := ⟨_, rfl⟩
  have facts := delivers course
  cases course
  exact ⟨_, rfl, rfl, facts.1, (facts.2 rfl).2.2.1 .repeatedEnd [] rfl⟩

end Session

end Stencil.Stream
