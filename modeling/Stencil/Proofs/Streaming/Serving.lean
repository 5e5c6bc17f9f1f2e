import Stencil.Proofs.Streaming.Tickets
/-!
# A producer that keeps to the protocol

A producer sends some items, one after the other, and signals the end. As long as its consumer is there,
the channel between the two is in one of few phases (`Serves`), whatever the order in which they take
their turns. When the consumer has gone away, the calls of the producer are resolved up to the last item
that was accepted, and the others are closed (`Deserted`).
-/

set_option autoImplicit false

namespace Stencil.Stream

/-! ## Calls of a producer -/

/-- The steps of a producer that sends items and then signals the end. -/
def stepsFor (items : List Item) : List Step := items.map .send ++ [.signalEnd]

/-- How the calls of the producer are resolved when its consumer accepts all items. -/
def acceptedAll (items : List Item) : List (Step × Outcome) := (stepsFor items).map (·, .accepted)

/-- How they are resolved when the consumer accepts some items, and then goes away. -/
def acceptedUpTo (count : Nat) (items : List Item) : List (Step × Outcome) :=
  ((items.take count).map fun item => (.send item, .accepted)) ++
    (stepsFor (items.drop count)).map (·, .closed)

/-- The calls that have sent items, all accepted. -/
def accepts (items : List Item) : List (Step × Outcome) := items.map fun item => (.send item, .accepted)

theorem accepts_concat (before : List Item) (item : Item) :
    accepts (before ++ [item]) = accepts before ++ [(.send item, .accepted)] := by
  simp [accepts]

theorem acceptedAll_eq (items : List Item) : acceptedAll items = accepts items ++ [(.signalEnd, .accepted)] := by
  simp [acceptedAll, stepsFor, accepts]

theorem acceptedUpTo_append (before rest : List Item) :
    acceptedUpTo before.length (before ++ rest) = accepts before ++ (stepsFor rest).map (·, .closed) := by
  simp [acceptedUpTo, accepts]

/-- What an outcome says of the number of the items that were accepted, when it is that of the item
behind some others and of the last item that was sent. -/
def Fares (outcome : Outcome) (before count : Nat) : Prop :=
  outcome = .accepted ∧ count = before + 1 ∨ outcome = .closed ∧ count = before

theorem accepts_append_closed {before : List Item} (item : Item) (rest : List Item) {outcome : Outcome}
    {count : Nat} (fared : Fares outcome before.length count) :
    accepts before ++ (.send item, outcome) :: (stepsFor rest).map (·, .closed) =
      acceptedUpTo count (before ++ item :: rest) := by
  rcases fared with ⟨rfl, rfl⟩ | ⟨rfl, rfl⟩
  · have length : before.length + 1 = (before ++ [item]).length := by
      rw [List.length_append, List.length_singleton]
    rw [List.append_cons before, length, acceptedUpTo_append, accepts_concat, List.append_assoc]
    rfl
  · exact (acceptedUpTo_append before (item :: rest)).symm

/-- The tickets below a number, all accepted, latest first. -/
def acceptedBelow : Nat → List (Nat × Outcome)
  | 0 => []
  | count + 1 => (count, .accepted) :: acceptedBelow count

theorem length_acceptedBelow (count : Nat) : (acceptedBelow count).length = count := by
  induction count with
  | zero => rfl
  | succ count ih => rw [acceptedBelow, List.length_cons, ih]

theorem lt_of_mem_acceptedBelow {count : Nat} {entry : Nat × Outcome} (listed : entry ∈ acceptedBelow count) :
    entry.1 < count := by
  induction count with
  | zero => cases listed
  | succ count ih =>
    rcases List.mem_cons.1 listed with rfl | listed
    · exact Nat.lt_succ_self _
    · exact Nat.lt_succ_of_lt (ih listed)

/-- The next ticket is not settled. -/
theorem outcome?_next {channel : Channel} {count : Nat} (settled : channel.settled = acceptedBelow count) :
    channel.outcome? count = none := by
  unfold Channel.outcome?
  rw [settled, Option.map_eq_none_iff, List.find?_eq_none]
  intro entry listed
  have less := lt_of_mem_acceptedBelow listed
  simp only [decide_eq_true_eq]
  omega

/-- The ticket that was settled last has the outcome it was given. -/
theorem outcome?_last {channel : Channel} {ticket : Nat} {outcome : Outcome} {rest : List (Nat × Outcome)}
    (settled : channel.settled = (ticket, outcome) :: rest) : channel.outcome? ticket = some outcome := by
  simp [Channel.outcome?, settled]

namespace Producer

/-- A producer does not go on before its ticket is settled. -/
theorem proceed_waits {channel : Channel} {ticket : Nat} {step : Step} {rest : List Step}
    (unsettled : channel.outcome? ticket = none) :
    ({ steps := step :: rest, ticket := some ticket } : Producer).proceed channel =
      ⟨[], { steps := step :: rest, ticket := some ticket }, channel⟩ := by
  simp [proceed, unsettled]

theorem proceed_told {channel : Channel} {ticket : Nat} {step : Step} {rest : List Step} {outcome : Outcome}
    (settled : channel.outcome? ticket = some outcome) :
    ({ steps := step :: rest, ticket := some ticket } : Producer).proceed channel =
      (takeSteps channel rest).after step outcome := by
  simp [proceed, settled]

theorem proceed_gone {channel : Channel} {producer : Producer} (gone : producer.gone = true) :
    producer.proceed channel = ⟨[], producer, channel⟩ := by
  rw [proceed, if_pos gone]

/-- What the consumer holds, and that it has taken the end, a turn of a producer does not change. -/
theorem proceed_keeps (producer : Producer) (channel : Channel) :
    (producer.proceed channel).channel.held = channel.held ∧
      (producer.proceed channel).channel.finished = channel.finished := by
  obtain ⟨items, emits⟩ := Channel.emits_proceed producer channel
  refine ⟨emits.keeps.2.1, ?_⟩
  generalize (producer.proceed channel).channel = next at emits
  induction emits with
  | done channel => rfl
  | @send channel next last item items ticket sent later ih =>
    refine ih.trans ?_
    unfold Channel.send at sent
    split at sent
    · cases sent
    · split at sent
      · cases sent
        rfl
      · cases sent
  | @refused channel next last item items outcome refused later ih =>
    refine ih.trans ?_
    unfold Channel.send at refused
    split at refused
    · cases refused
      rfl
    · split at refused
      · cases refused
      · cases refused
        rfl
  | @signalEnd channel last items later ih =>
    refine ih.trans ?_
    unfold Channel.signalEnd
    split
    · rfl
    · split <;> rfl
  | addEmitter later ih => exact ih
  | dropEmitter later ih => exact ih

end Producer

/-! ## The consumer is there -/

/-- The phases of a channel whose producer sends items and then signals the end, with the number of the
items that the consumer was given, and with the calls of the producer that are resolved. -/
inductive Serves (items : List Item) : Nat → Channel → Producer → List (Step × Outcome) → Prop
  /-- The producer has done nothing. -/
  | begun : Serves items 0 {} { steps := stepsFor items } []
  /-- An item was sent and not taken. -/
  | sent {before rest : List Item} {item : Item} (split : items = before ++ item :: rest) :
    Serves items before.length
      { queue := [.item before.length item], tickets := before.length + 1
        settled := acceptedBelow before.length }
      { steps := .send item :: stepsFor rest, ticket := some before.length } (accepts before)
  /-- The consumer uses an item. -/
  | used {before rest : List Item} {item : Item} (split : items = before ++ item :: rest) :
    Serves items (before.length + 1)
      { held := some before.length, tickets := before.length + 1
        settled := acceptedBelow before.length }
      { steps := .send item :: stepsFor rest, ticket := some before.length } (accepts before)
  /-- The consumer has come back for the next item. -/
  | accepted {before rest : List Item} {item : Item} (split : items = before ++ item :: rest) :
    Serves items (before.length + 1)
      { tickets := before.length + 1, settled := acceptedBelow (before.length + 1) }
      { steps := .send item :: stepsFor rest, ticket := some before.length } (accepts before)
  /-- The producer has signalled the end. -/
  | signalled {producer : Producer} (gone : producer.gone = true) :
    Serves items items.length
      { queue := [.ended], emitters := 0, ended := true, tickets := items.length
        settled := acceptedBelow items.length } producer (acceptedAll items)
  /-- The consumer has taken the end. -/
  | finished {producer : Producer} (gone : producer.gone = true) :
    Serves items items.length
      { emitters := 0, ended := true, finished := true, tickets := items.length
        settled := acceptedBelow items.length } producer (acceptedAll items)

/-- What a consumer gets of such a channel, and the channel behind that. -/
inductive Takes (items : List Item) (given : Nat) (producer : Producer) (resolved : List (Step × Outcome))
    (channel behind : Channel) : Delivery → Prop
  | waiting (serves : Serves items given behind producer resolved) (free : behind.held = none)
    (open_ : channel.finished = false) (still : behind.finished = false) :
    Takes items given producer resolved channel behind .waiting
  | item {item : Item} (serves : Serves items (given + 1) behind producer resolved)
    (holds : behind.held ≠ none) (open_ : channel.finished = false) :
    Takes items given producer resolved channel behind (.item item)
  | ended (serves : Serves items given behind producer resolved) (free : behind.held = none)
    (told : behind.finished = true) : Takes items given producer resolved channel behind .ended

namespace Serves

variable {items : List Item} {given : Nat} {channel : Channel} {producer : Producer}
  {resolved : List (Step × Outcome)}

/-- The items that were given are those that were accepted, and the one in use. -/
theorem given_eq (serves : Serves items given channel producer resolved) :
    channel.settled.length + channel.held.toList.length = given := by
  cases serves with
  | begun => rfl
  | sent split | used split | accepted split => simp [length_acceptedBelow]
  | signalled gone | finished gone => simp [length_acceptedBelow]

/-- No more items are given than there are. -/
theorem given_le (serves : Serves items given channel producer resolved) : given ≤ items.length := by
  cases serves with
  | begun => exact Nat.zero_le _
  | sent split | used split | accepted split =>
    rw [split, List.length_append, List.length_cons]
    omega
  | signalled gone | finished gone => exact Nat.le_refl _

/-- When the consumer has taken the end, all calls were accepted. -/
theorem resolved_of_finished (serves : Serves items given channel producer resolved)
    (finished : channel.finished = true) : producer.gone = true ∧ resolved = acceptedAll items := by
  cases serves with
  | finished gone => exact ⟨gone, rfl⟩
  | begun | sent | used | accepted | signalled => cases finished

/-- A consumer that has waited goes on with the queue. -/
theorem receive (serves : Serves items given channel producer resolved) (free : channel.held = none)
    (open_ : channel.finished = false) :
    Takes items given producer resolved channel channel.receive.2 channel.receive.1 := by
  cases serves with
  | begun => exact .waiting .begun rfl rfl rfl
  | sent split => exact .item (.used split) (Option.some_ne_none _) rfl
  | used split => cases free
  | accepted split => exact .waiting (.accepted split) rfl rfl rfl
  | signalled gone => exact .ended (.finished gone) rfl rfl
  | finished gone => cases open_

/-- A consumer that asks for the next item has accepted the one before. -/
theorem pull (serves : Serves items given channel producer resolved) :
    Takes items given producer resolved channel channel.pull.2 channel.pull.1 := by
  cases serves with
  | begun => exact .waiting .begun rfl rfl rfl
  | sent split => exact .item (.used split) (Option.some_ne_none _) rfl
  | used split | accepted split => exact .waiting (.accepted split) rfl rfl rfl
  | signalled gone => exact .ended (.finished gone) rfl rfl
  | finished gone => exact .ended (.finished gone) rfl rfl

/-- Where nothing is under way, the next item is sent, or the end is signalled. -/
theorem takeSteps (before rest : List Item) (split : items = before ++ rest) :
    let turn := Producer.takeSteps { tickets := before.length, settled := acceptedBelow before.length }
      (stepsFor rest)
    Serves items before.length turn.channel turn.producer (accepts before ++ turn.settled) := by
  cases rest with
  | nil =>
    obtain rfl : items = before := split.trans (List.append_nil _)
    show Serves items items.length _ _ (accepts items ++ [(.signalEnd, .accepted)])
    rw [← acceptedAll_eq]
    exact .signalled rfl
  | cons item rest =>
    show Serves items before.length _ _ (accepts before ++ [])
    rw [List.append_nil]
    exact .sent split

/-- A turn of the producer leads to one of the phases. -/
theorem proceed (serves : Serves items given channel producer resolved) :
    Serves items given (producer.proceed channel).channel (producer.proceed channel).producer
      (resolved ++ (producer.proceed channel).settled) := by
  cases serves with
  | begun => exact takeSteps [] items (List.nil_append items).symm
  | sent split =>
    rw [Producer.proceed_waits (outcome?_next rfl), List.append_nil]
    exact .sent split
  | used split =>
    rw [Producer.proceed_waits (outcome?_next rfl), List.append_nil]
    exact .used split
  | @accepted before rest item split =>
    rw [Producer.proceed_told (outcome?_last rfl)]
    have next := takeSteps (before ++ [item]) rest (split.trans (List.append_cons before item rest))
    dsimp only at next
    rw [accepts_concat, List.append_assoc, List.length_append] at next
    exact next
  | signalled gone =>
    rw [Producer.proceed_gone gone, List.append_nil]
    exact .signalled gone
  | finished gone =>
    rw [Producer.proceed_gone gone, List.append_nil]
    exact .finished gone

end Serves

/-! ## The consumer is gone -/

/-- A channel whose consumer went away before the end was signalled. -/
structure Shut (channel : Channel) : Prop where
  listening : channel.listening = false
  ended : channel.ended = false

/-- How far a producer has come whose consumer is gone, with the number of the items that were accepted
and with the calls that are resolved. -/
inductive Deserted (items : List Item) (count : Nat) : Channel → Producer → List (Step × Outcome) → Prop
  /-- The producer has done nothing. -/
  | begun {channel : Channel} (nothing : count = 0) (shut : Shut channel) :
    Deserted items count channel { steps := stepsFor items } []
  /-- The producer has not seen how its last item fared. -/
  | waiting {channel : Channel} {before rest : List Item} {item : Item} {outcome : Outcome}
    (split : items = before ++ item :: rest) (shut : Shut channel)
    (told : channel.outcome? before.length = some outcome)
    (fared : Fares outcome before.length count) :
    Deserted items count channel
      { steps := .send item :: stepsFor rest, ticket := some before.length } (accepts before)
  /-- All calls are resolved. -/
  | resolved {channel : Channel} {producer : Producer} (gone : producer.gone = true) :
    Deserted items count channel producer (acceptedUpTo count items)
  /-- All calls were resolved before the consumer went away. -/
  | complete {channel : Channel} {producer : Producer} (gone : producer.gone = true)
    (all : count = items.length) : Deserted items count channel producer (acceptedAll items)

/-- When the consumer goes away, what it has accepted stays accepted, and it accepts nothing more. -/
theorem Serves.close {items : List Item} {given : Nat} {channel : Channel} {producer : Producer}
    {resolved : List (Step × Outcome)} (serves : Serves items given channel producer resolved) :
    Deserted items channel.settled.length channel.close producer resolved := by
  cases serves with
  | begun => exact .begun rfl ⟨rfl, rfl⟩
  | sent split | used split =>
    exact .waiting split ⟨rfl, rfl⟩ (outcome?_last rfl) (.inr ⟨rfl, length_acceptedBelow _⟩)
  | accepted split =>
    exact .waiting split ⟨rfl, rfl⟩ (outcome?_last rfl) (.inl ⟨rfl, length_acceptedBelow _⟩)
  | signalled gone | finished gone => exact .complete gone (length_acceptedBelow _)

namespace Deserted

variable {items : List Item} {count : Nat} {channel : Channel} {producer : Producer}
  {resolved : List (Step × Outcome)}

/-- Nothing is sent on a channel whose consumer is gone. -/
theorem takeSteps (shut : Shut channel) (rest : List Item) :
    (Producer.takeSteps channel (stepsFor rest)).settled = (stepsFor rest).map (·, .closed) ∧
      (Producer.takeSteps channel (stepsFor rest)).producer.gone = true := by
  induction rest with
  | nil =>
    have signalled : channel.signalEnd = (.closed, { channel with ended := true }) := by
      simp [Channel.signalEnd, shut.listening, shut.ended]
    show (Producer.takeSteps channel [.signalEnd]).settled = [(.signalEnd, .closed)] ∧ _
    rw [Producer.takeSteps, signalled]
    exact ⟨rfl, rfl⟩
  | cons item rest ih =>
    have sent : channel.send item = (.error .closed, channel) := by
      simp [Channel.send, shut.listening, shut.ended]
    show (Producer.takeSteps channel (.send item :: stepsFor rest)).settled =
      (.send item, .closed) :: (stepsFor rest).map (·, .closed) ∧
        (Producer.takeSteps channel (.send item :: stepsFor rest)).producer.gone = true
    rw [Producer.takeSteps, sent]
    exact ⟨congrArg (List.cons (Step.send item, Outcome.closed)) ih.1, ih.2⟩

/-- A producer whose consumer is gone has all its calls resolved when it has its turn. -/
theorem proceed (deserted : Deserted items count channel producer resolved) :
    Deserted items count (producer.proceed channel).channel (producer.proceed channel).producer
      (resolved ++ (producer.proceed channel).settled) ∧ (producer.proceed channel).producer.gone = true := by
  cases deserted with
  | begun nothing shut =>
    obtain ⟨settled, gone⟩ := takeSteps shut items
    have turn : ({ steps := stepsFor items } : Producer).proceed channel =
      Producer.takeSteps channel (stepsFor items) := rfl
    rw [turn, settled, nothing]
    exact ⟨.resolved gone, gone⟩
  | @waiting before rest item outcome split shut told fared =>
    obtain ⟨settled, gone⟩ := takeSteps shut rest
    have calls := accepts_append_closed item rest fared
    rw [Producer.proceed_told told]
    show Deserted items count _ _ (accepts before ++ (.send item, outcome) ::
      (Producer.takeSteps channel (stepsFor rest)).settled) ∧ _
    rw [settled, calls, ← split]
    exact ⟨.resolved gone, gone⟩
  | resolved gone =>
    rw [Producer.proceed_gone gone, List.append_nil]
    exact ⟨.resolved gone, gone⟩
  | complete gone all =>
    rw [Producer.proceed_gone gone, List.append_nil]
    exact ⟨.complete gone all, gone⟩

/-- Where not all items were accepted, the calls are resolved up to the first that was not, and all of
them when the producer is gone. -/
theorem resolves (deserted : Deserted items count channel producer resolved) (less : count < items.length) :
    resolved <+: acceptedUpTo count items ∧ (producer.gone = true → resolved = acceptedUpTo count items) := by
  cases deserted with
  | begun nothing shut => exact ⟨List.nil_prefix, fun gone => Bool.noConfusion gone⟩
  | @waiting before rest item outcome split shut told fared =>
    refine ⟨?_, fun gone => Bool.noConfusion gone⟩
    rw [split, ← accepts_append_closed item rest fared]
    exact List.prefix_append _ _
  | resolved gone => exact ⟨List.prefix_rfl, fun _ => rfl⟩
  | complete gone all => exact absurd all (Nat.ne_of_lt less)

end Deserted

end Stencil.Stream
