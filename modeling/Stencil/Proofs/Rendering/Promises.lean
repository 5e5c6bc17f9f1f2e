import Stencil.Proofs.Rendering.Views
/-!
# What a channel promises

A channel with one producer will give its consumer the items that the producer sends, up to the
signal of the end or a breach of the protocol. What it still gives is settled by its state and that
of the producer (`Promises`): the turns of the producer do not change it, and the consumer takes one
entry after the other from it.
-/

set_option autoImplicit false

namespace Stencil.Render

open Stencil.Stream

/-- The failure that a consumer is told of when the protocol is breached. -/
def causeOf (breach : Breach) : Cause := { text := breach.message, violation := true }

/-- The breach that the first step behind the signal of the end commits. -/
def breachBehindEnd : List Step → Option Breach
  | [] => none
  | .send _ :: _ => some .dataAfterEnd
  | .signalEnd :: _ => some .repeatedEnd

/-- What is left for a consumer when all is told but a breach. -/
def ofBreach (breach : Option Breach) : Script := breach.toList.map fun breach => .error (causeOf breach)

/-- What the consumer of a channel gets when its producer takes some steps. -/
def scriptOfSteps : List Step → Script
  | [] => ofBreach (some .missingEnd)
  | .send item :: rest => .ok item :: scriptOfSteps rest
  | .signalEnd :: rest => ofBreach (breachBehindEnd rest)

/-- A channel whose consumer is there and was told of no end. -/
structure Live (channel : Channel) : Prop where
  listening : channel.listening = true
  finished : channel.finished = false
  settled : ∀ entry ∈ channel.settled, entry.1 < channel.tickets

/-- A channel in which nothing is under way. -/
structure Idle (channel : Channel) : Prop extends Live channel where
  queue : channel.queue = []
  held : channel.held = none
  ended : channel.ended = false
  breach : channel.breach = none
  emitters : channel.emitters = 1

/-- What a channel with a producer still gives. -/
inductive Promises : Channel → Producer → Script → Prop
  /-- The producer can go on. -/
  | idle {channel : Channel} {steps : List Step} (idle : Idle channel) :
    Promises channel { steps } (scriptOfSteps steps)
  /-- An item was sent and not taken. -/
  | offered {channel : Channel} {item : Item} {rest : List Step} {ticket : Nat}
    (idle : Idle { channel with queue := [] }) (queue : channel.queue = [.item ticket item])
    (bound : ticket < channel.tickets) (unsettled : channel.outcome? ticket = none) :
    Promises channel { steps := .send item :: rest, ticket := some ticket }
      (.ok item :: scriptOfSteps rest)
  /-- The consumer uses an item. -/
  | held {channel : Channel} {item : Item} {rest : List Step} {ticket : Nat}
    (idle : Idle { channel with held := none }) (held : channel.held = some ticket)
    (bound : ticket < channel.tickets) (unsettled : channel.outcome? ticket = none) :
    Promises channel { steps := .send item :: rest, ticket := some ticket } (scriptOfSteps rest)
  /-- An item was accepted. -/
  | accepted {channel : Channel} {step : Step} {rest : List Step} {ticket : Nat}
    (idle : Idle channel) (settled : channel.outcome? ticket = some .accepted) :
    Promises channel { steps := step :: rest, ticket := some ticket } (scriptOfSteps rest)
  /-- The producer has signalled the end. -/
  | ended {channel : Channel} {producer : Producer} (live : Live channel)
    (gone : producer.gone = true) (held : channel.held = none)
    (queue : channel.queue = [.ended]) :
    Promises channel producer (ofBreach channel.breach)
  /-- The producer is gone without a signal. -/
  | deserted {channel : Channel} {producer : Producer} (live : Live channel)
    (gone : producer.gone = true) (held : channel.held = none)
    (breach : channel.breach = none) (queue : channel.queue = [])
    (emitters : channel.emitters = 0) :
    Promises channel producer (ofBreach (some .missingEnd))

namespace Promises

variable {channel : Channel} {producer : Producer} {script : Script}

theorem live (promises : Promises channel producer script) : Live channel := by
  cases promises with
  | idle idle => exact idle.toLive
  | offered idle => exact ⟨idle.listening, idle.finished, idle.settled⟩
  | held idle => exact ⟨idle.listening, idle.finished, idle.settled⟩
  | accepted idle => exact idle.toLive
  | ended live => exact live
  | deserted live => exact live

/-! ## Turns of the producer -/

/-- Behind the signal of the end nothing is sent, and the first breach is kept. -/
theorem takeSteps_ended {channel : Channel} (ended : channel.ended = true) (steps : List Step) :
    (Producer.takeSteps channel steps).producer.gone = true ∧
      (Producer.takeSteps channel steps).channel =
        { channel with
          emitters := channel.emitters - 1
          breach := channel.breach.or (breachBehindEnd steps) } := by
  induction steps generalizing channel with
  | nil => simp [Producer.takeSteps, breachBehindEnd, Channel.dropEmitter]
  | cons step rest ih =>
    cases step with
    | send item =>
      have sent : channel.send item =
          (.error (.refused .dataAfterEnd), channel.record .dataAfterEnd) := by
        simp [Channel.send, ended]
      obtain ⟨gone, same⟩ := @ih (channel.record .dataAfterEnd) ended
      rw [Producer.takeSteps, sent]
      refine ⟨gone, same.trans ?_⟩
      cases kept : channel.breach <;> simp [Channel.record, breachBehindEnd, kept]
    | signalEnd =>
      have sent : channel.signalEnd = (.refused .repeatedEnd, channel.record .repeatedEnd) := by
        simp [Channel.signalEnd, ended]
      obtain ⟨gone, same⟩ := @ih (channel.record .repeatedEnd) ended
      rw [Producer.takeSteps, sent]
      refine ⟨gone, same.trans ?_⟩
      cases kept : channel.breach <;> simp [Channel.record, breachBehindEnd, kept]

/-- A producer that goes on keeps what its steps promise. -/
theorem of_takeSteps {channel : Channel} (idle : Idle channel) (steps : List Step) :
    Promises (Producer.takeSteps channel steps).channel (Producer.takeSteps channel steps).producer
      (scriptOfSteps steps) := by
  cases steps with
  | nil =>
    refine .deserted ⟨idle.listening, idle.finished, idle.settled⟩ rfl idle.held idle.breach
      idle.queue ?_
    show channel.emitters - 1 = 0
    rw [idle.emitters]
  | cons step rest =>
    cases step with
    | send item =>
      have sent : channel.send item = (.ok channel.tickets,
          { channel with
            queue := channel.queue ++ [.item channel.tickets item]
            tickets := channel.tickets + 1 }) := by
        simp [Channel.send, idle.ended, idle.listening]
      rw [Producer.takeSteps, sent]
      refine .offered ⟨⟨idle.listening, idle.finished, fun entry listed => ?_⟩, rfl, idle.held,
        idle.ended, idle.breach, idle.emitters⟩ ?_ (Nat.lt_succ_self _) ?_
      · exact (idle.settled entry listed).trans (Nat.lt_succ_self _)
      · show channel.queue ++ _ = _
        rw [idle.queue]
        rfl
      · -- A new ticket is not among those that are settled.
        show (channel.settled.find? _).map _ = none
        rw [Option.map_eq_none_iff, List.find?_eq_none]
        intro entry listed
        have := idle.settled entry listed
        simp only [decide_eq_true_eq]
        omega
    | signalEnd =>
      have sent : channel.signalEnd = (.accepted,
          { channel with ended := true, queue := channel.queue ++ [.ended] }) := by
        simp [Channel.signalEnd, idle.ended, idle.listening]
      rw [Producer.takeSteps, sent]
      obtain ⟨gone, same⟩ := @takeSteps_ended
        { channel with ended := true, queue := channel.queue ++ [.ended] } rfl rest
      have promised := @Promises.ended
        (Producer.takeSteps { channel with ended := true, queue := channel.queue ++ [.ended] }
          rest).channel _ (by rw [same]; exact ⟨idle.listening, idle.finished, idle.settled⟩) gone
        (by rw [same]; exact idle.held) (by rw [same, idle.queue]; rfl)
      have breach : (Producer.takeSteps
          { channel with ended := true, queue := channel.queue ++ [.ended] } rest).channel.breach =
          breachBehindEnd rest := by
        rw [same]
        show channel.breach.or _ = _
        rw [idle.breach, Option.none_or]
      rw [breach] at promised
      exact promised

/-- The consumer alone lets go of an item. -/
theorem takeSteps_held (steps : List Step) (channel : Channel) :
    (Producer.takeSteps channel steps).channel.held = channel.held := by
  induction steps generalizing channel with
  | nil => rfl
  | cons step rest ih =>
    cases step with
    | send item =>
      have sent : (channel.send item).2.held = channel.held := by
        unfold Channel.send Channel.record
        split
        · rfl
        · split <;> rfl
      rw [Producer.takeSteps]
      split
      · rename_i ticket behind same
        rwa [same] at sent
      · rename_i outcome behind same
        rw [same] at sent
        exact (ih behind).trans sent
    | signalEnd =>
      have sent : (channel.signalEnd).2.held = channel.held := by
        unfold Channel.signalEnd Channel.record
        split
        · rfl
        · split <;> rfl
      exact (ih _).trans sent

theorem proceed_held (channel : Channel) (producer : Producer) :
    (producer.proceed channel).channel.held = channel.held := by
  unfold Producer.proceed
  split
  · rfl
  · split
    · split
      · rfl
      · exact takeSteps_held _ _
    · exact takeSteps_held _ _

/-- A turn of the producer does not change what is promised. -/
theorem proceed (promises : Promises channel producer script) :
    Promises (producer.proceed channel).channel (producer.proceed channel).producer script := by
  cases promises with
  | idle idle =>
    rw [Producer.proceed, if_neg Bool.false_ne_true]
    exact of_takeSteps idle _
  | offered idle queue bound unsettled =>
    rw [Producer.proceed, if_neg Bool.false_ne_true]
    dsimp only
    rw [unsettled]
    exact .offered idle queue bound unsettled
  | held idle held bound unsettled =>
    rw [Producer.proceed, if_neg Bool.false_ne_true]
    dsimp only
    rw [unsettled]
    exact .held idle held bound unsettled
  | accepted idle settled =>
    rw [Producer.proceed, if_neg Bool.false_ne_true]
    dsimp only
    rw [settled]
    exact of_takeSteps idle _
  | ended live gone held queue =>
    rw [Producer.proceed, if_pos gone]
    exact .ended live gone held queue
  | deserted live gone held breach queue emitters =>
    rw [Producer.proceed, if_pos gone]
    exact .deserted live gone held breach queue emitters

/-- How much a producer still has to do. -/
def patience (producer : Producer) : Nat :=
  if producer.gone then 0
  else 2 * producer.steps.length + if producer.ticket.isSome then 1 else 2

theorem patience_takeSteps (steps : List Step) (channel : Channel) :
    patience (Producer.takeSteps channel steps).producer ≤ 2 * steps.length + 1 := by
  induction steps generalizing channel with
  | nil => simp [Producer.takeSteps, patience]
  | cons step rest ih =>
    have later : 2 * rest.length + 1 ≤ 2 * (step :: rest).length + 1 := by
      rw [List.length_cons]
      omega
    cases step with
    | send item =>
      rw [Producer.takeSteps]
      split
      · simp [patience]
      · exact (ih _).trans later
    | signalEnd => exact (ih _).trans later

/-- A turn of a producer changes nothing of it, or leaves it less to do. -/
theorem patience_proceed (producer : Producer) (channel : Channel) :
    (producer.proceed channel).producer = producer ∨
      patience (producer.proceed channel).producer < patience producer := by
  cases gone : producer.gone with
  | true => exact .inl (by rw [Producer.proceed, if_pos gone])
  | false =>
    unfold Producer.proceed
    rw [if_neg (by simp [gone])]
    split
    · rename_i ticket step rest held steps
      split
      · exact .inl rfl
      · refine .inr ((patience_takeSteps rest channel).trans_lt ?_)
        simp only [patience, gone, steps, held, List.length_cons, Bool.false_eq_true, if_false,
          Option.isSome_some, if_true]
        omega
    · rename_i steps' same
      cases steps : producer.steps with
      | nil =>
        right
        simp only [Producer.takeSteps, patience, gone, steps, if_true, Bool.false_eq_true, if_false]
        split <;> simp
      | cons step rest =>
        have free : producer.ticket = none := by
          cases ticket : producer.ticket with
          | none => rfl
          | some number => exact (same number step rest ticket steps).elim
        refine .inr ((patience_takeSteps (step :: rest) channel).trans_lt ?_)
        simp only [patience, gone, steps, free, Bool.false_eq_true, if_false, Option.isSome_none]
        omega

/-- Whether the producer of a channel has something to do. -/
def Eager (channel : Channel) (producer : Producer) : Prop :=
  patience (producer.proceed channel).producer < patience producer

theorem eager_idle {channel : Channel} (steps : List Step) : Eager channel { steps } := by
  refine (patience_takeSteps steps channel).trans_lt ?_
  simp [patience]

theorem eager_accepted {channel : Channel} {step : Step} {rest : List Step} {ticket : Nat}
    (settled : channel.outcome? ticket = some .accepted) :
    Eager channel { steps := step :: rest, ticket := some ticket } := by
  unfold Eager
  rw [Producer.proceed, if_neg Bool.false_ne_true]
  dsimp only
  rw [settled]
  refine (patience_takeSteps rest channel).trans_lt ?_
  simp only [patience, List.length_cons, Bool.false_eq_true, if_false, Option.isSome_some, if_true]
  omega

/-! ## Turns of the consumer -/

/-- What the consumer gets, and what is promised behind that. It waits only for a producer that has
something to do. -/
inductive Delivers (producer : Producer) : Script → Delivery → Channel → Prop
  | waiting {channel : Channel} {script : Script} (promises : Promises channel producer script)
    (held : channel.held = none) (eager : Eager channel producer) :
    Delivers producer script .waiting channel
  | item {channel : Channel} {item : Item} {rest : Script}
    (promises : Promises channel producer rest) :
    Delivers producer (.ok item :: rest) (.item item) channel
  | ended {channel : Channel} : Delivers producer [] .ended channel
  | failed {channel : Channel} {breach : Breach} :
    Delivers producer [.error (causeOf breach)] (.failed breach) channel

/-- What the consumer gets of an idle channel, and of one that it has come to the end of. -/
theorem idle_receive {channel : Channel} (idle : Idle channel) :
    channel.receive = (.waiting, channel) := by
  simp [Channel.receive, idle.queue, idle.emitters]

theorem receive (promises : Promises channel producer script) (free : channel.held = none) :
    Delivers producer script channel.receive.1 channel.receive.2 := by
  cases promises with
  | idle idle =>
    rw [idle_receive idle]
    exact .waiting (.idle idle) free (eager_idle _)
  | @offered item rest ticket idle queue bound unsettled =>
    have calm : channel.breach = none := idle.breach
    have received : channel.receive =
        (.item item, { channel with queue := [], held := some ticket }) := by
      simp [Channel.receive, queue, calm]
    rw [received]
    exact .item (.held ⟨⟨idle.listening, idle.finished, idle.settled⟩, rfl, rfl, idle.ended,
      idle.breach, idle.emitters⟩ rfl bound unsettled)
  | held idle held bound unsettled => exact absurd (held.symm.trans free) (by simp)
  | accepted idle settled =>
    rw [idle_receive idle]
    exact .waiting (.accepted idle settled) free (eager_accepted settled)
  | ended live gone held queue =>
    cases told : channel.breach with
    | none =>
      have received : channel.receive = (.ended, { channel with queue := [], finished := true }) := by
        simp [Channel.receive, queue, told]
      rw [received]
      exact .ended
    | some breach =>
      have received : channel.receive =
          (.failed breach, { channel with queue := [], finished := true, breach := none }) := by
        simp [Channel.receive, queue, told]
      rw [received]
      exact .failed
  | deserted live gone held breach queue emitters =>
    have received : channel.receive = (.failed .missingEnd, channel) := by
      simp [Channel.receive, queue, emitters]
    rw [received]
    exact .failed

/-- Asking for the next item, the consumer accepts the one that it has used. -/
theorem pull (promises : Promises channel producer script) :
    Delivers producer script channel.pull.1 channel.pull.2 := by
  have finished := promises.live.finished
  have calm : channel.held = none → channel.breach = none →
      Delivers producer script channel.pull.1 channel.pull.2 := by
    intro free calm
    rw [channel.pull_eq_receive calm finished, Channel.acceptHeld, free]
    exact promises.receive free
  cases promises with
  | idle idle => exact calm idle.held idle.breach
  | offered idle queue bound unsettled => exact calm idle.held idle.breach
  | @held item rest ticket idle held bound unsettled =>
    have accepted : channel.acceptHeld = { channel.settle ticket .accepted with held := none } := by
      rw [Channel.acceptHeld, held]
    have quiet : channel.breach = none := idle.breach
    have free : Idle { channel.settle ticket .accepted with held := none } := by
      refine ⟨⟨idle.listening, idle.finished, fun entry listed => ?_⟩, idle.queue, rfl, idle.ended,
        idle.breach, idle.emitters⟩
      rcases List.mem_cons.1 listed with rfl | before
      · exact bound
      · exact idle.settled entry before
    rw [channel.pull_eq_receive quiet finished, accepted, idle_receive free]
    have settled : ({ channel.settle ticket .accepted with held := none } : Channel).outcome? ticket =
        some .accepted := by
      simp [Channel.outcome?, Channel.settle]
    exact .waiting (.accepted free settled) rfl (eager_accepted settled)
  | accepted idle settled => exact calm idle.held idle.breach
  | ended live gone held queue =>
    cases told : channel.breach with
    | none => exact told ▸ calm held told
    | some breach =>
      have pulled : channel.pull = (.failed breach, { channel with breach := none }) := by
        simp [Channel.pull, Channel.acceptHeld, held, told]
      rw [pulled]
      exact .failed
  | deserted live gone held breach queue emitters => exact calm held breach

end Promises

end Stencil.Render
