import Stencil.Value.Basic
/-!
# Push channels

An item is what a collection gives for each round of an iteration, with a key where that is not its
index.

A channel takes items from emitters and gives them to one consumer. Sending an item hands out a
ticket, which is settled as accepted when the consumer comes back after it has used the item, so
that an emitter that waits for its tickets never runs ahead. The end of the stream has to be
signalled exactly once. A breach of that rule is kept until the consumer asks again, and it is
the consumer that fails.
-/

set_option autoImplicit false

namespace Stencil.Stream

/-- An item of a collection. -/
structure Item where
  /-- The key of the item, where it is not its index. -/
  key : Option Value := none
  value : Value
deriving Inhabited

/-- The values of the item. -/
def Item.values (item : Item) : List Value := item.key.toList ++ [item.value]

/-- A breach of the protocol of channels. -/
inductive Breach where
  /-- An item was sent after the end was signalled. -/
  | dataAfterEnd
  /-- The end was signalled again. -/
  | repeatedEnd
  /-- Every emitter is gone, and none has signalled the end. -/
  | missingEnd
deriving DecidableEq

/-- The wording of the breach. -/
def Breach.message (breach : Breach) : String :=
  "iterator protocol violation: " ++
    match breach with
    | .dataAfterEnd => "data after end"
    | .repeatedEnd => "end signalled more than once"
    | .missingEnd => "stream dropped without signalling end"

/-- How a send, or the signal of the end, went. -/
inductive Outcome where
  | accepted
  /-- The consumer is gone, or has failed on the item. -/
  | closed
  | refused (breach : Breach)
deriving DecidableEq

/-- The wording of an outcome that is a failure. -/
def Outcome.failure? : Outcome → Option String
  | .accepted => none
  | .closed => some "stream consumer has gone away"
  | .refused breach => some breach.message

/-- What stands in the queue of a channel. -/
inductive Signal where
  | item (ticket : Nat) (item : Item)
  | ended

namespace Signal

/-- The ticket of a signal that is an item. -/
def ticket? : Signal → Option Nat
  | item ticket _ => some ticket
  | ended => none

/-- The item of a signal that is one. -/
def item? : Signal → Option Item
  | item _ content => some content
  | ended => none

end Signal

/-- A channel. -/
structure Channel where
  /-- What was sent and not yet taken, oldest first. -/
  queue : List Signal := []
  /-- The number of emitters that are left. -/
  emitters : Nat := 1
  /-- Whether the consumer is there. -/
  listening : Bool := true
  /-- Whether the end was signalled. -/
  ended : Bool := false
  /-- Whether the consumer has taken the end. -/
  finished : Bool := false
  /-- The first breach since the consumer was last told of one. -/
  breach : Option Breach := none
  /-- The ticket of the item that the consumer is using. -/
  held : Option Nat := none
  /-- The number of tickets that were handed out. -/
  tickets : Nat := 0
  /-- The tickets that are settled, latest first. -/
  settled : List (Nat × Outcome) := []

/-- What a consumer gets from a channel. -/
inductive Delivery where
  /-- Nothing yet. -/
  | waiting
  | item (item : Item)
  | ended
  | failed (breach : Breach)

namespace Channel

/-! ## Emitters -/

/-- Keeps a breach until the consumer is told. An earlier one is not replaced. -/
def record (channel : Channel) (breach : Breach) : Channel :=
  { channel with breach := channel.breach.or (some breach) }

/-- Sends an item. The result is its ticket, or why it was not sent. -/
def send (channel : Channel) (item : Item) : Except Outcome Nat × Channel :=
  if channel.ended then (.error (.refused .dataAfterEnd), channel.record .dataAfterEnd)
  else if channel.listening then
    (.ok channel.tickets,
      { channel with
        queue := channel.queue ++ [.item channel.tickets item]
        tickets := channel.tickets + 1 })
  else (.error .closed, channel)

/-- Signals the end. -/
def signalEnd (channel : Channel) : Outcome × Channel :=
  if channel.ended then (.refused .repeatedEnd, channel.record .repeatedEnd)
  else if channel.listening then
    (.accepted, { channel with ended := true, queue := channel.queue ++ [.ended] })
  else (.closed, { channel with ended := true })

/-- Adds an emitter. -/
def addEmitter (channel : Channel) : Channel :=
  { channel with emitters := channel.emitters + 1 }

/-- Takes an emitter away. -/
def dropEmitter (channel : Channel) : Channel :=
  { channel with emitters := channel.emitters - 1 }

/-- How a ticket was settled. -/
def outcome? (channel : Channel) (ticket : Nat) : Option Outcome :=
  (channel.settled.find? fun entry => entry.1 = ticket).map (·.2)

/-! ## The consumer -/

/-- Settles a ticket. -/
def settle (channel : Channel) (ticket : Nat) (outcome : Outcome) : Channel :=
  { channel with settled := (ticket, outcome) :: channel.settled }

/-- Accepts the item that the consumer was using. -/
def acceptHeld (channel : Channel) : Channel :=
  match channel.held with
  | none => channel
  | some ticket => { channel.settle ticket .accepted with held := none }

/-- Takes the next signal of the queue. -/
def receive (channel : Channel) : Delivery × Channel :=
  match channel.queue with
  | [] => if channel.emitters = 0 then (.failed .missingEnd, channel) else (.waiting, channel)
  | .item ticket item :: queue =>
    match channel.breach with
    | some breach => (.failed breach, { channel.settle ticket .closed with queue, breach := none })
    | none => (.item item, { channel with queue, held := some ticket })
  | .ended :: queue =>
    match channel.breach with
    | some breach => (.failed breach, { channel with queue, finished := true, breach := none })
    | none => (.ended, { channel with queue, finished := true })

/-- Asks for the next item: the consumer is done with the one before. Where there is nothing
yet, the consumer goes on with `receive`. -/
def pull (channel : Channel) : Delivery × Channel :=
  let channel := channel.acceptHeld
  match channel.breach with
  | some breach => (.failed breach, { channel with breach := none })
  | none => if channel.finished then (.ended, channel) else channel.receive

/-- The consumer goes away. What it was using and what it has not taken is closed. -/
def close (channel : Channel) : Channel :=
  let open_ := channel.held.toList ++ channel.queue.filterMap Signal.ticket?
  { channel with
    queue := [], listening := false, held := none
    settled := open_.map (·, .closed) ++ channel.settled }

/-! ## Laws -/

variable (channel : Channel)

@[simp] theorem acceptHeld_queue : channel.acceptHeld.queue = channel.queue := by
  unfold acceptHeld; split <;> rfl

@[simp] theorem acceptHeld_emitters : channel.acceptHeld.emitters = channel.emitters := by
  unfold acceptHeld; split <;> rfl

@[simp] theorem acceptHeld_listening : channel.acceptHeld.listening = channel.listening := by
  unfold acceptHeld; split <;> rfl

@[simp] theorem acceptHeld_ended : channel.acceptHeld.ended = channel.ended := by
  unfold acceptHeld; split <;> rfl

@[simp] theorem acceptHeld_finished : channel.acceptHeld.finished = channel.finished := by
  unfold acceptHeld; split <;> rfl

@[simp] theorem acceptHeld_breach : channel.acceptHeld.breach = channel.breach := by
  unfold acceptHeld; split <;> rfl

/-- Taking a signal does not change who is there, nor whether the end was signalled. -/
theorem receive_keeps :
    channel.receive.2.listening = channel.listening ∧ channel.receive.2.ended = channel.ended ∧
      channel.receive.2.emitters = channel.emitters := by
  unfold receive settle
  split
  · split <;> exact ⟨rfl, rfl, rfl⟩
  · split <;> exact ⟨rfl, rfl, rfl⟩
  · split <;> exact ⟨rfl, rfl, rfl⟩

/-- Nor does asking for the next item. -/
theorem pull_keeps :
    channel.pull.2.listening = channel.listening ∧ channel.pull.2.ended = channel.ended ∧
      channel.pull.2.emitters = channel.emitters := by
  unfold pull
  dsimp only
  split
  · simp
  · split
    · simp
    · simpa using receive_keeps channel.acceptHeld

/-- A consumer that is not told of a breach, nor of the end again, goes on with the queue. -/
theorem pull_eq_receive (calm : channel.breach = none) (open_ : channel.finished = false) :
    channel.pull = channel.acceptHeld.receive := by
  simp [pull, calm, open_]

end Channel

end Stencil.Stream
