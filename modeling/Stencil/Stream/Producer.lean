import Stencil.Stream.Channel
/-!
# Producers

A producer goes through a list of steps with one emitter of a channel, and gives the emitter
back at the end. It does not take a step before the one before is settled.
-/

set_option autoImplicit false

namespace Stencil.Stream

/-- A step of a producer. -/
inductive Step where
  | send (item : Item)
  | signalEnd
deriving Inhabited

/-- A producer. -/
structure Producer where
  /-- The steps that are not settled. -/
  steps : List Step
  /-- The ticket of the first of them, where that is an item that was sent. -/
  ticket : Option Nat := none
  /-- Whether the producer has given its emitter back. -/
  gone : Bool := false

/-- The item of a step that sends one. -/
def Step.item? : Step → Option Item
  | send item => some item
  | signalEnd => none

namespace Producer

/-- The items that the producer has not sent. -/
def unsent (producer : Producer) : List Item :=
  (producer.steps.drop (if producer.ticket.isSome then 1 else 0)).filterMap Step.item?

/-- A turn of a producer: what it settled, what is left of it, and the channel behind it. -/
structure Turn where
  settled : List (Step × Outcome)
  producer : Producer
  channel : Channel

namespace Turn

/-- The turn with a step settled before. -/
def after (step : Step) (outcome : Outcome) (turn : Turn) : Turn :=
  { turn with settled := (step, outcome) :: turn.settled }

end Turn

/-- Takes steps up to the first one that has to wait. -/
def takeSteps (channel : Channel) : List Step → Turn
  | [] => ⟨[], { steps := [], gone := true }, channel.dropEmitter⟩
  | .send item :: rest =>
    match channel.send item with
    | (.ok ticket, channel) => ⟨[], { steps := .send item :: rest, ticket := some ticket }, channel⟩
    | (.error outcome, channel) => (takeSteps channel rest).after (.send item) outcome
  | .signalEnd :: rest =>
    match channel.signalEnd with
    | (outcome, channel) => (takeSteps channel rest).after .signalEnd outcome

/-- Lets a producer go on as far as it can. -/
def proceed (producer : Producer) (channel : Channel) : Turn :=
  if producer.gone then ⟨[], producer, channel⟩
  else
    match producer.ticket, producer.steps with
    | some ticket, step :: rest =>
      match channel.outcome? ticket with
      | none => ⟨[], producer, channel⟩
      | some outcome => (takeSteps channel rest).after step outcome
    | _, steps => takeSteps channel steps

end Producer

end Stencil.Stream
