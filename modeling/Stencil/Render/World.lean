import Stencil.Render.Cache
import Stencil.Render.Schedule
import Stencil.Stream.Producer
import Stencil.Value.Handle
/-!
# The world of a rendering

A world is all that renderings share and change: the cache, the streams, the sources that were
opened, and the channels with their producers. What does not change, such as the templates that
can be loaded and the functions of the data, is a `Provider`. Loading, looking up, and taking an
item each let others go on once before they are answered, and leave a mark in the trace. A stream
that can be reached from no value in use is given up (`abandon`), which closes a channel.
-/

set_option autoImplicit false

namespace Stencil.Render

open Stencil.Stream

/-- What a rendering depends on and does not change. Functions, lookups and iterables are known
by their numbers. -/
structure Provider where
  load : String → Except Cause String
  call : Nat → List Value → Except Cause Value
  lookup : Nat → String → Except Cause Value
  /-- What an iterable gives, item by item, each time it is iterated. -/
  iterable : Nat → List (Except Cause Item)
  /-- The functions, lookups and iterables, each with the values that it keeps. -/
  keepers : List (Handle × List Value)

/-- Where the items of a source come from. -/
inductive Supply where
  /-- What is left of a list of items and failures. It belongs to an iterable or a stream. -/
  | script (origin : Value) (rest : List (Except Cause Item))
  /-- A list of values, which is in use as a whole, and what is left of it. -/
  | values (all rest : List Value)
  | channel (number : Nat)

/-- What can be seen of a world from outside. -/
inductive Event where
  | loaded (name : String)
  | called (function : Nat) (args : List Value)
  | lookedUp (lookup : Nat) (name : String)
  | iterated (iterable : Nat)
  /-- An item of an iterable or a stream was asked for. -/
  | pulled (origin : Value)
  /-- A step of a producer is settled. -/
  | settled (step : Step) (outcome : Outcome)

/-- What renderings share and change. -/
structure World where
  cache : Cache := .empty
  /-- What each stream gives to the first who takes it. -/
  streams : List (Option Supply) := []
  /-- The sources that are open, each with the number of the process that opened it and with the
  number that it has there. -/
  sources : List ((Nat × Nat) × Supply) := []
  channels : List Channel := []
  /-- The producers, each with the number of its channel. -/
  producers : List (Nat × Producer) := []
  /-- The processes that have let others go on for what they ask now. -/
  waiting : List Nat := []
  /-- What has happened, latest first. -/
  trace : List Event := []

namespace World

variable {α : Type}

/-- Notes an event. -/
def note (world : World) (event : Event) : World :=
  { world with trace := event :: world.trace }

/-- The channel of a number. -/
def channel (world : World) (number : Nat) : Channel := (world.channels[number]?).getD {}

/-- Replaces a channel. -/
def setChannel (world : World) (number : Nat) (channel : Channel) : World :=
  { world with channels := world.channels.set number channel }

/-- What a stream gives to the first who takes it. -/
def stream? (world : World) (stream : Nat) : Option Supply := (world.streams[stream]?).join

/-- What an open source gives. -/
def source? (world : World) (source : Nat × Nat) : Option Supply :=
  (world.sources.find? fun entry => entry.1 = source).map (·.2)

/-- Makes a source give a supply, or opens it. -/
def setSource (world : World) (source : Nat × Nat) (supply : Supply) : World :=
  { world with
    sources := (source, supply) :: world.sources.filter fun entry => entry.1 ≠ source }

/-- Goes away from a supply. A channel is closed by that. -/
def dropSupply (world : World) : Supply → World
  | .channel number => world.setChannel number (world.channel number).close
  | _ => world

/-- Goes away from a stream that nobody has taken. -/
def dropStream (world : World) (stream : Nat) : World :=
  match world.stream? stream with
  | some supply =>
    ({ world with streams := world.streams.set stream none } : World).dropSupply supply
  | none => world

/-- Gives a source back. -/
def releaseSource (world : World) (source : Nat × Nat) : World :=
  match world.source? source with
  | some supply =>
    ({ world with sources := world.sources.filter fun entry => entry.1 ≠ source } : World).dropSupply
      supply
  | none => world

/-! ## What is in use -/

/-- The values that a supply still gives. -/
def supplied (world : World) : Supply → List Value
  | .script _ rest => rest.flatMap fun item => (item.toOption.map Item.values).getD []
  | .values all _ => all
  | .channel number => ((world.channel number).queue.filterMap Signal.item?).flatMap Item.values

/-- The values that the world holds on to: those of opened sources, and those that producers
have not sent. -/
def held (world : World) : List Value :=
  (world.sources.flatMap fun entry => world.supplied entry.2)
    ++ world.producers.flatMap fun entry => entry.2.unsent.flatMap Item.values

/-- The streams that nobody has taken, each with the values that it still gives. -/
def keepers (world : World) : List (Handle × List Value) :=
  world.streams.zipIdx.filterMap fun (supply?, number) =>
    supply?.map fun supply => (.stream number, world.supplied supply)

/-- Gives up the streams that cannot be reached from the values in use. Only channels notice. -/
def abandon (provider : Provider) (inUse : List Value) (world : World) : World :=
  if world.channels.any (·.listening) then
    let handles := (inUse ++ world.held).flatMap Value.handles
    (Handle.lost (provider.keepers ++ world.keepers) handles).foldl
      (fun world handle =>
        match handle with
        | .stream number => world.dropStream number
        | _ => world)
      world
  else world

/-! ## Answering requests -/

/-- What a delivery of a channel answers. -/
def ofDelivery (delivery : Delivery) : Reply (Except Cause (Option Item)) :=
  match delivery with
  | .waiting => .pending
  | .item item => .ready (.ok (some item))
  | .ended => .ready (.ok none)
  | .failed breach => .ready (.error { text := breach.message, violation := true })

/-- The next item of a source, and the source behind it. -/
def advance (supply : Supply) : Except Cause (Option Item) × Supply :=
  match supply with
  | .script origin [] => (.ok none, .script origin [])
  | .script origin (.ok item :: rest) => (.ok (some item), .script origin rest)
  | .script origin (.error cause :: rest) => (.error cause, .script origin rest)
  | .values all [] => (.ok none, .values all [])
  | .values all (value :: rest) => (.ok (some { value }), .values all rest)
  | .channel number => (.ok none, .channel number)

/-- Lets others go on once before an answer. The event is noted at first. -/
def afterOthers (world : World) (task : Nat) (event : Option Event)
    (answer : World → α × World) : Reply α × World :=
  if world.waiting.contains task then
    let (result, world) := answer { world with waiting := world.waiting.erase task }
    (.ready result, world)
  else
    let world := { world with waiting := task :: world.waiting }
    (.pending, event.elim world world.note)

/-- Answers a process that asks for the next item of a channel. -/
def pullChannel (world : World) (task number : Nat) :
    Reply (Except Cause (Option Item)) × World :=
  let channel := world.channel number
  let (delivery, channel) :=
    if world.waiting.contains task then channel.receive else channel.pull
  let world := world.setChannel number channel
  let waiting := world.waiting.erase task
  match delivery with
  | .waiting => (.pending, { world with waiting := task :: waiting })
  | delivery => (ofDelivery delivery, { world with waiting })

/-- The mark that asking a supply for an item leaves. -/
def pullEvent? : Supply → Option Event
  | .script origin _ => some (.pulled origin)
  | _ => none

/-- Answers a process that asks for the next item of a source. -/
def pull (world : World) (task source : Nat) : Reply (Except Cause (Option Item)) × World :=
  match world.source? (task, source) with
  | some (.channel number) => world.pullChannel task number
  | some supply =>
    world.afterOthers task (pullEvent? supply) fun world =>
      let (item, supply) := advance supply
      (item, world.setSource (task, source) supply)
  | none => (.ready (.ok none), world)

/-- Gives the supply of a stream to the first who takes it, as a source. -/
def takeStream (world : World) (source : Nat × Nat) (stream : Nat) : Bool × World :=
  match world.stream? stream with
  | some supply =>
    (true, ({ world with streams := world.streams.set stream none } : World).setSource source supply)
  | none => (false, world)

/-- Answers a request of a process. -/
def answer (provider : Provider) (task : Nat) :
    (request : Request) → World → Reply request.Answer × World
  | .cached name, world => (.ready (world.cache.get? name), world)
  | .store name template, world =>
    (.ready (), { world with cache := world.cache.insert name template })
  | .load name, world =>
    world.afterOthers task (some (.loaded name)) fun world => (provider.load name, world)
  | .lookup handle name, world =>
    world.afterOthers task (some (.lookedUp handle name)) fun world =>
      (provider.lookup handle name, world)
  | .call handle args, world =>
    (.ready (provider.call handle args), world.note (.called handle args))
  | .iterate source handle, world =>
    (.ready (),
      (world.note (.iterated handle)).setSource (task, source)
        (.script (.iterable handle) (provider.iterable handle)))
  | .take source handle, world =>
    let (taken, world) := world.takeStream (task, source) handle
    (.ready taken, world)
  | .pull source, world => world.pull task source
  | .release source, world => (.ready (), world.releaseSource (task, source))
  | .pause, world => world.afterOthers task none fun world => ((), world)

/-- The world as a host of processes. -/
def host (provider : Provider) : Host World := ⟨answer provider⟩

/-- Lets a producer go on as far as it can. -/
def produce (world : World) (number : Nat) : World :=
  match world.producers[number]? with
  | none => world
  | some (channel, producer) =>
    let turn := producer.proceed (world.channel channel)
    let world :=
      { world.setChannel channel turn.channel with
        producers := world.producers.set number (channel, turn.producer) }
    turn.settled.foldl (fun world (step, outcome) => world.note (.settled step outcome)) world

/-! ## Making worlds -/

/-- Adds a stream. -/
def addStream (world : World) (supply : Supply) : Nat × World :=
  (world.streams.length, { world with streams := world.streams ++ [some supply] })

/-- Adds a stream that is a channel with a producer. -/
def addChannel (world : World) (steps : List Step) : Nat × World :=
  let number := world.channels.length
  let channel : Channel := {}
  let producer : Producer := { steps }
  ({ world with
      channels := world.channels ++ [channel]
      producers := world.producers ++ [(number, producer)] } : World).addStream (.channel number)

end World

end Stencil.Render
