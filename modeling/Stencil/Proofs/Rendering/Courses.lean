import Stencil.Proofs.Rendering.Histories
import Stencil.Proofs.Rendering.Stages
import Stencil.Proofs.Streaming.Tickets
/-!
# Courses of a stage

A course is made of the smallest steps that a stage can take: a rendering asks and is answered, or has
to wait; emitters act on a channel; a stream is given up. Whatever moves are made, they are a course
(`Course.follow`), and in a course the steps of renderings and emitters can interleave in every order.
Along with it goes a log of what was asked, sent and delivered.
-/

set_option autoImplicit false

namespace Stencil.Render

open Stencil.Stream

/-- An item that was given to a rendering: its ticket, the rendering, and the place of the exchange
that brought it in the history of the rendering. -/
structure Delivered where
  ticket : Nat
  task : Nat
  place : Nat

/-- What has happened on a stage. -/
structure Log where
  /-- The exchanges of each rendering. -/
  history : Nat → List Exchange := fun _ => []
  /-- The items that were sent on each channel. The place of an item is its ticket. -/
  sent : Nat → List Item := fun _ => []
  /-- What was given to renderings from each channel. -/
  delivered : Nat → List Delivered := fun _ => []

/-- The channel and the ticket of the item that a request has brought, when the request was made in
one world and is answered in another. -/
def World.handed (world behind : World) (task : Nat) : Request → Option (Nat × Nat)
  | .pull source =>
    match world.source? (task, source) with
    | some (.channel number) => (behind.channel number).held.map (number, ·)
    | _ => none
  | _ => none

/-- Goes away from streams, one after the other. -/
def World.dropAll (world : World) (handles : List Handle) : World :=
  handles.foldl
    (fun world handle =>
      match handle with
      | .stream number => world.dropStream number
      | _ => world)
    world

namespace Log

/-- The log behind an exchange of a rendering. -/
def exchanged (log : Log) (task : Nat) (exchange : Exchange) (handed : Option (Nat × Nat)) : Log :=
  { log with
    history := Function.update log.history task (log.history task ++ [exchange])
    delivered := match handed with
      | none => log.delivered
      | some (number, ticket) => Function.update log.delivered number
          (log.delivered number ++ [⟨ticket, task, (log.history task).length⟩]) }

/-- The log behind the sending of items. -/
def emitted (log : Log) (number : Nat) (items : List Item) : Log :=
  { log with sent := Function.update log.sent number (log.sent number ++ items) }

end Log

namespace Stage

variable {α : Type} {provider : Provider}

/-- The smallest steps of a stage, with the log. -/
inductive Step (provider : Provider) : Stage α → Log → Stage α → Log → Prop
  /-- A rendering asks and is answered. -/
  | answered {stage : Stage α} {log : Log} {task : Nat} {holding : Holding} {request : Request}
    {next : request.Answer → Process α} {answer : request.Answer} {world : World}
    (here : stage.renderings[task]? = some (.ask holding request next))
    (ready : World.answer provider task request stage.world = (.ready answer, world)) :
    Step provider stage log
      { stage with renderings := stage.renderings.set task (next answer), world }
      (log.exchanged task ⟨request, answer⟩ (stage.world.handed world task request))
  /-- A rendering asks and has to wait. -/
  | waits {stage : Stage α} {log : Log} {task : Nat} {holding : Holding} {request : Request}
    {next : request.Answer → Process α} {world : World}
    (here : stage.renderings[task]? = some (.ask holding request next))
    (pending : World.answer provider task request stage.world = (.pending, world)) :
    Step provider stage log { stage with world } log
  /-- Emitters act on a channel, on behalf of producers or of others. -/
  | emits {stage : Stage α} {log : Log} {number : Nat} {items : List Item} {channel : Channel}
    (inside : items ≠ [] → number < stage.world.channels.length)
    (emits : (stage.world.channel number).Emits items channel)
    (producers : List (Nat × Producer)) (trace : List Event) :
    Step provider stage log
      { stage with world := { stage.world.setChannel number channel with producers, trace } }
      (log.emitted number items)
  /-- A stream is given up. -/
  | drops {stage : Stage α} {log : Log} (stream : Nat) :
    Step provider stage log { stage with world := stage.world.dropStream stream } log

/-- Whether a stage comes to another one, with a log of what happened. -/
inductive Course (provider : Provider) (start : Stage α) : Stage α → Log → Prop
  | start : Course provider start start {}
  | step {stage stage' : Stage α} {log log' : Log} (before : Course provider start stage log)
    (step : Step provider stage log stage' log') : Course provider start stage' log'

namespace Course

variable {start stage : Stage α} {log : Log}

/-! ## Moves -/

theorem dropAll (course : Course provider start stage log) (handles : List Handle) :
    Course provider start { stage with world := stage.world.dropAll handles } log := by
  induction handles generalizing stage with
  | nil => exact course
  | cons handle rest ih =>
    cases handle with
    | stream number => exact ih (course.step (.drops number))
    | function _ | dynamic _ | iterable _ => exact ih course

theorem abandon (course : Course provider start stage log) :
    Course provider start (stage.abandon provider) log := by
  unfold Stage.abandon World.abandon
  split
  · exact course.dropAll _
  · exact course

/-- A rendering that is polled asks, and is answered, until it has to wait or has ended. -/
theorem poll (course : Course provider start stage log) {task : Nat} {p : Process α}
    (here : stage.renderings[task]? = some p) :
    ∃ log', Course provider start
      { stage with
        renderings := stage.renderings.set task
          (p.poll (World.host provider) task stage.world).1
        world := (p.poll (World.host provider) task stage.world).2 } log' ∧
      log'.history = Function.update log.history task
        (log.history task ++ p.exchanges (World.host provider) task stage.world) ∧
      log'.sent = log.sent := by
  have unchanged : stage.renderings.set task p = stage.renderings := by
    obtain ⟨inside, rfl⟩ := List.getElem?_eq_some_iff.1 here
    exact List.set_getElem_self inside
  induction p generalizing stage log with
  | done result =>
    refine ⟨log, ?_, ?_, rfl⟩
    · rw [Process.poll_done, unchanged]
      exact course
    · rw [Process.exchanges, List.append_nil, Function.update_eq_self]
  | ask holding request next ih =>
    rw [Process.poll, Process.exchanges]
    cases replied : (World.host provider).answer task request stage.world with
    | mk reply world =>
      cases reply with
      | pending =>
        refine ⟨log, ?_, ?_, rfl⟩
        · rw [unchanged]
          exact course.step (.waits here replied)
        · dsimp only
          rw [List.append_nil, Function.update_eq_self]
      | ready answer =>
        have inside : task < stage.renderings.length := (List.getElem?_eq_some_iff.1 here).1
        have later := course.step (.answered here replied)
        obtain ⟨log', ends, history, sent⟩ :=
          ih answer later (List.getElem?_set_self inside) (List.set_set ..)
        refine ⟨log', ?_, ?_, sent⟩
        · dsimp only at ends ⊢
          rw [List.set_set] at ends
          exact ends
        · rw [history]
          show Function.update (Function.update log.history task _) task
            (Function.update log.history task _ task ++ _) = _
          rw [Function.update_idem, Function.update_self, List.append_assoc]
          rfl

end Course

/-- Whether what is sent in a move is what a producer sends that has its turn. -/
def Sends (world : World) (move : Move) (sent sent' : Nat → List Item) : Prop :=
  ∀ number, sent' number = sent number ∨ ∃ n producer items, move = .producer n ∧
    world.producers[n]? = some (number, producer) ∧
    (world.channel number).Emits items (producer.proceed (world.channel number)).channel ∧
    sent' number = sent number ++ items

namespace Course

variable {start stage : Stage α} {log : Log}

/-- A turn of a producer is what emitters do. -/
theorem produce (course : Course provider start stage log) (number : Nat) :
    ∃ log', Course provider start { stage with world := stage.world.produce number } log' ∧
      log'.history = log.history ∧ Sends stage.world (.producer number) log.sent log'.sent := by
  cases there : stage.world.producers[number]? with
  | none =>
    rw [produce_none there]
    exact ⟨log, course, rfl, fun _ => .inl rfl⟩
  | some entry =>
    obtain ⟨channel, producer⟩ := entry
    obtain ⟨trace, same⟩ := produce_eq number channel producer there
    rw [same]
    by_cases inside : channel < stage.world.channels.length
    · obtain ⟨items, emits⟩ := Channel.emits_proceed producer (stage.world.channel channel)
      refine ⟨_, course.step (.emits (fun _ => inside) emits _ trace), rfl, fun other => ?_⟩
      by_cases equal : other = channel
      · subst equal
        exact .inr ⟨number, producer, items, rfl, there, emits, Function.update_self ..⟩
      · exact .inl (Function.update_of_ne equal ..)
    · -- Without its channel the producer acts on nothing.
      have kept : ∀ next, stage.world.setChannel channel next =
          stage.world.setChannel channel (stage.world.channel channel) := by
        intro next
        unfold World.setChannel
        rw [List.set_eq_of_length_le (Nat.le_of_not_lt inside),
          List.set_eq_of_length_le (Nat.le_of_not_lt inside)]
      rw [kept]
      refine ⟨_, course.step (.emits (fun some_ => absurd rfl some_) (.done _) _ trace), rfl, fun other => ?_⟩
      by_cases equal : other = channel
      · subst equal
        exact .inl ((Function.update_self ..).trans (List.append_nil _))
      · exact .inl (Function.update_of_ne equal ..)

theorem move (course : Course provider start stage log) (move : Move) :
    ∃ log', Course provider start (stage.move provider move) log' ∧
      (∀ i, log'.history i = log.history i ++ stage.exchanged provider (some move) i) ∧
      Sends stage.world move log.sent log'.sent := by
  have turned : ∃ log', Course provider start (stage.turn provider move) log' ∧
      (∀ i, log'.history i = log.history i ++ stage.exchanged provider (some move) i) ∧
      Sends stage.world move log.sent log'.sent := by
    cases move with
    | producer number =>
      obtain ⟨log', produced, history, sends⟩ := course.produce number
      exact ⟨log', produced, fun i => by rw [history]; exact (List.append_nil _).symm, sends⟩
    | rendering number =>
      unfold turn
      dsimp only
      split
      · rename_i absent
        refine ⟨log, course, fun i => ?_, fun _ => .inl rfl⟩
        unfold exchanged
        dsimp only
        split
        · rename_i same
          rw [same, absent]
          exact (List.append_nil _).symm
        · exact (List.append_nil _).symm
      · rename_i p here
        obtain ⟨log', polled, history, sent⟩ := course.poll here
        refine ⟨log', polled, fun i => ?_, fun _ => .inl (by rw [sent])⟩
        unfold exchanged
        dsimp only
        rw [history]
        split
        · rename_i same
          rw [same, here, Function.update_self]
          rfl
        · rename_i differs
          rw [Function.update_of_ne differs, List.append_nil]
  obtain ⟨log', turned, history, sends⟩ := turned
  exact ⟨log', turned.abandon, history, sends⟩

/-- All that a stage does in moves is a course. -/
theorem follow (course : Course provider start stage log) (moves : List Move) :
    ∃ log', Course provider start (stage.follow provider moves) log' ∧
      ∀ i, log'.history i = log.history i ++ exchangedIn provider moves stage i := by
  induction moves generalizing stage log with
  | nil => exact ⟨log, course, fun i => (List.append_nil _).symm⟩
  | cons move rest ih =>
    obtain ⟨log', moved, history, -⟩ := course.move move
    obtain ⟨log'', ends, later⟩ := ih moved
    refine ⟨log'', ends, fun i => ?_⟩
    rw [later, history, List.append_assoc]
    rfl

end Course

end Stage

end Stencil.Render
