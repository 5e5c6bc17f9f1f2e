import Stencil.Render.Cache
import Stencil.Render.Process
/-!
# Running processes

A host answers what processes ask, or lets them wait. `poll` lets one process go on as far as
the host has answers. Whoever runs several processes decides in which order they are polled. A
process that runs alone, with data that holds values only, needs a loader and a cache
(`runAlone`).
-/

set_option autoImplicit false

namespace Stencil.Render

/-- What a host says to a request. -/
inductive Reply (α : Type) where
  | ready (answer : α)
  /-- The process has to ask again. -/
  | pending

/-- How requests are answered. Processes are known to the host by a number. -/
structure Host (σ : Type) where
  answer : (task : Nat) → (request : Request) → σ → Reply request.Answer × σ

namespace Process

variable {α σ : Type}

/-- Lets a process go on until it has ended or has to wait. -/
def poll (host : Host σ) (task : Nat) : Process α → σ → Process α × σ
  | done result, state => (done result, state)
  | ask holding request next, state =>
    match host.answer task request state with
    | (.ready answer, state) => (next answer).poll host task state
    | (.pending, state) => (ask holding request next, state)

/-- A process that has ended stays as it is. -/
@[simp] theorem poll_done (host : Host σ) (task : Nat) (result : α) (state : σ) :
    (done result).poll host task state = (done result, state) := rfl

/-- Runs a process to its end with a handler that answers every request. -/
def runWith {m : Type → Type} [Monad m] (handle : (request : Request) → m request.Answer) :
    Process α → m α
  | done result => pure result
  | ask _ request next => do (next (← handle request)).runWith handle

/-- Answers a process whose data holds values only: no function, lookup, iterable or stream can
be asked for. -/
def answerAlone {m : Type → Type} [Monad m] (load : String → m (Except Cause String)) :
    (request : Request) → StateT Cache m request.Answer
  | .cached name => return (← get).get? name
  | .store name template => modify (·.insert name template)
  | .load name => load name
  | .lookup .. => return .ok .undefined
  | .call .. => return .ok .undefined
  | .iterate .. => return ()
  | .take .. => return false
  | .pull _ => return .ok none
  | .release _ => return ()
  | .pause => return ()

/-- Runs a process alone, and gives the cache behind it too. -/
def runAlone {m : Type → Type} [Monad m] (load : String → m (Except Cause String))
    (process : Process α) (cache : Cache) : m (α × Cache) :=
  (process.runWith (answerAlone load)).run cache

end Process

end Stencil.Render
