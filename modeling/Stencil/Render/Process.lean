import Stencil.Render.RenderError
import Stencil.Stream.Channel
import Stencil.Syntax.Tree
/-!
# Rendering as a process

Rendering depends on others: on a cache and a loader of templates, and on the functions, lookups
and streams of the data. A `Process` is a computation that asks for what it needs and goes on
with the answer. It says nothing about when an answer comes, so one process can be run in every
order with others. While it waits, it says which values it holds on to, for a stream that nobody
holds on to is given up.
-/

set_option autoImplicit false

namespace Stencil.Render

open Stencil.Stream (Item)
open Stencil.Syntax (Template)

/-- What a process asks for. -/
inductive Request where
  /-- The parsed template of a name, if it is in the cache. -/
  | cached (name : String)
  /-- That a parsed template is put into the cache. -/
  | store (name : String) (template : Template)
  /-- The source of a template. -/
  | load (name : String)
  /-- The value of a name in a lookup. -/
  | lookup (handle : Nat) (name : String)
  /-- The result of a function. -/
  | call (handle : Nat) (args : List Value)
  /-- That the items of an iterable are opened as a source with a number. -/
  | iterate (source handle : Nat)
  /-- That the items of a stream, which are given once, are opened as a source with a number. -/
  | take (source handle : Nat)
  /-- The next item of a source that the process has opened. -/
  | pull (source : Nat)
  /-- That a source is not used any more. -/
  | release (source : Nat)
  /-- That others may go on first. -/
  | pause

/-- What answers a request. -/
def Request.Answer : Request → Type
  | cached _ => Option Template
  | store _ _ => Unit
  | load _ => Except Cause String
  | lookup _ _ => Except Cause Value
  | call _ _ => Except Cause Value
  | iterate _ _ => Unit
  | take _ _ => Bool
  | pull _ => Except Cause (Option Item)
  | release _ => Unit
  | pause => Unit

/-- The values that a process will still use: those of its frames and those beside them. -/
structure Holding where
  frames : List Frame := []
  values : List Value := []

/-- All values of a holding. -/
def Holding.all (holding : Holding) : List Value :=
  holding.frames.flatMap Frame.values ++ holding.values

/-- A computation that asks for what it needs. -/
inductive Process (α : Type) where
  /-- The computation has ended. -/
  | done (result : α)
  /-- The computation needs an answer. -/
  | ask (holding : Holding) (request : Request) (next : request.Answer → Process α)

namespace Process

variable {α β : Type}

/-- Goes on with the result of a process. -/
def bind (process : Process α) (next : α → Process β) : Process β :=
  match process with
  | done result => next result
  | ask holding request continue_ =>
    ask holding request fun answer => (continue_ answer).bind next

instance : Monad Process where
  pure := done
  bind := bind

/-- Asks for an answer and gives it. -/
def request (holding : Holding) (r : Request) : Process r.Answer := ask holding r done

/-- What a process holds on to. One that has ended holds nothing. -/
def held : Process α → List Value
  | done _ => []
  | ask holding _ _ => holding.all

/-- The result of a process that has ended. -/
def result? : Process α → Option α
  | done result => some result
  | ask .. => none

/-- Whether every result that the process can have, whatever it is answered, has a property. -/
def Always (property : α → Prop) : Process α → Prop
  | done result => property result
  | ask _ _ next => ∀ answer, (next answer).Always property

/-! ## Laws -/

@[simp] theorem bind_done (result : α) (next : α → Process β) :
    (done result).bind next = next result := rfl

@[simp] theorem bind_ask (holding : Holding) (request : Request)
    (after : request.Answer → Process α) (next : α → Process β) :
    (ask holding request after).bind next
      = ask holding request fun answer => (after answer).bind next := rfl

/-- Going on with the result as it is changes nothing. -/
theorem bind_pure_right (process : Process α) : process.bind done = process := by
  induction process with
  | done result => rfl
  | ask holding request next ih => simp [ih]

/-- Going on twice is going on with what goes on. -/
theorem bind_bind {γ : Type} (process : Process α) (next : α → Process β) (last : β → Process γ) :
    (process.bind next).bind last = process.bind fun result => (next result).bind last := by
  induction process with
  | done result => rfl
  | ask holding request after ih => simp [ih]

instance : LawfulMonad Process :=
  LawfulMonad.mk' Process bind_pure_right (fun _ _ => rfl) bind_bind

/-- What a process always gives is what the process behind it can start from. -/
theorem always_bind {property : α → Prop} {goal : β → Prop} {process : Process α}
    {next : α → Process β} (first : process.Always property)
    (second : ∀ result, property result → (next result).Always goal) :
    (process.bind next).Always goal := by
  induction process with
  | done result => exact second result first
  | ask holding request after ih => exact fun answer => ih answer (first answer)

end Process

end Stencil.Render
