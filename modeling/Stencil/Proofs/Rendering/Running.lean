import Stencil.Render.Renderer
/-!
# Running parts of a rendering

A part of a rendering, started in a state, is a process. What the process is follows the way the
part is put together: one part behind another, a part in a frame of its own, a question.
-/

set_option autoImplicit false

namespace Stencil.Render

open Stencil.Error (Kind)
open Stencil.Text (Span)

namespace RenderM

variable {α β : Type}

/-- The process of a part of a rendering from a state. -/
def start (m : RenderM α) (state : State) : Process (Except Failure α × State) :=
  m.run.run state

/-- Goes on with the result of a part that has not failed. -/
def onward (next : α → RenderM β) :
    Except Failure α × State → Process (Except Failure β × State)
  | (.ok result, state) => (next result).start state
  | (.error failure, state) => .done (.error failure, state)

@[simp] theorem onward_ok (next : α → RenderM β) (result : α) (state : State) :
    onward next (.ok result, state) = (next result).start state := rfl

@[simp] theorem onward_error (next : α → RenderM β) (failure : Failure) (state : State) :
    onward next (.error failure, state) = .done (.error failure, state) := rfl

@[simp] theorem start_pure (result : α) (state : State) :
    start (pure result : RenderM α) state = .done (.ok result, state) := rfl

@[simp] theorem start_throw (failure : Failure) (state : State) :
    start (throw failure : RenderM α) state = .done (.error failure, state) := rfl

/-- One part behind another. -/
theorem start_bind (m : RenderM α) (next : α → RenderM β) (state : State) :
    start (m >>= next) state = (m.start state).bind (onward next) := by
  show Process.bind (m.start state) _ = _
  congr 1
  funext ⟨result, behind⟩
  cases result <;> rfl

/-- A question. -/
@[simp] theorem start_ask (request : Request) (state : State) :
    start (ask request) state = .ask state.holding request fun answer => .done (.ok answer, state) :=
  rfl

@[simp] theorem start_scope (state : State) :
    start scope state = .done (.ok state.scope, state) := rfl

@[simp] theorem start_modifyScope (f : Scope → Scope) (state : State) :
    start (modifyScope f) state = .done (.ok (), { state with scope := f state.scope }) := rfl

@[simp] theorem start_saveToken (span : Option Span) (state : State) :
    start (saveToken span) state =
      .done (.ok (), { state with scope := state.scope.modifyFrame (Frame.saveToken · span) }) := rfl

@[simp] theorem start_freshIdentity (state : State) :
    start freshIdentity state = .done (.ok state.fresh, { state with fresh := state.fresh + 1 }) :=
  rfl

/-- A part in a frame of its own. -/
theorem start_within (frame : Frame) (body : RenderM α) (state : State) :
    start (within frame body) state =
      (body.start { state with scope := state.scope.push frame }).bind fun (result, behind) =>
        .done (result, { behind with scope := behind.scope.pop }) := rfl

/-- A part behind which values are still used. -/
theorem start_keeping (values : List Value) (body : RenderM α) (state : State) :
    start (keeping values body) state =
      (body.start { state with inUse := values ++ state.inUse }).bind fun (result, behind) =>
        .done (result, { behind with inUse := state.inUse }) := rfl

/-- A part behind which a source is given back. -/
theorem start_releasing_external (source : Nat) (body : RenderM α) (state : State) :
    start (releasing (.external source) body) state =
      (body.start state).bind fun (result, behind) =>
        .ask behind.holding (.release source) fun _ => .done (result, behind) := rfl

/-- The error of a failure in a state. -/
def errorAt (settings : Settings) (state : State) (kind : Kind) (message : String)
    (cause : Option String) : RenderError :=
  { kind, message, span := state.scope.frame.lastToken, stack := stackOf settings.root state.scope,
    cause }

@[simp] theorem start_failWith (settings : Settings) (kind : Kind) (message : String)
    (cause : Option String) (state : State) :
    start (failWith settings kind message cause : RenderM α) state =
      .done (.error (.failed (errorAt settings state kind message cause)), state) := rfl

@[simp] theorem start_fail (settings : Settings) (kind : Kind) (message : String) (state : State) :
    start (fail settings kind message : RenderM α) state =
      .done (.error (.failed (errorAt settings state kind message none)), state) := rfl

/-- A source that was loaded is parsed; its template is kept, or the error is told. -/
theorem storeLoaded_ok (settings : Settings) (name source : String) :
    storeLoaded settings name (.ok source) =
      match parseTemplate ⟨settings.positions, false⟩ source with
      | .error e => do
        saveToken (some e.span)
        failWith settings e.kind ("template parse error: " ++ e.message) (some e.summary)
      | .ok parsed => do
        ask (.store name parsed)
        return parsed :=
  rfl

end RenderM

end Stencil.Render
