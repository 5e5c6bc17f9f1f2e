import Stencil.Analysis.Findings
import Stencil.Render.Chunks
/-!
# Rendering by name

`render` is the process of rendering a template with data, and `preload` the process that brings
a template and all that it refers to by fixed names into the cache.
-/

set_option autoImplicit false

namespace Stencil.Render

/-- The process of a part of a rendering that starts in a frame. -/
def RenderM.process {α : Type} (frame : Frame) (fresh : Nat) (body : RenderM α) :
    Process (Except Failure α) := do
  let (result, _) ← body.run.run { scope := { frame }, fresh }
  return result

/-- The process of rendering a template. Arrays and objects that templates make are numbered
from `fresh`, which has to lie above the numbers in the data. -/
def render (settings : Settings) (name : String) (data : Value) (fresh : Nat) :
    Process (Except Failure String) :=
  (RenderM.renderTemplate settings settings.limit name).process (Frame.ofTemplate name data) fresh

/-- Brings the templates of a stack, and all that they refer to by fixed names, into the cache,
and counts the names. The first argument bounds the number of names that are taken off the
stack. -/
def RenderM.preloadFrom (settings : Settings) :
    Nat → (seen : List String) → List String → RenderM Nat
  | 0, _, _ => throw .exhausted
  | _ + 1, seen, [] => return seen.length
  | n + 1, seen, name :: rest => do
    if seen.contains name then preloadFrom settings n seen rest
    else
      modifyScope fun _ => { frame := Frame.ofTemplate name .undefined }
      let template ← parsedTemplate settings name
      preloadFrom settings n (name :: seen) (template.dependencies ++ rest)

/-- The process of bringing a template, and all that it refers to by fixed names, into the cache;
it gives the number of these templates. -/
def preload (settings : Settings) (name : String) : Process (Except Failure Nat) :=
  (RenderM.preloadFrom settings settings.limit [] [name]).process
    (Frame.ofTemplate name .undefined) 0

end Stencil.Render
