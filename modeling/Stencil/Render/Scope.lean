import Stencil.Text.Position
import Stencil.Value.Basic
/-!
# Scopes

A scope is a chain of frames, innermost first: one for every template and every iteration that
is being rendered. Names are looked up along the chain. A frame that was there before another
was pushed onto it is there again, unchanged, when that one is popped (`pop_push`).
-/

set_option autoImplicit false

namespace Stencil.Render

open Stencil.Text (Span)

/-- One level of a scope. -/
structure Frame where
  /-- The value whose properties are names of the frame. -/
  data : Value
  /-- Names that were given a value in the frame. -/
  locals : List (String × Value) := []
  /-- The name of the template, in a frame that renders a whole one. -/
  template : Option String := none
  /-- The layout that was declared in the frame, and where. -/
  layout : Option (String × Option Span) := none
  /-- The place of the construct that was evaluated last. -/
  lastToken : Option Span := none
  /-- The construct of the enclosing frame that opened this one. -/
  origin : Option Span := none

namespace Frame

/-- The value of a local name. -/
def local? (frame : Frame) (name : String) : Option Value :=
  Table.get? frame.locals name

/-- Gives a local name a value. -/
def setLocal (frame : Frame) (name : String) (value : Value) : Frame :=
  { frame with locals := Table.put frame.locals name value }

/-- The values of the frame. -/
def values (frame : Frame) : List Value := frame.data :: frame.locals.map (·.2)

/-- The frame of a template. Its data also has a name of its own. -/
def ofTemplate (name : String) (data : Value) : Frame :=
  ({ data, template := some name } : Frame).setLocal "$data" data

/-- The frame of one item of an iteration. -/
def ofItem (data : Value) : Frame := { data }

/-- The frame with the construct that opened it. -/
def openedBy (frame : Frame) (origin : Option Span) : Frame := { frame with origin }

/-- Keeps the place of a construct. One without a place leaves the last known one. -/
def saveToken (frame : Frame) (span : Option Span) : Frame :=
  { frame with lastToken := span.or frame.lastToken }

/-- Declares a layout. A later declaration replaces an earlier one. -/
def setLayout (frame : Frame) (name : String) (origin : Option Span) : Frame :=
  { frame with layout := some (name, origin) }

/-- The frame without a declared layout. -/
def dropLayout (frame : Frame) : Frame := { frame with layout := none }

end Frame

/-- A chain of frames, innermost first. -/
structure Scope where
  frame : Frame
  outer : List Frame := []

namespace Scope

/-- The frames of the scope, innermost first. -/
def frames (scope : Scope) : List Frame := scope.frame :: scope.outer

/-- Changes the innermost frame. -/
def modifyFrame (f : Frame → Frame) (scope : Scope) : Scope :=
  { scope with frame := f scope.frame }

/-- Enters a frame. -/
def push (scope : Scope) (frame : Frame) : Scope := ⟨frame, scope.frames⟩

/-- Leaves the innermost frame, unless it is the only one. -/
def pop (scope : Scope) : Scope :=
  match scope.outer with
  | [] => scope
  | frame :: outer => ⟨frame, outer⟩

/-- Leaving a frame that was entered gives the scope back. -/
@[simp] theorem pop_push (scope : Scope) (frame : Frame) : (scope.push frame).pop = scope := rfl

/-- Changes the first frame that renders a template. -/
def modifyTemplateFrames (f : Frame → Frame) : List Frame → List Frame
  | [] => []
  | frame :: rest =>
    if frame.template.isSome then f frame :: rest
    else frame :: modifyTemplateFrames f rest

/-- The name of the template that is rendered in the first frame that has one. -/
def templateName? (frames : List Frame) : Option String :=
  frames.findSome? (·.template)

/-- The frame at a depth below the innermost one. -/
def frameAt? (scope : Scope) (depth : Nat) : Option Frame := scope.frames[depth]?

/-- Declares a layout in the nearest frame that renders a template, seen from a depth. -/
def declareLayout (scope : Scope) (depth : Nat) (name : String) (origin : Option Span) : Scope :=
  let declare := modifyTemplateFrames (Frame.setLayout · name origin)
  match depth with
  | 0 =>
    if scope.frame.template.isSome then scope.modifyFrame (Frame.setLayout · name origin)
    else { scope with outer := declare scope.outer }
  | depth + 1 =>
    { scope with outer := scope.outer.take depth ++ declare (scope.outer.drop depth) }

/-- Changes the frame at a depth. -/
def modifyAt (f : Frame → Frame) (depth : Nat) (scope : Scope) : Scope :=
  match depth with
  | 0 => scope.modifyFrame f
  | depth + 1 => { scope with outer := scope.outer.modify depth f }

end Scope

end Stencil.Render
