import Stencil.Error.Kind
import Stencil.Render.Scope
/-!
# Errors of rendering

A render error tells where it happened: in which construct of the innermost frame, and by which
constructs of the enclosing frames that one was reached.
-/

set_option autoImplicit false

namespace Stencil.Render

open Stencil.Error (Kind)
open Stencil.Text (Span)

/-- The failure of something that rendering depends on. -/
structure Cause where
  text : String
  /-- Whether it is a breach of the protocol of streams. -/
  violation : Bool := false
deriving DecidableEq

/-- One entry of the stack of a render error. -/
structure StackEntry where
  template : String
  path : String
  /-- Line and column, counted from one, where they are known. -/
  place : Option (Nat × Nat)
deriving DecidableEq

namespace StackEntry

/-- The entry in one line. -/
def text (entry : StackEntry) : String :=
  let place :=
    match entry.place with
    | some (line, column) =>
      String.ofList (Nat.toDigits 10 line) ++ ":" ++ String.ofList (Nat.toDigits 10 column)
    | none => "?:?"
  "    at " ++ entry.template ++ " (" ++ entry.path ++ ":" ++ place ++ ")"

end StackEntry

/-- An error of rendering. -/
structure RenderError where
  kind : Kind
  message : String
  /-- The construct of the innermost frame that was evaluated last. -/
  span : Option Span
  /-- The frames that were open, innermost first. -/
  stack : List StackEntry
  /-- What failed, where it was something that rendering depends on. -/
  cause : Option String
deriving DecidableEq

namespace RenderError

/-- The message and the stack, each entry on a line. -/
def text (e : RenderError) : String :=
  e.stack.foldl (fun text entry => text ++ "\n" ++ entry.text) e.message

end RenderError

/-- The path of a template below a root directory. -/
def templatePath (root name : String) : String :=
  let trimmed := (root.toList.reverse.dropWhile (· = '/')).reverse
  if trimmed.isEmpty then name else String.ofList trimmed ++ "/" ++ name

/-- Line and column at which a span starts, counted from one. -/
def placeOf (span : Span) : Nat × Nat := (span.start.line + 1, span.start.column + 1)

/-- The stack entry of the first of some frames. -/
def stackEntry (root : String) (frames : List Frame) (span : Option Span) : StackEntry :=
  let template := (Scope.templateName? frames).getD "(unknown)"
  { template, path := templatePath root template, place := span.map placeOf }

/-- The stack entries of enclosing frames: the place in each is the construct that opened the
frame within it. A frame in which no construct is known has no entry. -/
def outerEntries (root : String) : (inner : Frame) → List Frame → List StackEntry
  | _, [] => []
  | inner, frame :: rest =>
    match inner.origin with
    | some origin =>
      stackEntry root (frame :: rest) (some origin) :: outerEntries root frame rest
    | none => outerEntries root frame rest

/-- The stack of a scope, innermost first. -/
def stackOf (root : String) (scope : Scope) : List StackEntry :=
  stackEntry root scope.frames scope.frame.lastToken
    :: outerEntries root scope.frame scope.outer

end Stencil.Render
