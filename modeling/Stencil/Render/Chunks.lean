import Stencil.Parse
import Stencil.Render.Evaluate
import Stencil.Text.Entity
/-!
# Rendering templates

A template is loaded, its chunks are rendered one after the other, and if it declared a layout
its text becomes the body of that. Templates may include others without end, so the nesting is
bounded; reaching the bound is neither a text nor an error.
-/

set_option autoImplicit false

namespace Stencil.Render

open Stencil.Error (Kind)
open Stencil.Stream (Item)
open Stencil.Syntax
open Stencil.Text (Span)

namespace RenderM

/-- Where the items of an iteration come from. -/
inductive Source where
  /-- The items of an array that are left. The array is in use as a whole. -/
  | items (array : Value) (rest : List Value)
  /-- A source that was opened under a number. -/
  | external (source : Nat)

variable (settings : Settings)

/-- The collection that a value stands for. A function is called for it. -/
def collectionOf (value : Value) : RenderM Value :=
  match value with
  | .function handle => do accept settings (← ask (.call handle []))
  | other => return other

/-- Opens the source of the items of a collection. Every iteration has a number of its own. -/
def openCollection (collection : Value) : RenderM Source := do
  let number ← freshIdentity
  match collection with
  | .array _ items => return .items collection items
  | .iterable handle => do
    ask (.iterate number handle)
    return .external number
  | .stream handle => do
    match ← ask (.take number handle) with
    | true => return .external number
    | false =>
      fail settings .notIterable "cannot iterate over a stream that was already consumed"
  | other => fail settings .notIterable ("cannot iterate over " ++ other.typeName)

/-- The source of the items that a value stands for. -/
def sourceOf (value : Value) : RenderM Source := do
  openCollection settings (← collectionOf settings value)

/-- The next item of a source, and the source behind it. -/
def nextItem : Source → RenderM (Option (Item × Source))
  | .items array rest => do
    ask .pause
    match rest with
    | [] => return none
    | value :: rest => return some (⟨none, value⟩, .items array rest)
  | .external source => do
    let item ← accept settings (← ask (.pull source))
    return item.map fun item => (item, .external source)

/-- Gives a source back, whether or not its items were used up. -/
def releasing {α : Type} (source : Source) (body : RenderM α) : RenderM α :=
  match source with
  | .items array _ => keeping [array] body
  | .external source => ExceptT.mk do
    let result ← body.run
    let _ ← (ask (.release source)).run
    return result

/-- The name that an iteration binds at a place of its list of names. -/
def bindingName (bindings : Option (List String)) (place : Nat) : String :=
  match (bindings.getD [])[place]? with
  | some name => name
  | none => (defaultBindings[place]?).getD ""

/-- The frame of an item. -/
def itemFrame (bindings : Option (List String)) (origin : Option Span) (index : Nat)
    (item : Item) : Frame :=
  let position := Value.number index.toFloat
  ((((Frame.ofItem item.value).setLocal (bindingName bindings 0) position).setLocal
    (bindingName bindings 1) item.value).setLocal
    (bindingName bindings 2) (item.key.getD position)).openedBy origin

/-- Renders a body for every item of a source, behind what is written so far. The first argument
bounds the number of items. -/
def forEach (frame : Nat → Item → Frame) (body : RenderM String) :
    Nat → Source → (index : Nat) → (written : String) → RenderM String
  | 0, _, _, _ => throw .exhausted
  | n + 1, source, index, written => do
    match ← nextItem settings source with
    | none => return written
    | some (item, source) =>
      let text ← within (frame index item) body
      forEach frame body n source (index + 1) (written ++ text)

/-- The text of a value that is written out; an undefined one has none. -/
def written (value : Value) : String :=
  if value.isUndefined then "" else value.display

/-- The name of a template, or an error that says what was found instead. -/
def templateName (what : String) : Value → RenderM String
  | .string name => return name
  | other => fail settings .invalidTemplateName (what ++ " must be a string, got " ++ other.typeName)

/-- Evaluates expressions whose values are not used. -/
def evaluateEach : List Expr → RenderM Unit
  | [] => return ()
  | e :: rest => do
    let _ ← evaluate settings e
    evaluateEach rest

/-- Evaluates the arguments of an inclusion. The first is the data of the template, which is an
empty object where there is none. -/
def includeData : List Expr → RenderM Value
  | [] => return .object (← freshIdentity) []
  | first :: others => do
    let data ← evaluate settings first
    keeping [data] (evaluateEach settings others)
    return data

/-- The initial value of a variable. -/
def initialValue : Option Expr → RenderM Value
  | some e => evaluate settings e
  | none => return .undefined

/-- Evaluates the initial values of variables and sets each in the frame. -/
def setVariables : List VarDef → RenderM Unit
  | [] => return ()
  | .mk name initial :: rest => do
    let value ← initialValue settings initial
    modifyScope (Scope.modifyFrame (Frame.setLocal · name value))
    setVariables rest

variable (template : String → RenderM String)

mutual

/-- Renders a chunk; `template` renders the templates it includes. -/
def renderChunk : Chunk → RenderM String
  | .html _ text => return text
  | .echo _ value => do
    return Text.Entity.escapeText (written (← evaluate settings value))
  | .rawHtml _ value => do
    return written (← evaluate settings value)
  | .include span args name => do
    let data ← includeData settings (args.getD [])
    let name ←
      templateName settings "\x7b\x7btmpl\x7d\x7d template name"
        (← keeping [data] (evaluate settings name))
    within ((Frame.ofTemplate name data).openedBy span) (template name)
  | .each span bindings collection body => do
    let source ← sourceOf settings (← evaluate settings collection)
    releasing source
      (forEach settings (itemFrame bindings span) (renderChunks body) settings.limit source 0 "")
  | .ifElse _ condition thenBranch elseIfs elseBranch => do
    if (← evaluate settings condition).truthy then renderChunks thenBranch
    else
      match ← renderElseIfs elseIfs with
      | some text => return text
      | none =>
        match elseBranch with
        | some branch => renderChunks branch
        | none => return ""
  | .layout span name => do
    let name ← templateName settings "\x7b\x7blayout\x7d\x7d template" (← evaluate settings name)
    modifyScope (Scope.declareLayout · 0 name span)
    return ""
  | .var _ defs => do
    setVariables settings defs
    return ""

/-- Renders chunks one after the other. -/
def renderChunks : List Chunk → RenderM String
  | [] => return ""
  | chunk :: rest => do
    saveToken chunk.span
    let text ← renderChunk chunk
    return text ++ (← renderChunks rest)

/-- Renders the first conditional branch whose condition holds, if there is one. -/
def renderElseIfs : List ElseIf → RenderM (Option String)
  | [] => return none
  | .mk condition body :: rest => do
    if (← evaluate settings condition).truthy then return some (← renderChunks body)
    else renderElseIfs rest

end

/-- Parses what was loaded for a name, and puts the template into the cache. -/
def storeLoaded (name : String) : Except Cause String → RenderM Template
  | .error cause =>
    failWith settings .templateLoad ("cannot load template " ++ name ++ ". " ++ cause.text)
      (some cause.text)
  | .ok source =>
    match parseTemplate ⟨settings.positions, false⟩ source with
    | .error e => do
      saveToken (some e.span)
      failWith settings e.kind ("template parse error: " ++ e.message) (some e.summary)
    | .ok parsed => do
      ask (.store name parsed)
      return parsed

/-- The parsed template of a name, from the cache or else loaded. -/
def parsedTemplate (name : String) : RenderM Template := do
  match ← ask (.cached name) with
  | some parsed => return parsed
  | none => storeLoaded settings name (← ask (.load name))

/-- Takes the layout that was declared in the innermost frame. -/
def takeLayout : RenderM (Option (String × Option Span)) := do
  let layout := (← scope).frame.layout
  modifyScope (Scope.modifyFrame Frame.dropLayout)
  return layout

/-- Renders a template in the present scope, and then the layout it declared. The first argument
bounds the nesting. -/
def renderTemplate : Nat → String → RenderM String
  | 0, _ => throw .exhausted
  | n + 1, name => do
    let parsed ← parsedTemplate settings name
    let text ← renderChunks settings (renderTemplate n) parsed.chunks
    match ← takeLayout with
    | none => return text
    | some (layout, origin) =>
      let data := (← scope).frame.data
      within (((Frame.ofTemplate layout data).setLocal "body" (.string text)).openedBy origin)
        (renderTemplate n layout)

end RenderM

end Stencil.Render
