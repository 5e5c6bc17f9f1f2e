import Stencil.Proofs.Rendering.Running
/-!
# What renderings are built of

Every part of a rendering is built of a few pieces: results and failures, questions that are about no
source, changes of the scope, frames, and iterations, which alone deal with sources. What holds of the
pieces, and of pieces put together, holds of the rendering of every template.
-/

set_option autoImplicit false

namespace Stencil.Render

open Stencil.Error (Kind)
open Stencil.Stream (Item)
open Stencil.Syntax
open Stencil.Text (Span)

/-- The source that a request is about. -/
def Request.source? : Request → Option Nat
  | .iterate source _ | .take source _ | .pull source | .release source => some source
  | _ => none

/-- The source that a request opens. -/
def Request.opened? : Request → Option Nat
  | .iterate source _ | .take source _ => some source
  | _ => none

namespace RenderM

/-- An iteration of a template: the chunks that it renders for each item, the names that it gives to
what it binds, and how deep templates may be nested in it. -/
structure Loop where
  span : Option Span
  bindings : Option (List String)
  chunks : List Chunk
  nesting : Nat

namespace Loop

variable (settings : Settings) (loop : Loop)

/-- The frame of an item. -/
def frame (index : Nat) (item : Item) : Frame := itemFrame loop.bindings loop.span index item

/-- What is rendered for an item. -/
def body : RenderM String :=
  renderChunks settings (renderTemplate settings loop.nesting) loop.chunks

/-- The rounds for the items of a source that are left. -/
def rounds (n : Nat) (source : Source) (index : Nat) (written : String) : RenderM String :=
  forEach settings loop.frame (loop.body settings) n source index written

/-- The iteration of a collection. -/
def iterate (collection : Value) : RenderM String := do
  let source ← openCollection settings collection
  releasing source (loop.rounds settings settings.limit source 0 "")

end Loop

variable {settings : Settings}

/-- What parts of a rendering are built of. -/
inductive Built (settings : Settings) : {α : Type} → RenderM α → Prop
  | pure {α : Type} (result : α) : Built settings (pure result : RenderM α)
  | throw {α : Type} (failure : Failure) : Built settings (throw failure : RenderM α)
  | bind {α β : Type} {m : RenderM α} {next : α → RenderM β} (first : Built settings m)
    (rest : ∀ result, Built settings (next result)) : Built settings (m >>= next)
  | scope : Built settings scope
  | modifyScope (f : Scope → Scope) : Built settings (modifyScope f)
  | freshIdentity : Built settings freshIdentity
  | ask {request : Request} (apart : request.source? = none) : Built settings (ask request)
  | within {α : Type} (frame : Frame) {body : RenderM α} (inner : Built settings body) :
    Built settings (within frame body)
  | keeping {α : Type} (values : List Value) {body : RenderM α} (inner : Built settings body) :
    Built settings (keeping values body)
  | iterate (loop : Loop) (collection : Value) (inner : Built settings (loop.body settings)) :
    Built settings (loop.iterate settings collection)

/-! ## Failures and answers -/

theorem built_failWith {α : Type} (kind : Kind) (message : String) (cause : Option String) :
    Built settings (failWith settings kind message cause : RenderM α) :=
  .bind .scope fun _ => .throw _

theorem built_fail {α : Type} (kind : Kind) (message : String) :
    Built settings (fail settings kind message : RenderM α) :=
  built_failWith kind message none

theorem built_accept {α : Type} (answer : Except Cause α) : Built settings (accept settings answer) := by
  cases answer with
  | ok result => exact .pure result
  | error cause => exact built_failWith _ _ _

/-! ## Expressions -/

theorem built_resolveIn (name : String) (frames : List Frame) :
    Built settings (resolveIn settings name frames) := by
  induction frames with
  | nil => exact built_fail _ _
  | cons frame outer ih =>
    rw [resolveIn]
    split
    · exact .pure _
    · split
      · refine .bind (.ask rfl) fun answer => .bind (built_accept answer) fun value => ?_
        split
        · exact ih
        · exact .pure _
      · split
        · exact .pure _
        · exact ih

theorem built_member (base : Value) (key : String) : Built settings (member settings base key) := by
  unfold member
  split
  · exact built_fail _ _
  · exact built_fail _ _
  · exact .bind (.keeping _ (.ask rfl)) fun answer => built_accept answer
  · exact .pure _

theorem built_call (handle : Nat) (args : List Value) :
    Built settings (do accept settings (← ask (.call handle args))) :=
  .bind (.ask rfl) fun answer => built_accept answer

theorem built_apply (function : Value) (callee : Expr) (args : List Value) :
    Built settings (apply settings function callee args) := by
  unfold apply
  split
  · exact built_call _ _
  · exact built_fail _ _

theorem built_applyUnary (op : UnaryOp) (operand : Value) :
    Built settings (applyUnary settings op operand) := by
  unfold applyUnary
  split
  · exact .pure _
  · exact .pure _
  · exact .pure _
  · exact built_fail _ _

theorem built_applyBinary (op : BinaryOp) (left right : Value) :
    Built settings (applyBinary settings op left right) := by
  unfold applyBinary
  split
  · exact .pure _
  · exact built_fail _ _

theorem built_guarded {e : Expr} {body : RenderM Value} (inner : Built settings body) :
    Built settings (guarded settings e body) := by
  refine .bind (.modifyScope _) fun _ => ?_
  split
  · exact built_fail _ _
  · exact inner

mutual

theorem built_evaluate : ∀ e : Expr, Built settings (evaluate settings e)
  | .num .. | .string .. | .atom .. => by
    rw [evaluate]
    exact built_guarded (.pure _)
  | .name s name => by
    rw [evaluate]
    exact built_guarded (.bind .scope fun scope => built_resolveIn name scope.frames)
  | .array s items => by
    rw [evaluate]
    exact built_guarded (.bind (built_evaluateAll items) fun _ => .bind .freshIdentity fun _ => .pure _)
  | .object s properties => by
    rw [evaluate]
    exact built_guarded
      (.bind (built_evaluateProperties properties []) fun _ => .bind .freshIdentity fun _ => .pure _)
  | .dot s target property => by
    rw [evaluate]
    exact built_guarded (.bind (built_evaluate target) fun base => built_member base property)
  | .sub s target index => by
    rw [evaluate]
    exact built_guarded (.bind (built_evaluate target) fun base =>
      .bind (.keeping _ (built_evaluate index)) fun key => built_member base key.display)
  | .call s callee args => by
    rw [evaluate]
    exact built_guarded (.bind (built_evaluate callee) fun function =>
      .bind (.keeping _ (built_evaluateAll args)) fun values =>
        .bind (.modifyScope _) fun _ => built_apply function callee values)
  | .prefixOp s op operand => by
    rw [evaluate]
    exact built_guarded (.bind (built_evaluate operand) fun value => built_applyUnary op value)
  | .binary s op left right => by
    rw [evaluate]
    refine built_guarded (.bind (built_evaluate left) fun first => ?_)
    have second := Built.keeping [first] (built_evaluate right)
    split
    · split
      · exact second
      · exact .pure _
    · split
      · exact .pure _
      · exact second
    · exact .bind second fun value => built_applyBinary _ first value
  | .conditional s test yes no => by
    rw [evaluate]
    refine built_guarded (.bind (built_evaluate test) fun value => ?_)
    split
    · exact built_evaluate yes
    · exact built_evaluate no
  | .regexp .. | .new .. | .postfixOp .. | .assign .. | .seq .. | .function .. => by
    rw [evaluate]
    exact built_guarded (built_fail _ _)

theorem built_evaluateAll : ∀ items : List Expr, Built settings (evaluateAll settings items)
  | [] => .pure _
  | e :: rest => by
    rw [evaluateAll]
    exact .bind (built_evaluate e) fun _ => .bind (.keeping _ (built_evaluateAll rest)) fun _ => .pure _

theorem built_evaluateProperties : ∀ (properties : List Property) (entries : List (String × Value)),
    Built settings (evaluateProperties settings entries properties)
  | [], entries => .pure entries
  | .init key value :: rest, entries => by
    rw [evaluateProperties]
    exact .bind (.keeping _ (built_evaluate value)) fun value =>
      built_evaluateProperties rest (Table.put entries key value)
  | .getter .. :: _, _ | .setter .. :: _, _ => by
    rw [evaluateProperties]
    exact built_fail _ _

end

/-! ## Chunks -/

theorem built_collectionOf (value : Value) : Built settings (collectionOf settings value) := by
  unfold collectionOf
  split
  · exact built_call _ _
  · exact .pure _

theorem built_templateName (what : String) (value : Value) :
    Built settings (templateName settings what value) := by
  unfold templateName
  split
  · exact .pure _
  · exact built_fail _ _

theorem built_evaluateEach (items : List Expr) : Built settings (evaluateEach settings items) := by
  induction items with
  | nil => exact .pure _
  | cons e rest ih => exact .bind (built_evaluate e) fun _ => ih

theorem built_includeData (args : List Expr) : Built settings (includeData settings args) := by
  cases args with
  | nil => exact .bind .freshIdentity fun _ => .pure _
  | cons first others =>
    exact .bind (built_evaluate first) fun data =>
      .bind (.keeping _ (built_evaluateEach others)) fun _ => .pure _

theorem built_initialValue (initial : Option Expr) : Built settings (initialValue settings initial) := by
  cases initial with
  | none => exact .pure _
  | some e => exact built_evaluate e

theorem built_setVariables (defs : List VarDef) : Built settings (setVariables settings defs) := by
  induction defs with
  | nil => exact .pure _
  | cons def_ rest ih =>
    obtain ⟨name, initial⟩ := def_
    exact .bind (built_initialValue initial) fun _ => .bind (.modifyScope _) fun _ => ih

section

variable {n : Nat} (templates : ∀ name, Built settings (renderTemplate settings n name))

include templates

set_option linter.unusedSectionVars false

mutual

theorem built_renderChunk : ∀ chunk : Chunk,
    Built settings (renderChunk settings (renderTemplate settings n) chunk)
  | .html _ text => .pure text
  | .echo _ value | .rawHtml _ value => by
    rw [renderChunk]
    exact .bind (built_evaluate value) fun _ => .pure _
  | .include span args name => by
    rw [renderChunk]
    exact .bind (built_includeData (args.getD [])) fun data =>
      .bind (.keeping _ (built_evaluate name)) fun value =>
        .bind (built_templateName _ value) fun name => .within _ (templates name)
  | .each span bindings collection body => by
    rw [renderChunk]
    refine .bind (built_evaluate collection) fun value => ?_
    rw [sourceOf, bind_assoc]
    exact .bind (built_collectionOf value) fun collection =>
      .iterate ⟨span, bindings, body, n⟩ collection (built_renderChunks body)
  | .ifElse _ condition thenBranch elseIfs none => by
    rw [renderChunk]
    refine .bind (built_evaluate condition) fun value => ?_
    split
    · exact built_renderChunks thenBranch
    · refine .bind (built_renderElseIfs elseIfs) fun text => ?_
      split <;> exact .pure _
  | .ifElse _ condition thenBranch elseIfs (some branch) => by
    rw [renderChunk]
    refine .bind (built_evaluate condition) fun value => ?_
    split
    · exact built_renderChunks thenBranch
    · refine .bind (built_renderElseIfs elseIfs) fun text => ?_
      split
      · exact .pure _
      · exact built_renderChunks branch
  | .layout span name => by
    rw [renderChunk]
    exact .bind (built_evaluate name) fun value =>
      .bind (built_templateName _ value) fun name => .bind (.modifyScope _) fun _ => .pure _
  | .var _ defs => by
    rw [renderChunk]
    exact .bind (built_setVariables defs) fun _ => .pure _

theorem built_renderChunks : ∀ chunks : List Chunk,
    Built settings (renderChunks settings (renderTemplate settings n) chunks)
  | [] => .pure _
  | chunk :: rest => by
    rw [renderChunks]
    exact .bind (.modifyScope _) fun _ => .bind (built_renderChunk chunk) fun _ =>
      .bind (built_renderChunks rest) fun _ => .pure _

theorem built_renderElseIfs : ∀ branches : List ElseIf,
    Built settings (renderElseIfs settings (renderTemplate settings n) branches)
  | [] => .pure _
  | .mk condition body :: rest => by
    rw [renderElseIfs]
    refine .bind (built_evaluate condition) fun value => ?_
    split
    · exact .bind (built_renderChunks body) fun _ => .pure _
    · exact built_renderElseIfs rest

end

end

/-! ## Templates -/

theorem built_storeLoaded (name : String) (loaded : Except Cause String) :
    Built settings (storeLoaded settings name loaded) := by
  cases loaded with
  | error cause => exact built_failWith _ _ _
  | ok source =>
    rw [storeLoaded_ok]
    split
    · exact .bind (.modifyScope _) fun _ => built_failWith _ _ _
    · exact .bind (.ask rfl) fun _ => .pure _

theorem built_parsedTemplate (name : String) : Built settings (parsedTemplate settings name) := by
  refine .bind (.ask rfl) fun found => ?_
  cases found with
  | some parsed => exact .pure _
  | none => exact .bind (.ask rfl) fun loaded => built_storeLoaded name loaded

theorem built_renderTemplate (n : Nat) : ∀ name, Built settings (renderTemplate settings n name) := by
  induction n with
  | zero => exact fun _ => .throw _
  | succ n ih =>
    intro name
    rw [renderTemplate]
    refine .bind (built_parsedTemplate name) fun parsed => ?_
    refine .bind (built_renderChunks ih parsed.chunks) fun text => ?_
    have layout : Built settings takeLayout :=
      .bind .scope fun _ => .bind (.modifyScope _) fun _ => .pure _
    refine .bind layout fun layout => ?_
    split
    · exact .pure _
    · exact .bind .scope fun _ => .within _ (ih _)

end RenderM

end Stencil.Render
