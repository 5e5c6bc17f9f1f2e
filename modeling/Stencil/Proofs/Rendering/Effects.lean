import Stencil.Proofs.Rendering.Preloaded
import Stencil.Proofs.Syntax.Parts
/-!
# What renderings do to the scope

Evaluating an expression keeps places in the innermost frame and changes nothing else of the scope
(`Evaluates`). Rendering chunks may also set variables, declare layouts, and open frames of their own
for items and for templates (`Renders`). Both say which places are kept: `Places` are those of the
tree that is rendered. What the pieces keep, every part of a rendering keeps.
-/

set_option autoImplicit false

namespace Stencil.Syntax

/-- An expression is among its parts. -/
theorem Expr.mem_parts (e : Expr) : .expr e ∈ e.parts := by
  cases e <;> simp

/-- A chunk is among its parts. -/
theorem Chunk.mem_parts (c : Chunk) : .chunk c ∈ c.parts := by
  rw [Chunk.parts.eq_def]
  cases c <;> exact List.mem_cons_self ..

end Stencil.Syntax

namespace Stencil.Render

open Stencil.Error (Kind)
open Stencil.Stream (Item)
open Stencil.Syntax
open Stencil.Text (Span)

/-- The places of a tree that is rendered: of what is evaluated in it, and of the chunks, which open
frames and declare layouts. -/
structure Places where
  token : Option Span → Prop
  origin : Option Span → Prop

/-- Whether the places have those of a part of the tree. -/
def Places.Have (places : Places) : Part → Prop
  | .expr e => places.token e.span
  | .chunk c => places.token c.span ∧ places.origin c.span
  | _ => True

/-- Every place. -/
def Places.all : Places := ⟨fun _ => True, fun _ => True⟩

theorem Places.all_have (part : Part) : Places.all.Have part := by
  cases part <;> simp [Places.Have, Places.all]

namespace RenderM

variable {settings : Settings} {places : Places}

/-! ## Expressions -/

/-- What the evaluation of expressions is built of. -/
inductive Evaluates (settings : Settings) (places : Places) : {α : Type} → RenderM α → Prop
  | pure {α : Type} (result : α) : Evaluates settings places (pure result : RenderM α)
  | failWith {α : Type} (kind : Kind) (message : String) (cause : Option String) :
    Evaluates settings places (failWith settings kind message cause : RenderM α)
  | bind {α β : Type} {m : RenderM α} {next : α → RenderM β} (first : Evaluates settings places m)
    (rest : ∀ result, Evaluates settings places (next result)) :
    Evaluates settings places (m >>= next)
  | scope : Evaluates settings places scope
  | saveToken {span : Option Span} (known : places.token span) :
    Evaluates settings places (saveToken span)
  | freshIdentity : Evaluates settings places freshIdentity
  | ask {request : Request} (apart : request.isTemplate = false) :
    Evaluates settings places (ask request)
  | keeping {α : Type} (values : List Value) {body : RenderM α}
    (inner : Evaluates settings places body) : Evaluates settings places (keeping values body)

theorem evaluates_fail {α : Type} (kind : Kind) (message : String) :
    Evaluates settings places (fail settings kind message : RenderM α) :=
  .failWith kind message none

theorem evaluates_accept {α : Type} (answer : Except Cause α) :
    Evaluates settings places (accept settings answer) := by
  cases answer with
  | ok result => exact .pure result
  | error cause => exact .failWith _ _ _

theorem evaluates_resolveIn (name : String) (frames : List Frame) :
    Evaluates settings places (resolveIn settings name frames) := by
  induction frames with
  | nil => exact evaluates_fail _ _
  | cons frame outer ih =>
    rw [resolveIn]
    split
    · exact .pure _
    · split
      · refine .bind (.ask rfl) fun answer => .bind (evaluates_accept answer) fun value => ?_
        split
        · exact ih
        · exact .pure _
      · split
        · exact .pure _
        · exact ih

theorem evaluates_member (base : Value) (key : String) :
    Evaluates settings places (member settings base key) := by
  unfold member
  split
  · exact evaluates_fail _ _
  · exact evaluates_fail _ _
  · exact .bind (.keeping _ (.ask rfl)) fun answer => evaluates_accept answer
  · exact .pure _

theorem evaluates_call (handle : Nat) (args : List Value) :
    Evaluates settings places (do accept settings (← ask (.call handle args))) :=
  .bind (.ask rfl) fun answer => evaluates_accept answer

theorem evaluates_apply (function : Value) (callee : Expr) (args : List Value) :
    Evaluates settings places (apply settings function callee args) := by
  unfold apply
  split
  · exact evaluates_call _ _
  · exact evaluates_fail _ _

theorem evaluates_applyUnary (op : UnaryOp) (operand : Value) :
    Evaluates settings places (applyUnary settings op operand) := by
  unfold applyUnary
  split
  · exact .pure _
  · exact .pure _
  · exact .pure _
  · exact evaluates_fail _ _

theorem evaluates_applyBinary (op : BinaryOp) (left right : Value) :
    Evaluates settings places (applyBinary settings op left right) := by
  unfold applyBinary
  split
  · exact .pure _
  · exact evaluates_fail _ _

theorem evaluates_guarded {e : Expr} {body : RenderM Value}
    (known : Everywhere places.Have e.parts) (inner : Evaluates settings places body) :
    Evaluates settings places (guarded settings e body) := by
  refine .bind (.saveToken (known _ e.mem_parts)) fun _ => ?_
  split
  · exact evaluates_fail _ _
  · exact inner

mutual

theorem evaluates_evaluate : ∀ e : Expr, Everywhere places.Have e.parts →
    Evaluates settings places (evaluate settings e)
  | .num .., known | .string .., known | .atom .., known => by
    rw [evaluate]
    exact evaluates_guarded known (.pure _)
  | .name s name, known => by
    rw [evaluate]
    exact evaluates_guarded known
      (.bind .scope fun scope => evaluates_resolveIn name scope.frames)
  | .array s items, known => by
    rw [evaluate]
    have parts := known
    simp only [Expr.parts, everywhere_cons] at parts
    exact evaluates_guarded known
      (.bind (evaluates_evaluateAll items parts.2) fun _ => .bind .freshIdentity fun _ => .pure _)
  | .object s properties, known => by
    rw [evaluate]
    have parts := known
    simp only [Expr.parts, everywhere_cons] at parts
    exact evaluates_guarded known
      (.bind (evaluates_evaluateProperties properties [] parts.2) fun _ =>
        .bind .freshIdentity fun _ => .pure _)
  | .dot s target property, known => by
    rw [evaluate]
    have parts := known
    simp only [Expr.parts, everywhere_cons] at parts
    exact evaluates_guarded known
      (.bind (evaluates_evaluate target parts.2) fun base => evaluates_member base property)
  | .sub s target index, known => by
    rw [evaluate]
    have parts := known
    simp only [Expr.parts, everywhere_cons, everywhere_append] at parts
    exact evaluates_guarded known (.bind (evaluates_evaluate target parts.2.1) fun base =>
      .bind (.keeping _ (evaluates_evaluate index parts.2.2)) fun key =>
        evaluates_member base key.display)
  | .call s callee args, known => by
    rw [evaluate]
    have parts := known
    simp only [Expr.parts, everywhere_cons, everywhere_append] at parts
    exact evaluates_guarded known (.bind (evaluates_evaluate callee parts.2.1) fun function =>
      .bind (.keeping _ (evaluates_evaluateAll args parts.2.2)) fun values =>
        .bind (.saveToken (known _ (Expr.mem_parts _))) fun _ => evaluates_apply function callee values)
  | .prefixOp s op operand, known => by
    rw [evaluate]
    have parts := known
    simp only [Expr.parts, everywhere_cons] at parts
    exact evaluates_guarded known
      (.bind (evaluates_evaluate operand parts.2) fun value => evaluates_applyUnary op value)
  | .binary s op left right, known => by
    rw [evaluate]
    have parts := known
    simp only [Expr.parts, everywhere_cons, everywhere_append] at parts
    refine evaluates_guarded known (.bind (evaluates_evaluate left parts.2.1) fun first => ?_)
    have second := Evaluates.keeping [first] (evaluates_evaluate right parts.2.2)
    split
    · split
      · exact second
      · exact .pure _
    · split
      · exact .pure _
      · exact second
    · exact .bind second fun value => evaluates_applyBinary _ first value
  | .conditional s test yes no, known => by
    rw [evaluate]
    have parts := known
    simp only [Expr.parts, everywhere_cons, everywhere_append] at parts
    refine evaluates_guarded known (.bind (evaluates_evaluate test parts.2.1.1) fun value => ?_)
    split
    · exact evaluates_evaluate yes parts.2.1.2
    · exact evaluates_evaluate no parts.2.2
  | .regexp .., known | .new .., known | .postfixOp .., known | .assign .., known
  | .seq .., known | .function .., known => by
    rw [evaluate]
    exact evaluates_guarded known (evaluates_fail _ _)

theorem evaluates_evaluateAll : ∀ items : List Expr, Everywhere places.Have (partsOfExprs items) →
    Evaluates settings places (evaluateAll settings items)
  | [], _ => .pure _
  | e :: rest, known => by
    rw [evaluateAll]
    simp only [partsOfExprs, everywhere_append] at known
    exact .bind (evaluates_evaluate e known.1) fun _ =>
      .bind (.keeping _ (evaluates_evaluateAll rest known.2)) fun _ => .pure _

theorem evaluates_evaluateProperties : ∀ (properties : List Property)
    (entries : List (String × Value)), Everywhere places.Have (partsOfProperties properties) →
    Evaluates settings places (evaluateProperties settings entries properties)
  | [], entries, _ => .pure entries
  | .init key value :: rest, entries, known => by
    rw [evaluateProperties]
    simp only [partsOfProperties, Property.parts, everywhere_cons, everywhere_append] at known
    exact .bind (.keeping _ (evaluates_evaluate value known.1.2)) fun value =>
      evaluates_evaluateProperties rest (Table.put entries key value) known.2
  | .getter .. :: _, _, _ | .setter .. :: _, _, _ => by
    rw [evaluateProperties]
    exact evaluates_fail _ _

end

theorem evaluates_evaluateEach {items : List Expr}
    (known : Everywhere places.Have (partsOfExprs items)) :
    Evaluates settings places (evaluateEach settings items) := by
  induction items with
  | nil => exact .pure _
  | cons e rest ih =>
    simp only [partsOfExprs, everywhere_append] at known
    exact .bind (evaluates_evaluate e known.1) fun _ => ih known.2

theorem evaluates_includeData {args : List Expr}
    (known : Everywhere places.Have (partsOfExprs args)) :
    Evaluates settings places (includeData settings args) := by
  cases args with
  | nil => exact .bind .freshIdentity fun _ => .pure _
  | cons first others =>
    simp only [partsOfExprs, everywhere_append] at known
    exact .bind (evaluates_evaluate first known.1) fun data =>
      .bind (.keeping _ (evaluates_evaluateEach known.2)) fun _ => .pure _

theorem evaluates_templateName (what : String) (value : Value) :
    Evaluates settings places (templateName settings what value) := by
  unfold templateName
  split
  · exact .pure _
  · exact evaluates_fail _ _

theorem evaluates_initialValue {initial : Option Expr}
    (known : Everywhere places.Have (partsOfOptional initial)) :
    Evaluates settings places (initialValue settings initial) := by
  cases initial with
  | none => exact .pure _
  | some e => exact evaluates_evaluate e known

/-- Opening a collection. -/
theorem evaluates_sourceOf (value : Value) : Evaluates settings places (sourceOf settings value) := by
  have collection : Evaluates settings places (collectionOf settings value) := by
    unfold collectionOf
    split
    · exact evaluates_call _ _
    · exact .pure _
  refine .bind collection fun collection => .bind .freshIdentity fun number => ?_
  split
  · exact .pure _
  · exact .bind (.ask rfl) fun _ => .pure _
  · refine .bind (.ask rfl) fun fresh => ?_
    split
    · exact .pure _
    · exact evaluates_fail _ _
  · exact evaluates_fail _ _

/-- Taking an item. -/
theorem evaluates_nextItem (source : Source) :
    Evaluates settings places (nextItem settings source) := by
  cases source with
  | items array rest =>
    refine .bind (.ask rfl) fun _ => ?_
    split <;> exact .pure _
  | external source =>
    exact .bind (.ask rfl) fun answer => .bind (evaluates_accept answer) fun item => .pure _

/-! ## Chunks -/

/-- What the rendering of chunks is built of, with templates nested up to a depth. -/
inductive Renders (settings : Settings) (n : Nat) (places : Places) : {α : Type} → RenderM α → Prop
  | evaluates {α : Type} {m : RenderM α} (inner : Evaluates settings places m) :
    Renders settings n places m
  | exhausted {α : Type} : Renders settings n places (throw .exhausted : RenderM α)
  | bind {α β : Type} {m : RenderM α} {next : α → RenderM β} (first : Renders settings n places m)
    (rest : ∀ result, Renders settings n places (next result)) :
    Renders settings n places (m >>= next)
  | releasing {α : Type} (source : Source) {body : RenderM α}
    (inner : Renders settings n places body) : Renders settings n places (releasing source body)
  | setLocal (name : String) (value : Value) :
    Renders settings n places (modifyScope (Scope.modifyFrame (Frame.setLocal · name value)))
  | declareLayout (name : String) {span : Option Span} (known : places.origin span) :
    Renders settings n places (modifyScope (Scope.declareLayout · 0 name span))
  | item (bindings : Option (List String)) {span : Option Span} (known : places.origin span)
    (index : Nat) (item : Item) {body : RenderM String} (inner : Renders settings n places body) :
    Renders settings n places (within (itemFrame bindings span index item) body)
  | included (name : String) (data : Value) {span : Option Span} (known : places.origin span) :
    Renders settings n places
      (within ((Frame.ofTemplate name data).openedBy span) (renderTemplate settings n name))

variable {n : Nat}

theorem renders_pure {α : Type} (result : α) :
    Renders settings n places (pure result : RenderM α) :=
  .evaluates (.pure result)

theorem renders_setVariables {defs : List VarDef}
    (known : Everywhere places.Have (partsOfVarDefs defs)) :
    Renders settings n places (setVariables settings defs) := by
  induction defs with
  | nil => exact renders_pure _
  | cons def_ rest ih =>
    obtain ⟨name, initial⟩ := def_
    simp only [partsOfVarDefs, VarDef.parts, everywhere_append, everywhere_cons] at known
    exact .bind (.evaluates (evaluates_initialValue known.1.2)) fun _ =>
      .bind (.setLocal _ _) fun _ => ih known.2

/-- The rounds of an iteration, each in the frame of its item. -/
theorem renders_forEach {bindings : Option (List String)} {span : Option Span}
    (known : places.origin span) {body : RenderM String} (inner : Renders settings n places body) :
    ∀ (rounds : Nat) (source : Source) (index : Nat) (written : String),
      Renders settings n places
        (forEach settings (itemFrame bindings span) body rounds source index written)
  | 0, _, _, _ => .exhausted
  | rounds + 1, source, index, written => by
    rw [forEach]
    refine .bind (.evaluates (evaluates_nextItem source)) fun next => ?_
    split
    · exact renders_pure _
    · exact .bind (.item bindings known index _ inner) fun text =>
        renders_forEach known inner rounds _ _ _

mutual

theorem renders_renderChunk : ∀ chunk : Chunk, Everywhere places.Have chunk.parts →
    Renders settings n places (renderChunk settings (renderTemplate settings n) chunk)
  | .html _ text, _ => by
    rw [renderChunk]
    exact renders_pure _
  | .echo _ value, known | .rawHtml _ value, known => by
    rw [renderChunk]
    simp only [Chunk.parts, everywhere_cons] at known
    exact .bind (.evaluates (evaluates_evaluate value known.2)) fun _ => renders_pure _
  | .include span args name, known => by
    rw [renderChunk]
    simp only [Chunk.parts, everywhere_cons, everywhere_append] at known
    obtain ⟨here, onArgs, onName⟩ := known
    exact .bind (.evaluates (evaluates_includeData onArgs)) fun data =>
      .bind (.evaluates (.keeping _ (evaluates_evaluate name onName))) fun value =>
        .bind (.evaluates (evaluates_templateName _ value)) fun name => .included name data here.2
  | .each span bindings collection body, known => by
    rw [renderChunk]
    simp only [Chunk.parts, everywhere_cons, everywhere_append] at known
    obtain ⟨here, onCollection, onBody⟩ := known
    exact .bind (.evaluates (evaluates_evaluate collection onCollection)) fun value =>
      .bind (.evaluates (evaluates_sourceOf value)) fun source =>
        .releasing source
          (renders_forEach here.2 (renders_renderChunks body onBody) settings.limit source 0 "")
  | .ifElse _ condition thenBranch elseIfs none, known => by
    rw [renderChunk]
    obtain ⟨-, onCondition, onThen, onElseIfs, -⟩ := everywhere_conditional.1 known
    refine .bind (.evaluates (evaluates_evaluate condition onCondition)) fun value => ?_
    split
    · exact renders_renderChunks thenBranch onThen
    · refine .bind (renders_renderElseIfs elseIfs onElseIfs) fun text => ?_
      split <;> exact renders_pure _
  | .ifElse _ condition thenBranch elseIfs (some branch), known => by
    rw [renderChunk]
    obtain ⟨-, onCondition, onThen, onElseIfs, onElse⟩ := everywhere_conditional.1 known
    refine .bind (.evaluates (evaluates_evaluate condition onCondition)) fun value => ?_
    split
    · exact renders_renderChunks thenBranch onThen
    · refine .bind (renders_renderElseIfs elseIfs onElseIfs) fun text => ?_
      split
      · exact renders_pure _
      · exact renders_renderChunks branch (onElse branch rfl)
  | .layout span name, known => by
    rw [renderChunk]
    simp only [Chunk.parts, everywhere_cons] at known
    exact .bind (.evaluates (evaluates_evaluate name known.2)) fun value =>
      .bind (.evaluates (evaluates_templateName _ value)) fun name =>
        .bind (.declareLayout name known.1.2) fun _ => renders_pure _
  | .var _ defs, known => by
    rw [renderChunk]
    simp only [Chunk.parts, everywhere_cons] at known
    exact .bind (renders_setVariables known.2) fun _ => renders_pure _

theorem renders_renderChunks : ∀ chunks : List Chunk, Everywhere places.Have (partsOfChunks chunks) →
    Renders settings n places (renderChunks settings (renderTemplate settings n) chunks)
  | [], _ => by
    rw [renderChunks]
    exact renders_pure _
  | chunk :: rest, known => by
    rw [renderChunks]
    simp only [partsOfChunks, everywhere_append] at known
    exact .bind (.evaluates (.saveToken (known.1 _ chunk.mem_parts).1)) fun _ =>
      .bind (renders_renderChunk chunk known.1) fun _ =>
        .bind (renders_renderChunks rest known.2) fun _ => renders_pure _

theorem renders_renderElseIfs : ∀ branches : List ElseIf,
    Everywhere places.Have (partsOfElseIfs branches) →
    Renders settings n places (renderElseIfs settings (renderTemplate settings n) branches)
  | [], _ => by
    rw [renderElseIfs]
    exact renders_pure _
  | .mk condition body :: rest, known => by
    rw [renderElseIfs]
    simp only [partsOfElseIfs, ElseIf.parts, everywhere_append, everywhere_cons] at known
    obtain ⟨⟨-, onCondition, onBody⟩, onRest⟩ := known
    refine .bind (.evaluates (evaluates_evaluate condition onCondition)) fun value => ?_
    split
    · exact .bind (renders_renderChunks body onBody) fun _ => renders_pure _
    · exact renders_renderElseIfs rest onRest

end

end RenderM

end Stencil.Render
