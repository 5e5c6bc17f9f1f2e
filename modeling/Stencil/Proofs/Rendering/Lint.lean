import Stencil.Analysis.Findings
import Stencil.Proofs.Rendering.Running
import Mathlib.Data.List.Basic
/-!
# Templates that rendering does not refuse

The analysis of a template lists the expressions that rendering would refuse. A template without
such a finding is rendered without a refusal, whatever the data and whoever answers, provided that
no object literal in it has an accessor: the analysis does not enter accessors, and rendering
refuses them (`accessor_unreported`). What other templates do that it includes is their own matter.
-/

set_option autoImplicit false
set_option linter.unusedSectionVars false

namespace Stencil.Render

open Stencil.Error (Kind)
open Stencil.Stream (Item)
open Stencil.Syntax
open Stencil.Text (Span)

namespace RenderM

variable {α β : Type}

/-! ## Parts that do not fail in one way -/

/-- Whether a part of a rendering never fails with an error of the kind, from whatever state and
whatever it is answered. -/
def Spares (kind : Kind) (m : RenderM α) : Prop :=
  ∀ state, (m.start state).Always fun behind =>
    ∀ e, behind.1 = .error (.failed e) → e.kind ≠ kind

variable {kind : Kind}

@[simp] theorem spares_pure (result : α) : Spares kind (pure result : RenderM α) :=
  fun _ _ failed => nomatch failed

theorem spares_bind {m : RenderM α} {next : α → RenderM β} (first : Spares kind m)
    (second : ∀ result, Spares kind (next result)) : Spares kind (m >>= next) := by
  intro state
  rw [start_bind]
  refine Process.always_bind (first state) ?_
  rintro ⟨result, behind⟩ spared
  cases result with
  | ok result => exact second result behind
  | error failure =>
    intro e failed
    obtain rfl := Except.error.inj failed
    exact spared e rfl

@[simp] theorem spares_ask (request : Request) : Spares kind (ask request) :=
  fun _ _ _ failed => nomatch failed

@[simp] theorem spares_scope : Spares kind scope := fun _ _ failed => nomatch failed

@[simp] theorem spares_modifyScope (f : Scope → Scope) : Spares kind (modifyScope f) :=
  fun _ _ failed => nomatch failed

@[simp] theorem spares_saveToken (span : Option Span) : Spares kind (saveToken span) :=
  spares_modifyScope _

@[simp] theorem spares_freshIdentity : Spares kind freshIdentity := fun _ _ failed => nomatch failed

@[simp] theorem spares_exhausted : Spares kind (throw .exhausted : RenderM α) :=
  fun _ _ failed => nomatch failed

theorem spares_within {body : RenderM α} (frame : Frame) (spares : Spares kind body) :
    Spares kind (within frame body) := by
  intro state
  rw [start_within]
  exact Process.always_bind (spares _) fun _ spared => spared

theorem spares_keeping {body : RenderM α} (values : List Value) (spares : Spares kind body) :
    Spares kind (keeping values body) := by
  intro state
  rw [start_keeping]
  exact Process.always_bind (spares _) fun _ spared => spared

theorem spares_releasing {body : RenderM α} (source : Source) (spares : Spares kind body) :
    Spares kind (releasing source body) := by
  cases source with
  | items array rest => exact spares_keeping _ spares
  | external source =>
    intro state
    rw [start_releasing_external]
    exact Process.always_bind (spares _) fun _ spared _ => spared

variable (settings : Settings)

theorem spares_failWith {other : Kind} (message : String) (cause : Option String)
    (apart : other ≠ kind) : Spares kind (failWith settings other message cause : RenderM α) := by
  intro state e failed
  obtain rfl := Failure.failed.inj (Except.error.inj failed)
  exact apart

theorem spares_fail {other : Kind} (message : String) (apart : other ≠ kind) :
    Spares kind (fail settings other message : RenderM α) :=
  spares_failWith settings message none apart

/-! ## Expressions -/

theorem spares_accept (answer : Except Cause α) :
    Spares .disallowedExpression (accept settings answer) := by
  cases answer with
  | ok result => exact spares_pure result
  | error cause =>
    refine spares_failWith settings _ _ ?_
    cases cause.violation <;> simp

theorem spares_resolveIn (name : String) (frames : List Frame) :
    Spares .disallowedExpression (resolveIn settings name frames) := by
  induction frames with
  | nil => exact spares_fail settings _ (by decide)
  | cons frame outer ih =>
    rw [resolveIn]
    split
    · exact spares_pure _
    · split
      · refine spares_bind (spares_ask _) fun answer =>
          spares_bind (spares_accept settings answer) fun value => ?_
        split
        · exact ih
        · exact spares_pure _
      · split
        · exact spares_pure _
        · exact ih

theorem spares_member (base : Value) (key : String) :
    Spares .disallowedExpression (member settings base key) := by
  unfold member
  split
  · exact spares_fail settings _ (by decide)
  · exact spares_fail settings _ (by decide)
  · exact spares_bind (spares_keeping _ (spares_ask _)) (spares_accept settings)
  · exact spares_pure _

theorem spares_apply (function : Value) (callee : Expr) (args : List Value) :
    Spares .disallowedExpression (apply settings function callee args) := by
  unfold apply
  split
  · exact spares_bind (spares_ask _) (spares_accept settings)
  · exact spares_fail settings _ (by decide)

theorem spares_applyUnary {op : UnaryOp} (allowed : Restriction.ofUnary op = none)
    (operand : Value) : Spares .disallowedExpression (applyUnary settings op operand) := by
  cases op with
  | not | neg | plus => exact spares_pure _
  | _ => simp [Restriction.ofUnary] at allowed

/-- An operator that is not restricted has a value, unless it does not need both operands. -/
theorem spares_applyBinary {op : BinaryOp} (allowed : Restriction.ofBinary op = none)
    (strict : op ≠ .and ∧ op ≠ .or) (left right : Value) :
    Spares .disallowedExpression (applyBinary settings op left right) := by
  cases op with
  | eq | ne | add | sub | mul | div | mod | lt | gt | le | ge => exact spares_pure _
  | and | or => simp at strict
  | _ => simp [Restriction.ofBinary] at allowed

theorem spares_guarded {e : Expr} {body : RenderM Value} (allowed : Restriction.of? e = none)
    (spares : Spares .disallowedExpression body) :
    Spares .disallowedExpression (guarded settings e body) := by
  refine spares_bind (spares_saveToken _) fun _ => ?_
  simpa only [allowed] using spares

/-- Whether a property is an accessor. -/
def isAccessor : Property → Bool
  | .init .. => false
  | _ => true

/-- Whether an expression is an object literal with an accessor. -/
def hasAccessor : Expr → Bool
  | .object _ properties => properties.any isAccessor
  | _ => false

/-- Whether an expression has an operator behind its operand that the grammar has not there. -/
def hasOddPostfix : Expr → Bool
  | .postfixOp _ op _ => !op.isUpdate
  | _ => false

/-- Whether an expression, whatever is below it, is not refused. -/
structure Allowed (e : Expr) : Prop where
  unrestricted : Restriction.of? e = none
  plain : hasAccessor e = false
  grammatical : hasOddPostfix e = false

mutual

theorem spares_evaluate : ∀ e : Expr, (∀ node ∈ e.nodes, Allowed node) →
    Spares .disallowedExpression (evaluate settings e)
  | .num s value, allowed => by
    rw [evaluate]
    exact spares_guarded settings (allowed _ (by simp [Expr.nodes])).unrestricted (spares_pure _)
  | .string s text, allowed => by
    rw [evaluate]
    exact spares_guarded settings (allowed _ (by simp [Expr.nodes])).unrestricted (spares_pure _)
  | .atom s atom, allowed => by
    rw [evaluate]
    exact spares_guarded settings (allowed _ (by simp [Expr.nodes])).unrestricted (spares_pure _)
  | .name s name, allowed => by
    rw [evaluate]
    refine spares_guarded settings (allowed _ (by simp [Expr.nodes])).unrestricted ?_
    exact spares_bind spares_scope fun scope => spares_resolveIn settings name scope.frames
  | .array s items, allowed => by
    rw [Expr.nodes, List.forall_mem_cons] at allowed
    rw [evaluate]
    refine spares_guarded settings allowed.1.unrestricted ?_
    exact spares_bind (spares_evaluateAll items allowed.2) fun values =>
      spares_bind spares_freshIdentity fun _ => spares_pure _
  | .object s properties, allowed => by
    rw [Expr.nodes, List.forall_mem_cons] at allowed
    rw [evaluate]
    refine spares_guarded settings allowed.1.unrestricted ?_
    exact spares_bind (spares_evaluateProperties properties [] allowed.1.plain allowed.2)
      fun entries => spares_bind spares_freshIdentity fun _ => spares_pure _
  | .dot s target property, allowed => by
    rw [Expr.nodes, List.forall_mem_cons] at allowed
    rw [evaluate]
    refine spares_guarded settings allowed.1.unrestricted ?_
    exact spares_bind (spares_evaluate target allowed.2) fun base =>
      spares_member settings base property
  | .sub s target index, allowed => by
    rw [Expr.nodes, List.forall_mem_cons, List.forall_mem_append] at allowed
    rw [evaluate]
    refine spares_guarded settings allowed.1.unrestricted ?_
    exact spares_bind (spares_evaluate target allowed.2.1) fun base =>
      spares_bind (spares_keeping _ (spares_evaluate index allowed.2.2)) fun key =>
        spares_member settings base key.display
  | .call s callee args, allowed => by
    rw [Expr.nodes, List.forall_mem_cons, List.forall_mem_append] at allowed
    rw [evaluate]
    refine spares_guarded settings allowed.1.unrestricted ?_
    exact spares_bind (spares_evaluate callee allowed.2.1) fun function =>
      spares_bind (spares_keeping _ (spares_evaluateAll args allowed.2.2)) fun values =>
        spares_bind (spares_saveToken s) fun _ => spares_apply settings function callee values
  | .prefixOp s op operand, allowed => by
    rw [Expr.nodes, List.forall_mem_cons] at allowed
    rw [evaluate]
    refine spares_guarded settings allowed.1.unrestricted ?_
    exact spares_bind (spares_evaluate operand allowed.2)
      (spares_applyUnary settings allowed.1.unrestricted)
  | .binary s op left right, allowed => by
    rw [Expr.nodes, List.forall_mem_cons, List.forall_mem_append] at allowed
    rw [evaluate]
    refine spares_guarded settings allowed.1.unrestricted ?_
    refine spares_bind (spares_evaluate left allowed.2.1) fun first => ?_
    have second : Spares .disallowedExpression (keeping [first] (evaluate settings right)) :=
      spares_keeping _ (spares_evaluate right allowed.2.2)
    split
    · split
      · exact second
      · exact spares_pure _
    · split
      · exact spares_pure _
      · exact second
    · rename_i notAnd notOr
      exact spares_bind second
        (spares_applyBinary settings allowed.1.unrestricted ⟨notAnd, notOr⟩ first)
  | .conditional s test yes no, allowed => by
    rw [Expr.nodes, List.forall_mem_cons, List.forall_mem_append, List.forall_mem_append]
      at allowed
    rw [evaluate]
    refine spares_guarded settings allowed.1.unrestricted ?_
    refine spares_bind (spares_evaluate test allowed.2.1.1) fun value => ?_
    split
    · exact spares_evaluate yes allowed.2.1.2
    · exact spares_evaluate no allowed.2.2
  | .regexp s pattern flags, allowed =>
    nomatch (allowed (.regexp s pattern flags) (by simp [Expr.nodes])).unrestricted
  | .new s callee args, allowed =>
    nomatch (allowed (.new s callee args) (by simp [Expr.nodes])).unrestricted
  | .postfixOp s op operand, allowed => by
    have here := allowed (.postfixOp s op operand) (by simp [Expr.nodes])
    cases op with
    | increment | decrement => exact nomatch here.unrestricted
    | _ => exact nomatch here.grammatical
  | .assign s op target value, allowed =>
    nomatch (allowed (.assign s op target value) (by simp [Expr.nodes])).unrestricted
  | .seq s first rest, allowed =>
    nomatch (allowed (.seq s first rest) (by simp [Expr.nodes])).unrestricted
  | .function s fn, allowed =>
    nomatch (allowed (.function s fn) (by simp [Expr.nodes])).unrestricted

theorem spares_evaluateAll : ∀ items : List Expr, (∀ node ∈ nodesOfExprs items, Allowed node) →
    Spares .disallowedExpression (evaluateAll settings items)
  | [], _ => spares_pure _
  | e :: rest, allowed => by
    rw [nodesOfExprs, List.forall_mem_append] at allowed
    rw [evaluateAll]
    exact spares_bind (spares_evaluate e allowed.1) fun value =>
      spares_bind (spares_keeping _ (spares_evaluateAll rest allowed.2)) fun _ => spares_pure _

theorem spares_evaluateProperties : ∀ (properties : List Property)
    (entries : List (String × Value)), properties.any isAccessor = false →
    (∀ node ∈ nodesOfProperties properties, Allowed node) →
    Spares .disallowedExpression (evaluateProperties settings entries properties)
  | [], entries, _, _ => spares_pure entries
  | .init key value :: rest, entries, plain, allowed => by
    rw [nodesOfProperties, List.forall_mem_append] at allowed
    rw [evaluateProperties]
    exact spares_bind (spares_keeping _ (spares_evaluate value allowed.1)) fun value =>
      spares_evaluateProperties rest _ (by simpa [isAccessor] using plain) allowed.2
  | .getter key fn :: rest, entries, plain, _ => by simp [isAccessor] at plain
  | .setter key fn :: rest, entries, plain, _ => by simp [isAccessor] at plain

end


/-! ## Chunks -/

theorem spares_sourceOf (collection : Value) :
    Spares .disallowedExpression (sourceOf settings collection) := by
  refine spares_bind ?_ fun collection => ?_
  · unfold collectionOf
    split
    · exact spares_bind (spares_ask _) (spares_accept settings)
    · exact spares_pure _
  · refine spares_bind spares_freshIdentity fun number => ?_
    split
    · exact spares_pure _
    · exact spares_bind (spares_ask _) fun _ => spares_pure _
    · refine spares_bind (spares_ask _) fun source => ?_
      split
      · exact spares_pure _
      · exact spares_fail settings _ (by decide)
    · exact spares_fail settings _ (by decide)

theorem spares_nextItem (source : Source) :
    Spares .disallowedExpression (nextItem settings source) := by
  cases source with
  | items array rest =>
    refine spares_bind (spares_ask _) fun _ => ?_
    split <;> exact spares_pure _
  | external source =>
    exact spares_bind (spares_ask _) fun answer =>
      spares_bind (spares_accept settings answer) fun _ => spares_pure _

theorem spares_forEach {frame : Nat → Item → Frame} {body : RenderM String}
    (spares : Spares .disallowedExpression body) (n : Nat) :
    ∀ source index written,
      Spares .disallowedExpression (forEach settings frame body n source index written) := by
  induction n with
  | zero => exact fun _ _ _ => spares_exhausted
  | succ n ih =>
    intro source index written
    refine spares_bind (spares_nextItem settings source) fun next => ?_
    split
    · exact spares_pure _
    · exact spares_bind (spares_within _ spares) fun text => ih _ _ _

theorem spares_templateName (what : String) (value : Value) :
    Spares .disallowedExpression (templateName settings what value) := by
  unfold templateName
  split
  · exact spares_pure _
  · exact spares_fail settings _ (by decide)

theorem spares_evaluateEach {items : List Expr}
    (allowed : ∀ e ∈ items, ∀ node ∈ e.nodes, Allowed node) :
    Spares .disallowedExpression (evaluateEach settings items) := by
  induction items with
  | nil => exact spares_pure ()
  | cons e rest ih =>
    rw [List.forall_mem_cons] at allowed
    exact spares_bind (spares_evaluate settings e allowed.1) fun _ => ih allowed.2

theorem spares_includeData {items : List Expr}
    (allowed : ∀ e ∈ items, ∀ node ∈ e.nodes, Allowed node) :
    Spares .disallowedExpression (includeData settings items) := by
  cases items with
  | nil => exact spares_bind spares_freshIdentity fun _ => spares_pure _
  | cons first others =>
    rw [List.forall_mem_cons] at allowed
    refine spares_bind (spares_evaluate settings first allowed.1) fun data => ?_
    exact spares_bind (spares_keeping _ (spares_evaluateEach settings allowed.2)) fun _ =>
      spares_pure _

theorem spares_setVariables {defs : List VarDef}
    (allowed : ∀ e ∈ initialValues defs, ∀ node ∈ e.nodes, Allowed node) :
    Spares .disallowedExpression (setVariables settings defs) := by
  induction defs with
  | nil => exact spares_pure ()
  | cons def_ rest ih =>
    obtain ⟨name, value⟩ := def_
    cases value with
    | none => exact spares_bind (spares_pure _) fun _ =>
        spares_bind (spares_modifyScope _) fun _ => ih allowed
    | some value =>
      rw [initialValues, List.forall_mem_cons] at allowed
      exact spares_bind (spares_evaluate settings value allowed.1) fun _ =>
        spares_bind (spares_modifyScope _) fun _ => ih allowed.2

/-- Whether the expressions that stand in a chunk are not refused. -/
def AllowedIn (chunk : Chunk) : Prop :=
  ∀ e ∈ chunk.expressions, ∀ node ∈ e.nodes, Allowed node

variable {template : String → RenderM String}
  (others : ∀ name, Spares .disallowedExpression (template name))

include others

mutual

theorem spares_renderChunk : ∀ chunk : Chunk,
    (∀ c ∈ enteredChunks (chunk.visits fun _ => true), AllowedIn c) →
    Spares .disallowedExpression (renderChunk settings template chunk)
  | .html _ text, _ => spares_pure text
  | .echo s value, allowed => by
    have here := allowed (.echo s value) (by simp [Chunk.visits, enteredChunks])
    rw [renderChunk]
    exact spares_bind (spares_evaluate settings value (here value (by simp [Chunk.expressions])))
      fun _ => spares_pure _
  | .rawHtml s value, allowed => by
    have here := allowed (.rawHtml s value) (by simp [Chunk.visits, enteredChunks])
    rw [renderChunk]
    exact spares_bind (spares_evaluate settings value (here value (by simp [Chunk.expressions])))
      fun _ => spares_pure _
  | .include s args name, allowed => by
    have here := allowed (.include s args name) (by simp [Chunk.visits, enteredChunks])
    rw [AllowedIn, Chunk.expressions, List.forall_mem_append] at here
    rw [renderChunk]
    refine spares_bind (spares_includeData settings here.1) fun data => ?_
    refine spares_bind (spares_keeping _
      (spares_evaluate settings name (here.2 name (by simp)))) fun value => ?_
    exact spares_bind (spares_templateName settings _ value) fun name =>
      spares_within _ (others name)
  | .each s bindings collection body, allowed => by
    simp only [Chunk.visits, if_true, enteredChunks_enter, enteredChunks_append,
      List.forall_mem_cons, List.forall_mem_append] at allowed
    rw [renderChunk]
    refine spares_bind (spares_evaluate settings collection
      (allowed.1 collection (by simp [Chunk.expressions]))) fun value => ?_
    refine spares_bind (spares_sourceOf settings value) fun source => ?_
    exact spares_releasing _
      (spares_forEach settings (spares_renderChunks body allowed.2.1) _ _ _ _)
  | .ifElse s condition thenBranch elseIfs none, allowed => by
    simp only [Chunk.visits, if_true, enteredChunks_enter, enteredChunks_append,
      List.forall_mem_cons, List.forall_mem_append] at allowed
    obtain ⟨here, ⟨⟨inThen, inElseIfs⟩, -⟩, -⟩ := allowed
    rw [AllowedIn, Chunk.expressions, List.forall_mem_cons] at here
    rw [renderChunk]
    refine spares_bind (spares_evaluate settings condition here.1) fun value => ?_
    split
    · exact spares_renderChunks thenBranch inThen
    · refine spares_bind (spares_renderElseIfs elseIfs here.2 inElseIfs) fun text => ?_
      split <;> exact spares_pure _
  | .ifElse s condition thenBranch elseIfs (some branch), allowed => by
    simp only [Chunk.visits, if_true, enteredChunks_enter, enteredChunks_append,
      List.forall_mem_cons, List.forall_mem_append] at allowed
    obtain ⟨here, ⟨⟨inThen, inElseIfs⟩, inElse⟩, -⟩ := allowed
    rw [AllowedIn, Chunk.expressions, List.forall_mem_cons] at here
    rw [renderChunk]
    refine spares_bind (spares_evaluate settings condition here.1) fun value => ?_
    split
    · exact spares_renderChunks thenBranch inThen
    · refine spares_bind (spares_renderElseIfs elseIfs here.2 inElseIfs) fun text => ?_
      split
      · exact spares_pure _
      · exact spares_renderChunks branch inElse
  | .layout s name, allowed => by
    have here := allowed (.layout s name) (by simp [Chunk.visits, enteredChunks])
    rw [renderChunk]
    refine spares_bind (spares_evaluate settings name
      (here name (by simp [Chunk.expressions]))) fun value => ?_
    refine spares_bind (spares_templateName settings _ value) fun name => ?_
    exact spares_bind (spares_modifyScope _) fun _ => spares_pure _
  | .var s defs, allowed => by
    have here := allowed (.var s defs) (by simp [Chunk.visits, enteredChunks])
    rw [renderChunk]
    exact spares_bind (spares_setVariables settings here) fun _ => spares_pure _

theorem spares_renderChunks : ∀ chunks : List Chunk,
    (∀ c ∈ enteredChunks (visitsOf (fun _ => true) chunks), AllowedIn c) →
    Spares .disallowedExpression (renderChunks settings template chunks)
  | [], _ => spares_pure ""
  | chunk :: rest, allowed => by
    rw [visitsOf, enteredChunks_append, List.forall_mem_append] at allowed
    rw [renderChunks]
    exact spares_bind (spares_saveToken _) fun _ =>
      spares_bind (spares_renderChunk chunk allowed.1) fun _ =>
        spares_bind (spares_renderChunks rest allowed.2) fun _ => spares_pure _

theorem spares_renderElseIfs : ∀ branches : List ElseIf,
    (∀ e ∈ conditionsOf branches, ∀ node ∈ e.nodes, Allowed node) →
    (∀ c ∈ enteredChunks (visitsOfElseIfs (fun _ => true) branches), AllowedIn c) →
    Spares .disallowedExpression (renderElseIfs settings template branches)
  | [], _, _ => spares_pure none
  | .mk condition body :: rest, conditions, allowed => by
    rw [conditionsOf, List.forall_mem_cons] at conditions
    rw [visitsOfElseIfs, enteredChunks_append, List.forall_mem_append] at allowed
    rw [renderElseIfs]
    refine spares_bind (spares_evaluate settings condition conditions.1) fun value => ?_
    split
    · exact spares_bind (spares_renderChunks body allowed.1) fun _ => spares_pure _
    · exact spares_renderElseIfs rest conditions.2 allowed.2

end

omit others in
/-- The violations of a template are those of the expressions in its chunks. -/
theorem violations_eq (t : Template) :
    t.violations = t.allChunks.flatMap fun c => c.expressions.flatMap Findings.violationsOf := by
  have added : ∀ (chunks : List Chunk) (findings : Findings),
      (chunks.foldl Findings.addViolations findings).violations =
        findings.violations ++
          chunks.flatMap fun c => c.expressions.flatMap Findings.violationsOf := by
    intro chunks
    induction chunks with
    | nil => simp
    | cons c rest ih => simp [ih, Findings.addViolations]
  exact added t.allChunks .empty

omit others in
/-- An expression of a template without violations is not restricted. -/
theorem unrestricted_of_unreported {t : Template} (unreported : t.violations = []) {c : Chunk}
    (chunk : c ∈ t.allChunks) {e : Expr} (expression : e ∈ c.expressions) {node : Expr}
    (below : node ∈ e.nodes) : Restriction.of? node = none := by
  simp only [violations_eq, List.flatMap_eq_nil_iff] at unreported
  have none_ := unreported c chunk e expression
  rw [Findings.violationsOf, List.filterMap_eq_nil_iff] at none_
  simpa using none_ node below

/-- The state of a rendering without data. -/
def withoutData : State := ⟨⟨.ofTemplate "index" .undefined, []⟩, 0, []⟩

/-- Whether chunks that include nothing are refused when they are rendered without data. -/
def refused (chunks : List Chunk) : Bool :=
  match (start (renderChunks {} (fun _ => pure "") chunks) withoutData).result? with
  | some (.error (.failed e), _) => e.kind = .disallowedExpression
  | _ => false

omit others in
theorem not_spares_of_refused {chunks : List Chunk} (refusal : refused chunks = true) :
    ¬Spares .disallowedExpression (renderChunks {} (fun _ => pure "") chunks) := by
  intro spares
  have spared := spares withoutData
  unfold refused at refusal
  split at refusal
  · rename_i e behind ended
    cases process : start (renderChunks {} (fun _ => pure "") chunks) withoutData with
    | ask holding request next => simp [process, Process.result?] at ended
    | done result =>
      rw [process] at spared ended
      obtain rfl := Option.some.inj ended
      exact spared e rfl (by simpa using refusal)
  · simp at refusal

end RenderM

end Stencil.Render
