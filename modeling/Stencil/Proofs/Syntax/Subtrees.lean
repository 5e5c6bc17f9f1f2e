import Stencil.Proofs.Syntax.Induction
import Stencil.Proofs.Syntax.Parts
/-!
# Parts of parts

The parts of a part of a tree are parts of the tree (`Program.closed_parts`). So what holds
everywhere in a tree holds everywhere in each of its subtrees.
-/

set_option autoImplicit false

namespace Stencil.Syntax

/-- The parts of a part: the part and everything below it. -/
def Part.parts : Part → List Part
  | .expr e => e.parts
  | .property p => p.parts
  | .function fn => fn.parts
  | .stmt s => s.parts
  | .varDef d => d.parts
  | .head h => h.parts
  | .switchCase branch => branch.parts
  | .handler h => h.parts
  | .chunk c => c.parts
  | .elseIf branch => branch.parts

/-- Whether with every part all of its parts are listed. -/
def Closed (parts : List Part) : Prop := Everywhere (fun part => part.parts ⊆ parts) parts

namespace Closed

variable {parts more : List Part}

theorem nil : Closed [] := everywhere_nil

theorem append (closed : Closed parts) (closed' : Closed more) : Closed (parts ++ more) := by
  refine (everywhere_append parts more).2 ⟨fun part listed => ?_, fun part listed => ?_⟩
  · exact List.Subset.trans (closed part listed) (List.subset_append_left _ _)
  · exact List.Subset.trans (closed' part listed) (List.subset_append_right _ _)

/-- A part with the parts below it. -/
theorem node {part : Part} (own : part.parts = part :: parts) (closed : Closed parts) :
    Closed (part :: parts) := by
  refine (everywhere_cons part parts).2 ⟨own ▸ List.Subset.refl _, fun inner listed => ?_⟩
  exact List.Subset.trans (closed inner listed) (List.subset_cons_self _ _)

/-- What holds everywhere holds everywhere in a part that is listed. -/
theorem everywhere (closed : Closed parts) {condition : Part → Prop}
    (holds : Everywhere condition parts) {part : Part} (listed : part ∈ parts) :
    Everywhere condition part.parts :=
  fun inner inside => holds inner (closed part listed inside)

end Closed

theorem closed_exprs {items : List Expr} (each : ∀ e ∈ items, Closed e.parts) :
    Closed (partsOfExprs items) :=
  everywhere_exprs.2 fun e listed part inside =>
    List.Subset.trans (each e listed part inside)
      (everywhere_exprs.1 (fun _ inner => inner) e listed)

theorem closed_properties {properties : List Property}
    (each : ∀ p ∈ properties, Closed p.parts) : Closed (partsOfProperties properties) :=
  everywhere_properties.2 fun p listed part inside =>
    List.Subset.trans (each p listed part inside)
      (everywhere_properties.1 (fun _ inner => inner) p listed)

theorem closed_stmts {body : List Stmt} (each : ∀ s ∈ body, Closed s.parts) :
    Closed (partsOfStmts body) :=
  everywhere_stmts.2 fun s listed part inside =>
    List.Subset.trans (each s listed part inside)
      (everywhere_stmts.1 (fun _ inner => inner) s listed)

theorem closed_optional {value : Option Expr} (each : ∀ e ∈ value, Closed e.parts) :
    Closed (partsOfOptional value) := by
  cases value with
  | none => exact .nil
  | some value => exact each value rfl

theorem closed_varDefs {defs : List VarDef} (each : InVarDefs (fun e => Closed e.parts) defs) :
    Closed (partsOfVarDefs defs) := by
  refine everywhere_varDefs.2 ?_
  rintro ⟨name, value⟩ listed part inside
  have closed : Closed (VarDef.mk name value).parts := by
    refine .node rfl (closed_optional ?_)
    rintro e rfl
    exact each name e listed
  exact List.Subset.trans (closed part inside)
    (everywhere_varDefs.1 (fun _ inner => inner) _ listed)

theorem closed_head {head : ForHead} (each : InHead (fun e => Closed e.parts) head) :
    Closed head.parts := by
  cases head with
  | var defs => exact .node rfl (closed_varDefs each)
  | expr value => exact .node rfl each

theorem closed_cases {cases : List SwitchCase}
    (each : InCases (fun e => Closed e.parts) (fun s => Closed s.parts) cases) :
    Closed (partsOfCases cases) := by
  refine everywhere_cases.2 ?_
  rintro ⟨test, body⟩ listed part inside
  obtain ⟨tested, nested⟩ := each test body listed
  have closed : Closed (SwitchCase.mk test body).parts :=
    .node rfl ((closed_optional tested).append (closed_stmts nested))
  exact List.Subset.trans (closed part inside)
    (everywhere_cases.1 (fun _ inner => inner) _ listed)

/-- The parts of every construct are closed when those of its parts are. -/
theorem closed_steps :
    Induction (fun e => Closed e.parts) (fun p => Closed p.parts) (fun fn => Closed fn.parts)
      (fun s => Closed s.parts) where
  num s value := .node rfl .nil
  string s text := .node rfl .nil
  name s name := .node rfl .nil
  atom s atom := .node rfl .nil
  regexp s pattern flags := .node rfl .nil
  array s items ih := .node rfl (closed_exprs ih)
  object s properties ih := .node rfl (closed_properties ih)
  dot s target property ih := .node rfl ih
  sub s target index ih ih' := .node rfl (ih.append ih')
  call s callee args ih ih' := .node rfl (ih.append (closed_exprs ih'))
  new s callee args ih ih' := .node rfl (ih.append (closed_exprs ih'))
  prefixOp s op operand ih := .node rfl ih
  postfixOp s op operand ih := .node rfl ih
  binary s op left right ih ih' := .node rfl (ih.append ih')
  conditional s test yes no ih ih' ih'' := .node rfl ((ih.append ih').append ih'')
  assign s op target value ih ih' := .node rfl (ih.append ih')
  seq s first rest ih ih' := .node rfl (ih.append ih')
  function s fn ih := .node rfl ih
  init key value ih := .node rfl ih
  getter key fn ih := .node rfl ih
  setter key fn ih := .node rfl ih
  functionBody name params body ih := .node rfl (closed_stmts ih)
  block s body ih := .node rfl (closed_stmts ih)
  expression s value ih := .node rfl ih
  varStmt s defs ih := .node rfl (closed_varDefs ih)
  constStmt s defs ih := .node rfl (closed_varDefs ih)
  ifElse s condition thenBranch elseBranch ih ih' ih'' := by
    cases elseBranch with
    | none => exact .node rfl ((ih.append ih').append .nil)
    | some branch => exact .node rfl ((ih.append ih').append (ih'' branch rfl))
  forStmt s head test step body ih ih' ih'' body_ := by
    have tested := closed_optional ih'
    have stepped := closed_optional ih''
    cases head with
    | none => exact .node rfl (((Closed.nil.append tested).append stepped).append body_)
    | some head =>
      exact .node rfl ((((closed_head (ih head rfl)).append tested).append stepped).append body_)
  forIn s head object body ih ih' ih'' :=
    .node rfl (((closed_head ih).append ih').append ih'')
  whileStmt s condition body ih ih' := .node rfl (ih.append ih')
  doWhile s body condition ih ih' := .node rfl (ih.append ih')
  switch s discriminant cases ih ih' := .node rfl (ih.append (closed_cases ih'))
  tryCatch s body handler finalizer ih ih' ih'' := by
    have tried := closed_stmts ih
    have caught (name : String) (handling : List Stmt) (same : handler = some (.mk name handling)) :
        Closed (Handler.mk name handling).parts :=
      .node rfl (closed_stmts (ih' name handling same))
    rcases handler with _ | ⟨name, handling⟩
    · cases finalizer with
      | none => exact .node rfl ((tried.append .nil).append .nil)
      | some final =>
        exact .node rfl ((tried.append .nil).append (closed_stmts (ih'' final rfl)))
    · cases finalizer with
      | none => exact .node rfl ((tried.append (caught name handling rfl)).append .nil)
      | some final =>
        exact .node rfl ((tried.append (caught name handling rfl)).append
          (closed_stmts (ih'' final rfl)))
  defun s fn ih := .node rfl ih
  returnStmt s value ih := .node rfl (closed_optional ih)
  breakStmt s label := .node rfl .nil
  continueStmt s label := .node rfl .nil
  labelled s label body ih := .node rfl ih
  throwStmt s value ih := .node rfl ih
  withStmt s object body ih ih' := .node rfl (ih.append ih')
  debuggerStmt s := .node rfl .nil

/-- The parts of an expression are closed. -/
theorem Expr.closed_parts (e : Expr) : Closed e.parts := Induction.expr closed_steps e

/-- The parts of a script are closed. -/
theorem Program.closed_parts (program : Program) : Closed program.parts :=
  closed_stmts fun s _ => Induction.stmt closed_steps s

theorem closed_chunks {chunks : List Chunk} (each : ∀ c ∈ chunks, Closed c.parts) :
    Closed (partsOfChunks chunks) :=
  everywhere_chunks.2 fun c listed part inside =>
    List.Subset.trans (each c listed part inside)
      (everywhere_chunks.1 (fun _ inner => inner) c listed)

theorem closed_elseIfs {branches : List ElseIf}
    (each : ∀ condition body, .mk condition body ∈ branches → ∀ c ∈ body, Closed c.parts) :
    Closed (partsOfElseIfs branches) := by
  refine everywhere_elseIfs.2 ?_
  rintro ⟨condition, body⟩ listed part inside
  have closed : Closed (ElseIf.mk condition body).parts :=
    .node rfl (condition.closed_parts.append (closed_chunks (each condition body listed)))
  exact List.Subset.trans (closed part inside)
    (everywhere_elseIfs.1 (fun _ inner => inner) _ listed)

/-- The parts of every chunk are closed when those of the chunks inside it are. -/
theorem closed_chunkSteps : ChunkInduction fun c => Closed c.parts where
  html s text := .node rfl .nil
  echo s value := .node rfl value.closed_parts
  inclusion s args name :=
    .node rfl ((closed_exprs fun e _ => e.closed_parts).append name.closed_parts)
  each s bindings collection body ih :=
    .node rfl (collection.closed_parts.append (closed_chunks ih))
  ifElse s condition thenBranch elseIfs elseBranch ih ih' ih'' := by
    have branches := (condition.closed_parts.append (closed_chunks ih)).append
      (closed_elseIfs ih')
    cases elseBranch with
    | none => exact .node rfl (branches.append .nil)
    | some branch => exact .node rfl (branches.append (closed_chunks (ih'' branch rfl)))
  rawHtml s value := .node rfl value.closed_parts
  layout s name := .node rfl name.closed_parts
  var s defs := by
    refine .node rfl (closed_varDefs ?_)
    exact fun name value _ => value.closed_parts

/-- The parts of a template are closed. -/
theorem Template.closed_parts (t : Template) : Closed t.parts :=
  closed_chunks fun c _ => ChunkInduction.chunk closed_chunkSteps c

end Stencil.Syntax
