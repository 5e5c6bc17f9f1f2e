import Stencil.Syntax.Erase
import Stencil.Proofs.Syntax.Induction
import Stencil.Proofs.Syntax.Parts
/-!
# Trees that carry no span

Expressions, statements and chunks may carry a span; the other parts of a tree have none to carry.
A tree whose spans were erased has none at any depth (`Template.bare_eraseSpans`), and a tree that has
none is left as it is when they are erased (`Template.eraseSpans_of_bare`).
-/

set_option autoImplicit false

namespace Stencil.Syntax

open Stencil.Text (Span)

/-- The span that a part of a tree carries. -/
def Part.span : Part → Option Span
  | .expr e => e.span
  | .stmt s => s.span
  | .chunk c => c.span
  | _ => none

/-- A part carries no span. -/
def Part.Bare (part : Part) : Prop := part.span = none

attribute [local simp] Part.Bare Part.span Expr.span Stmt.span Chunk.span everywhere_exprs
  everywhere_properties everywhere_stmts everywhere_chunks

/-! ## Erasing leaves no span -/

/-- The parts of variables whose values carry no span. -/
theorem bare_varDefs {defs : List VarDef}
    (each : InVarDefs (fun e => Everywhere Part.Bare e.eraseSpans.parts) defs) :
    Everywhere Part.Bare (partsOfVarDefs (defs.map VarDef.eraseSpans)) := by
  rw [everywhere_varDefs, List.forall_mem_map]
  rintro ⟨name, value⟩ listed
  cases value with
  | none => simp [partsOfOptional]
  | some value => simpa [partsOfOptional] using each name value listed

/-- The parts of an expression that may be absent. -/
theorem bare_optional {value : Option Expr}
    (each : ∀ e ∈ value, Everywhere Part.Bare e.eraseSpans.parts) :
    Everywhere Part.Bare (partsOfOptional (eraseOptional value)) := by
  cases value with
  | none => exact everywhere_nil
  | some value => exact each value rfl

/-- The parts of the head of a loop. -/
theorem bare_head {head : ForHead}
    (each : InHead (fun e => Everywhere Part.Bare e.eraseSpans.parts) head) :
    Everywhere Part.Bare head.eraseSpans.parts := by
  cases head with
  | var defs => simpa using bare_varDefs each
  | expr value => simpa [InHead] using each

/-- The parts of the branches of a switch. -/
theorem bare_cases {cases : List SwitchCase}
    (each : InCases (fun e => Everywhere Part.Bare e.eraseSpans.parts)
      (fun s => Everywhere Part.Bare s.eraseSpans.parts) cases) :
    Everywhere Part.Bare (partsOfCases (cases.map SwitchCase.eraseSpans)) := by
  rw [everywhere_cases, List.forall_mem_map]
  rintro ⟨test, body⟩ listed
  obtain ⟨tested, nested⟩ := each test body listed
  simpa using ⟨bare_optional tested, nested⟩

/-- Every construct is without spans when its parts are. -/
theorem bare_steps :
    Induction (fun e => Everywhere Part.Bare e.eraseSpans.parts)
      (fun p => Everywhere Part.Bare p.eraseSpans.parts)
      (fun fn => Everywhere Part.Bare fn.eraseSpans.parts)
      (fun s => Everywhere Part.Bare s.eraseSpans.parts) where
  num s value := by simp
  string s text := by simp
  name s name := by simp
  atom s atom := by simp
  regexp s pattern flags := by simp
  array s items ih := by simpa using ih
  object s properties ih := by simpa using ih
  dot s target property ih := by simpa using ih
  sub s target index ih ih' := by simpa using ⟨ih, ih'⟩
  call s callee args ih ih' := by simpa using ⟨ih, ih'⟩
  new s callee args ih ih' := by simpa using ⟨ih, ih'⟩
  prefixOp s op operand ih := by simpa using ih
  postfixOp s op operand ih := by simpa using ih
  binary s op left right ih ih' := by simpa using ⟨ih, ih'⟩
  conditional s test yes no ih ih' ih'' := by simpa using ⟨ih, ih', ih''⟩
  assign s op target value ih ih' := by simpa using ⟨ih, ih'⟩
  seq s first rest ih ih' := by simpa using ⟨ih, ih'⟩
  function s fn ih := by simpa using ih
  init key value ih := by simpa using ih
  getter key fn ih := by simpa using ih
  setter key fn ih := by simpa using ih
  functionBody name params body ih := by simpa using ih
  block s body ih := by simpa using ih
  expression s value ih := by simpa using ih
  varStmt s defs ih := by simpa using bare_varDefs ih
  constStmt s defs ih := by simpa using bare_varDefs ih
  ifElse s condition thenBranch elseBranch ih ih' ih'' := by
    cases elseBranch with
    | none => simpa using ⟨ih, ih'⟩
    | some branch => simpa using ⟨ih, ih', ih'' branch rfl⟩
  forStmt s head test step body ih ih' ih'' body_ := by
    have tail := And.intro (bare_optional ih') (And.intro (bare_optional ih'') body_)
    cases head with
    | none => simpa using tail
    | some head => simpa using ⟨bare_head (ih head rfl), tail⟩
  forIn s head object body ih ih' ih'' := by simpa using ⟨bare_head ih, ih', ih''⟩
  whileStmt s condition body ih ih' := by simpa using ⟨ih, ih'⟩
  doWhile s body condition ih ih' := by simpa using ⟨ih, ih'⟩
  switch s discriminant cases ih ih' := by simpa using ⟨ih, bare_cases ih'⟩
  tryCatch s body handler finalizer ih ih' ih'' := by
    rcases handler with _ | ⟨name, handling⟩
    · cases finalizer with
      | none => simpa using ih
      | some ending => simpa using ⟨ih, ih'' ending rfl⟩
    · have handled := ih' name handling rfl
      cases finalizer with
      | none => simpa using ⟨ih, handled⟩
      | some ending => simpa using ⟨ih, handled, ih'' ending rfl⟩
  defun s fn ih := by simpa using ih
  returnStmt s value ih := by simpa using bare_optional ih
  breakStmt s label := by simp
  continueStmt s label := by simp
  labelled s label body ih := by simpa using ih
  throwStmt s value ih := by simpa using ih
  withStmt s object body ih ih' := by simpa using ⟨ih, ih'⟩
  debuggerStmt s := by simp

/-- An expression without spans has none at any depth. -/
theorem Expr.bare_eraseSpans (e : Expr) : Everywhere Part.Bare e.eraseSpans.parts :=
  Induction.expr bare_steps e

/-- Every chunk is without spans when its parts are. -/
theorem bare_chunkSteps : ChunkInduction fun c => Everywhere Part.Bare c.eraseSpans.parts where
  html s text := by simp
  echo s value := by simpa using value.bare_eraseSpans
  inclusion s args name := by
    cases args with
    | none => simpa [partsOfExprs] using name.bare_eraseSpans
    | some args => simpa using ⟨fun e _ => e.bare_eraseSpans, name.bare_eraseSpans⟩
  each s bindings collection body ih := by simpa using ⟨collection.bare_eraseSpans, ih⟩
  ifElse s condition thenBranch elseIfs elseBranch ih ih' ih'' := by
    have branches : Everywhere Part.Bare (partsOfElseIfs (elseIfs.map ElseIf.eraseSpans)) := by
      rw [everywhere_elseIfs, List.forall_mem_map]
      rintro ⟨condition, body⟩ listed
      simpa using ⟨condition.bare_eraseSpans, ih' condition body listed⟩
    have test := condition.bare_eraseSpans
    cases elseBranch with
    | none => simpa using ⟨test, ih, branches⟩
    | some branch => simpa using ⟨test, ih, branches, ih'' branch rfl⟩
  rawHtml s value := by simpa using value.bare_eraseSpans
  layout s name := by simpa using name.bare_eraseSpans
  var s defs := by simpa using bare_varDefs fun _ e _ => e.bare_eraseSpans

/-- A script without spans has none at any depth. -/
theorem Program.bare_eraseSpans (program : Program) :
    Everywhere Part.Bare program.eraseSpans.parts := by
  rw [Program.eraseSpans, Program.parts, eraseStmts_eq, everywhere_stmts, List.forall_mem_map]
  exact fun s _ => Induction.stmt bare_steps s

/-- A template without spans has none at any depth. -/
theorem Template.bare_eraseSpans (t : Template) : Everywhere Part.Bare t.eraseSpans.parts := by
  rw [Template.eraseSpans, Template.parts, eraseChunks_eq, everywhere_chunks, List.forall_mem_map]
  exact fun c _ => ChunkInduction.chunk bare_chunkSteps c

/-! ## Erasing where there is no span -/

/-- Items of which each stays as it is. -/
theorem map_erased {α : Type} {erase : α → α} {parts : α → List Part} {items : List α}
    (each : ∀ x ∈ items, Everywhere Part.Bare (parts x) → erase x = x)
    (bare : ∀ x ∈ items, Everywhere Part.Bare (parts x)) : items.map erase = items := by
  rw [List.map_congr_left fun x listed => each x listed (bare x listed), List.map_id']

/-- Variables whose values stay as they are. -/
theorem erased_varDefs {defs : List VarDef}
    (each : InVarDefs (fun e => Everywhere Part.Bare e.parts → e.eraseSpans = e) defs)
    (bare : Everywhere Part.Bare (partsOfVarDefs defs)) : defs.map VarDef.eraseSpans = defs := by
  refine map_erased ?_ (everywhere_varDefs.1 bare)
  rintro ⟨name, value⟩ listed bare
  cases value with
  | none => rfl
  | some value =>
    have bare : Everywhere Part.Bare value.parts := by simpa [partsOfOptional] using bare
    simpa using each name value listed bare

/-- An expression that may be absent, and stays as it is. -/
theorem erased_optional {value : Option Expr}
    (each : ∀ e ∈ value, Everywhere Part.Bare e.parts → e.eraseSpans = e)
    (bare : Everywhere Part.Bare (partsOfOptional value)) : eraseOptional value = value := by
  cases value with
  | none => rfl
  | some value => exact congrArg some (each value rfl bare)

/-- The head of a loop that stays as it is. -/
theorem erased_head {head : ForHead}
    (each : InHead (fun e => Everywhere Part.Bare e.parts → e.eraseSpans = e) head)
    (bare : Everywhere Part.Bare head.parts) : head.eraseSpans = head := by
  cases head with
  | var defs => simpa using erased_varDefs each (by simpa using bare)
  | expr value => simpa using each (by simpa using bare)

/-- The branches of a switch that stay as they are. -/
theorem erased_cases {cases : List SwitchCase}
    (each : InCases (fun e => Everywhere Part.Bare e.parts → e.eraseSpans = e)
      (fun s => Everywhere Part.Bare s.parts → s.eraseSpans = s) cases)
    (bare : Everywhere Part.Bare (partsOfCases cases)) :
    cases.map SwitchCase.eraseSpans = cases := by
  refine map_erased ?_ (everywhere_cases.1 bare)
  rintro ⟨test, body⟩ listed bare
  obtain ⟨tested, nested⟩ := each test body listed
  obtain ⟨bare, bare'⟩ : Everywhere Part.Bare (partsOfOptional test) ∧
      ∀ s ∈ body, Everywhere Part.Bare s.parts := by
    simpa using bare
  simp only [SwitchCase.eraseSpans, eraseStmts_eq, erased_optional tested bare,
    map_erased nested bare']

/-- A construct without spans stays as it is when its parts do. -/
theorem erased_steps :
    Induction (fun e => Everywhere Part.Bare e.parts → e.eraseSpans = e)
      (fun p => Everywhere Part.Bare p.parts → p.eraseSpans = p)
      (fun fn => Everywhere Part.Bare fn.parts → fn.eraseSpans = fn)
      (fun s => Everywhere Part.Bare s.parts → s.eraseSpans = s) where
  num s value whole := by simp_all
  string s text whole := by simp_all
  name s name whole := by simp_all
  atom s atom whole := by simp_all
  regexp s pattern flags whole := by simp_all
  array s items ih whole := by
    obtain ⟨rfl, bare⟩ : s = none ∧ ∀ e ∈ items, Everywhere Part.Bare e.parts := by
      simpa using whole
    simp [map_erased ih bare]
  object s properties ih whole := by
    obtain ⟨rfl, bare⟩ : s = none ∧ ∀ p ∈ properties, Everywhere Part.Bare p.parts := by
      simpa using whole
    simp [map_erased ih bare]
  dot s target property ih whole := by simp_all
  sub s target index ih ih' whole := by simp_all
  call s callee args ih ih' whole := by
    obtain ⟨rfl, bare, bare'⟩ : s = none ∧ Everywhere Part.Bare callee.parts ∧
        ∀ e ∈ args, Everywhere Part.Bare e.parts := by
      simpa using whole
    simp [ih bare, map_erased ih' bare']
  new s callee args ih ih' whole := by
    obtain ⟨rfl, bare, bare'⟩ : s = none ∧ Everywhere Part.Bare callee.parts ∧
        ∀ e ∈ args, Everywhere Part.Bare e.parts := by
      simpa using whole
    simp [ih bare, map_erased ih' bare']
  prefixOp s op operand ih whole := by simp_all
  postfixOp s op operand ih whole := by simp_all
  binary s op left right ih ih' whole := by simp_all
  conditional s test yes no ih ih' ih'' whole := by simp_all
  assign s op target value ih ih' whole := by simp_all
  seq s first rest ih ih' whole := by simp_all
  function s fn ih whole := by simp_all
  init key value ih whole := by simp_all
  getter key fn ih whole := by simp_all
  setter key fn ih whole := by simp_all
  functionBody name params body ih whole := by
    have bare : ∀ s ∈ body, Everywhere Part.Bare s.parts := by simpa using whole
    simp [map_erased ih bare]
  block s body ih whole := by
    obtain ⟨rfl, bare⟩ : s = none ∧ ∀ s ∈ body, Everywhere Part.Bare s.parts := by simpa using whole
    simp [map_erased ih bare]
  expression s value ih whole := by simp_all
  varStmt s defs ih whole := by
    obtain ⟨rfl, bare⟩ : s = none ∧ Everywhere Part.Bare (partsOfVarDefs defs) := by
      simpa using whole
    simp [erased_varDefs ih bare]
  constStmt s defs ih whole := by
    obtain ⟨rfl, bare⟩ : s = none ∧ Everywhere Part.Bare (partsOfVarDefs defs) := by
      simpa using whole
    simp [erased_varDefs ih bare]
  ifElse s condition thenBranch elseBranch ih ih' ih'' whole := by
    obtain ⟨rfl, bare, bare', bare''⟩ := everywhere_ifElse.1 whole
    cases elseBranch with
    | none => simp [ih bare, ih' bare']
    | some branch => simp [ih bare, ih' bare', ih'' branch rfl (bare'' branch rfl)]
  forStmt s head test step body ih ih' ih'' body_ whole := by
    obtain ⟨rfl, heads, tested, stepped, bare⟩ := everywhere_for.1 whole
    cases head with
    | none =>
      simp [-eraseOptional, erased_optional ih' tested, erased_optional ih'' stepped, body_ bare]
    | some head =>
      simp [-eraseOptional, erased_head (ih head rfl) (heads head rfl), erased_optional ih' tested,
        erased_optional ih'' stepped, body_ bare]
  forIn s head object body ih ih' ih'' whole := by
    obtain ⟨rfl, bare, bare', bare''⟩ : s = none ∧ Everywhere Part.Bare head.parts ∧
        Everywhere Part.Bare object.parts ∧ Everywhere Part.Bare body.parts := by simpa using whole
    simp [erased_head ih bare, ih' bare', ih'' bare'']
  whileStmt s condition body ih ih' whole := by simp_all
  doWhile s body condition ih ih' whole := by simp_all
  switch s discriminant cases ih ih' whole := by
    obtain ⟨rfl, bare, bare'⟩ : s = none ∧ Everywhere Part.Bare discriminant.parts ∧
        Everywhere Part.Bare (partsOfCases cases) := by simpa using whole
    simp [ih bare, erased_cases ih' bare']
  tryCatch s body handler finalizer ih ih' ih'' whole := by
    obtain ⟨rfl, bare, handled, ended⟩ := everywhere_tryCatch.1 whole
    have body_ := map_erased ih (everywhere_stmts.1 bare)
    have finalizer_ : ∀ final, finalizer = some final → final.map Stmt.eraseSpans = final :=
      fun final same => map_erased (ih'' final same) (everywhere_stmts.1 (ended final same))
    rcases handler with _ | ⟨name, handling⟩
    · cases finalizer with
      | none => simp [body_]
      | some final => simp [body_, finalizer_ final rfl]
    · have bare' : ∀ s ∈ handling, Everywhere Part.Bare s.parts := by simpa using handled _ rfl
      have handling_ := map_erased (ih' name handling rfl) bare'
      cases finalizer with
      | none => simp [body_, handling_]
      | some final => simp [body_, handling_, finalizer_ final rfl]
  defun s fn ih whole := by simp_all
  returnStmt s value ih whole := by
    obtain ⟨rfl, bare⟩ : s = none ∧ Everywhere Part.Bare (partsOfOptional value) := by
      simpa using whole
    simp [-eraseOptional, erased_optional ih bare]
  breakStmt s label whole := by simp_all
  continueStmt s label whole := by simp_all
  labelled s label body ih whole := by simp_all
  throwStmt s value ih whole := by simp_all
  withStmt s object body ih ih' whole := by simp_all
  debuggerStmt s whole := by simp_all

/-- An expression without spans stays as it is when its spans are erased. -/
theorem Expr.eraseSpans_of_bare {e : Expr} (bare : Everywhere Part.Bare e.parts) :
    e.eraseSpans = e :=
  Induction.expr erased_steps e bare

/-- A chunk without spans stays as it is when its parts do. -/
theorem erased_chunkSteps :
    ChunkInduction fun c => Everywhere Part.Bare c.parts → c.eraseSpans = c where
  html s text whole := by simp_all
  echo s value whole := by
    obtain ⟨rfl, bare⟩ : s = none ∧ Everywhere Part.Bare value.parts := by simpa using whole
    simp [Expr.eraseSpans_of_bare bare]
  inclusion s args name whole := by
    cases args with
    | none =>
      obtain ⟨rfl, bare⟩ : s = none ∧ Everywhere Part.Bare name.parts := by
        simpa [partsOfExprs] using whole
      simp [Expr.eraseSpans_of_bare bare]
    | some args =>
      obtain ⟨rfl, bare, bare'⟩ : s = none ∧ (∀ e ∈ args, Everywhere Part.Bare e.parts) ∧
          Everywhere Part.Bare name.parts := by simpa using whole
      simp [map_erased (fun _ _ => Expr.eraseSpans_of_bare) bare, Expr.eraseSpans_of_bare bare']
  each s bindings collection body ih whole := by
    obtain ⟨rfl, bare, bare'⟩ : s = none ∧ Everywhere Part.Bare collection.parts ∧
        ∀ c ∈ body, Everywhere Part.Bare c.parts := by
      simpa using whole
    simp [Expr.eraseSpans_of_bare bare, map_erased ih bare']
  ifElse s condition thenBranch elseIfs elseBranch ih ih' ih'' whole := by
    obtain ⟨rfl, bare, bare', branches, bare''⟩ := everywhere_conditional.1 whole
    have branches_ : elseIfs.map ElseIf.eraseSpans = elseIfs := by
      refine map_erased ?_ (everywhere_elseIfs.1 branches)
      rintro ⟨condition, body⟩ listed whole
      obtain ⟨bare, bare'⟩ : Everywhere Part.Bare condition.parts ∧
          ∀ c ∈ body, Everywhere Part.Bare c.parts := by
        simpa using whole
      simp [Expr.eraseSpans_of_bare bare, map_erased (ih' condition body listed) bare']
    have test_ := Expr.eraseSpans_of_bare bare
    have then_ := map_erased ih (everywhere_chunks.1 bare')
    cases elseBranch with
    | none => simp [test_, then_, branches_]
    | some branch =>
      simp [test_, then_, branches_, map_erased (ih'' branch rfl)
        (everywhere_chunks.1 (bare'' branch rfl))]
  rawHtml s value whole := by
    obtain ⟨rfl, bare⟩ : s = none ∧ Everywhere Part.Bare value.parts := by simpa using whole
    simp [Expr.eraseSpans_of_bare bare]
  layout s name whole := by
    obtain ⟨rfl, bare⟩ : s = none ∧ Everywhere Part.Bare name.parts := by simpa using whole
    simp [Expr.eraseSpans_of_bare bare]
  var s defs whole := by
    obtain ⟨rfl, bare⟩ : s = none ∧ Everywhere Part.Bare (partsOfVarDefs defs) := by
      simpa using whole
    simp [erased_varDefs (fun _ _ _ => Expr.eraseSpans_of_bare) bare]

/-- A script without spans stays as it is when its spans are erased. -/
theorem Program.eraseSpans_of_bare {program : Program}
    (bare : Everywhere Part.Bare program.parts) : program.eraseSpans = program := by
  have same := map_erased (fun s _ => Induction.stmt erased_steps s) (everywhere_stmts.1 bare)
  rw [Program.eraseSpans, eraseStmts_eq, same]

/-- A template without spans stays as it is when its spans are erased. -/
theorem Template.eraseSpans_of_bare {t : Template} (bare : Everywhere Part.Bare t.parts) :
    t.eraseSpans = t := by
  have same := map_erased (fun c _ => ChunkInduction.chunk erased_chunkSteps c) (everywhere_chunks.1 bare)
  rw [Template.eraseSpans, eraseChunks_eq, same]

end Stencil.Syntax
