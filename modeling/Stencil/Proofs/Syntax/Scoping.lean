import Stencil.Grammar.Rules
/-!
# Statements in their surroundings

Which jumps a statement may hold where it stands, and whether an `else` behind a statement would be
taken for its own.
-/

set_option autoImplicit false

namespace Stencil.Syntax

open Stencil.Grammar (Surroundings)

/-- Whether a jump has a target: its label, or the innermost loop. -/
def JumpScoped (around : Surroundings) : Option String → Prop
  | none => around.inLoop = true
  | some label => around.labels.contains label = true

mutual

/-- Whether every jump of the statement has a target. The bodies of functions are not looked at. -/
def Stmt.Scoped (around : Surroundings) : Stmt → Prop
  | .block _ body => scopedStmts around body
  | .ifElse _ _ thenBranch elseBranch =>
    thenBranch.Scoped around ∧
      match elseBranch with
      | none => True
      | some branch => branch.Scoped around
  | .for _ _ _ _ body => body.Scoped around.looping
  | .forIn _ _ _ body => body.Scoped around.looping
  | .while _ _ body => body.Scoped around.looping
  | .doWhile _ body _ => body.Scoped around.looping
  | .switch _ _ cases => scopedCases around.looping cases
  | .tryCatch _ body handler finalizer =>
    scopedStmts around body ∧
      (match handler with
        | none => True
        | some (.mk _ body) => scopedStmts around body) ∧
      match finalizer with
      | none => True
      | some body => scopedStmts around body
  | .return _ _ => around.inFunction = true
  | .break _ label => JumpScoped around label
  | .continue _ label => JumpScoped around label
  | .labelled _ label body =>
    around.labels.contains label = false ∧ body.Scoped (around.labelled label)
  | .with _ _ body => body.Scoped around
  | _ => True

/-- Whether every jump of the statements of a list has a target. -/
def scopedStmts (around : Surroundings) : List Stmt → Prop
  | [] => True
  | s :: rest => s.Scoped around ∧ scopedStmts around rest

/-- Whether every jump of the branches of a switch has a target. -/
def scopedCases (around : Surroundings) : List SwitchCase → Prop
  | [] => True
  | .mk _ body :: rest => scopedStmts around body ∧ scopedCases around rest

end

/-- The statements of a list are scoped when each of them is. -/
theorem scopedStmts_iff {around : Surroundings} {body : List Stmt} :
    scopedStmts around body ↔ ∀ s ∈ body, s.Scoped around := by
  induction body with
  | nil => simp [scopedStmts]
  | cons s body ih => simp [scopedStmts, ih]

/-- The branches of a switch are scoped when the statements of each are. -/
theorem scopedCases_iff {around : Surroundings} {cases : List SwitchCase} :
    scopedCases around cases ↔ ∀ test body, .mk test body ∈ cases → scopedStmts around body := by
  induction cases with
  | nil => simp [scopedCases]
  | cons first rest ih =>
    obtain ⟨test, body⟩ := first
    simp [scopedCases, ih, or_imp, forall_and]

/-- A `try` statement is scoped when the statements of all its blocks are. -/
theorem scoped_tryCatch {around : Surroundings} {s : Option Text.Span} {body : List Stmt}
    {handler : Option Handler} {finalizer : Option (List Stmt)} :
    (Stmt.tryCatch s body handler finalizer).Scoped around ↔
      scopedStmts around body ∧
        (∀ name handling, handler = some (.mk name handling) → scopedStmts around handling) ∧
        ∀ final, finalizer = some final → scopedStmts around final := by
  rcases handler with _ | ⟨name, handling⟩
  · cases finalizer with
    | none => simp [Stmt.Scoped]
    | some final => simp [Stmt.Scoped]
  · cases finalizer with
    | none => simp [Stmt.Scoped]
    | some final => simp [Stmt.Scoped]

/-- Whether an `else` behind the statement belongs to an `if` at its end. -/
def Stmt.opensElse : Stmt → Bool
  | .ifElse _ _ _ none => true
  | .ifElse _ _ _ (some branch) => branch.opensElse
  | .for _ _ _ _ body => body.opensElse
  | .forIn _ _ _ body => body.opensElse
  | .while _ _ body => body.opensElse
  | .labelled _ _ body => body.opensElse
  | .with _ _ body => body.opensElse
  | _ => false

end Stencil.Syntax
