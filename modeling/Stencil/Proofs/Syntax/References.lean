import Mathlib.Tactic.Tauto
import Stencil.Analysis.Findings
/-!
# References between templates

A template refers to others where an inclusion or a layout stands in it, at whatever depth of
iterations and conditionals. `Chunk.Occurs` says what stands in a template by the shape of its
blocks. The walk of the analyses enters exactly these chunks (`occurs_iff`), so the dependencies
that are collected are the names a template refers to by a string literal, each once.
-/

set_option autoImplicit false

namespace Stencil.Syntax

/-- The chunk stands in the chunks of a list, or in a block among them at any depth. -/
inductive Chunk.Occurs (chunk : Chunk) : List Chunk → Prop where
  | here {chunks : List Chunk} (mem : chunk ∈ chunks) : Occurs chunk chunks
  | each {s : Option Text.Span} {bindings : Option (List String)} {collection : Expr}
      {body chunks : List Chunk} (block : .each s bindings collection body ∈ chunks)
      (inside : Occurs chunk body) : Occurs chunk chunks
  | thenBranch {s : Option Text.Span} {condition : Expr} {thenBranch chunks : List Chunk}
      {elseIfs : List ElseIf} {elseBranch : Option (List Chunk)}
      (block : .ifElse s condition thenBranch elseIfs elseBranch ∈ chunks)
      (inside : Occurs chunk thenBranch) : Occurs chunk chunks
  | elseIf {s : Option Text.Span} {condition test : Expr} {thenBranch body chunks : List Chunk}
      {elseIfs : List ElseIf} {elseBranch : Option (List Chunk)}
      (block : .ifElse s condition thenBranch elseIfs elseBranch ∈ chunks)
      (branch : .mk test body ∈ elseIfs) (inside : Occurs chunk body) : Occurs chunk chunks
  | elseBranch {s : Option Text.Span} {condition : Expr} {thenBranch branch chunks : List Chunk}
      {elseIfs : List ElseIf}
      (block : .ifElse s condition thenBranch elseIfs (some branch) ∈ chunks)
      (inside : Occurs chunk branch) : Occurs chunk chunks

/-- The expression that names the template a chunk refers to. -/
def Chunk.reference? : Chunk → Option Expr
  | .include _ _ name | .layout _ name => some name
  | _ => none

/-- The template refers to a name: it is written as a string literal. -/
def Template.RefersTo (t : Template) (name : String) : Prop :=
  ∃ chunk, Chunk.Occurs chunk t.chunks ∧ ∃ span, chunk.reference? = some (.string span name)

/-- Every reference of the template is written as a string literal. -/
def Template.IsStatic (t : Template) : Prop :=
  ∀ chunk, Chunk.Occurs chunk t.chunks →
    ∀ e, chunk.reference? = some e → ∃ span name, e = .string span name

/-- What occurs in some chunks occurs in more of them. -/
theorem Chunk.Occurs.mono {chunk : Chunk} {chunks more : List Chunk}
    (occurs : chunk.Occurs chunks) (sub : ∀ c ∈ chunks, c ∈ more) : chunk.Occurs more := by
  cases occurs with
  | here mem => exact .here (sub _ mem)
  | each block inside => exact .each (sub _ block) inside
  | thenBranch block inside => exact .thenBranch (sub _ block) inside
  | elseIf block branch inside => exact .elseIf (sub _ block) branch inside
  | elseBranch block inside => exact .elseBranch (sub _ block) inside

/-! ## The walk enters what occurs -/

/-- What a walk over one of the chunks enters is entered by the walk over all of them. -/
theorem entered_of_mem {chunk other : Chunk} {chunks : List Chunk} (mem : chunk ∈ chunks)
    (entered : other ∈ enteredChunks (chunk.visits fun _ => true)) :
    other ∈ enteredChunks (visitsOf (fun _ => true) chunks) := by
  induction chunks with
  | nil => cases mem
  | cons first rest ih =>
    rw [visitsOf, enteredChunks_append, List.mem_append]
    rcases List.mem_cons.1 mem with rfl | mem
    · exact .inl entered
    · exact .inr (ih mem)

/-- The same of the branches of a conditional. -/
theorem entered_of_mem_elseIfs {test : Expr} {body : List Chunk} {other : Chunk}
    {branches : List ElseIf} (mem : .mk test body ∈ branches)
    (entered : other ∈ enteredChunks (visitsOf (fun _ => true) body)) :
    other ∈ enteredChunks (visitsOfElseIfs (fun _ => true) branches) := by
  induction branches with
  | nil => cases mem
  | cons first rest ih =>
    obtain ⟨test', body'⟩ := first
    rw [visitsOfElseIfs, enteredChunks_append, List.mem_append]
    rcases List.mem_cons.1 mem with same | mem
    · cases same
      exact .inl entered
    · exact .inr (ih mem)

/-- A walk enters a chunk first. -/
theorem entered_self (chunk : Chunk) :
    chunk ∈ enteredChunks (chunk.visits fun _ => true) := by
  cases chunk with
  | ifElse s condition thenBranch elseIfs elseBranch =>
    cases elseBranch <;> simp [Chunk.visits]
  | _ => simp [Chunk.visits]

/-- What occurs is entered: by induction on where it occurs. -/
theorem entered_of_occurs {chunk : Chunk} {chunks : List Chunk} (occurs : chunk.Occurs chunks) :
    chunk ∈ enteredChunks (visitsOf (fun _ => true) chunks) := by
  induction occurs with
  | here mem => exact entered_of_mem mem (entered_self chunk)
  | each block inside ih =>
    refine entered_of_mem block ?_
    simp [Chunk.visits, ih]
  | @thenBranch s condition thenBranch chunks elseIfs elseBranch block inside ih =>
    refine entered_of_mem block ?_
    cases elseBranch <;> simp [Chunk.visits, ih]
  | @elseIf s condition test thenBranch body chunks elseIfs elseBranch block branch inside ih =>
    refine entered_of_mem block ?_
    cases elseBranch <;> simp [Chunk.visits, entered_of_mem_elseIfs branch ih]
  | elseBranch block inside ih =>
    refine entered_of_mem block ?_
    simp [Chunk.visits, ih]

mutual

/-- What the walk over a chunk enters occurs where the chunk stands. -/
theorem occurs_of_visits : ∀ (chunk : Chunk) {other : Chunk} {chunks : List Chunk},
    chunk ∈ chunks → other ∈ enteredChunks (chunk.visits fun _ => true) → other.Occurs chunks
  | .html s text, other, chunks, mem, entered => by
    obtain rfl : other = .html s text := by simpa [Chunk.visits, enteredChunks] using entered
    exact .here mem
  | .echo s value, other, chunks, mem, entered => by
    obtain rfl : other = .echo s value := by simpa [Chunk.visits, enteredChunks] using entered
    exact .here mem
  | .rawHtml s value, other, chunks, mem, entered => by
    obtain rfl : other = .rawHtml s value := by simpa [Chunk.visits, enteredChunks] using entered
    exact .here mem
  | .include s args name, other, chunks, mem, entered => by
    obtain rfl : other = .include s args name := by
      simpa [Chunk.visits, enteredChunks] using entered
    exact .here mem
  | .layout s name, other, chunks, mem, entered => by
    obtain rfl : other = .layout s name := by simpa [Chunk.visits, enteredChunks] using entered
    exact .here mem
  | .var s defs, other, chunks, mem, entered => by
    obtain rfl : other = .var s defs := by simpa [Chunk.visits, enteredChunks] using entered
    exact .here mem
  | .each s bindings collection body, other, chunks, mem, entered => by
    simp only [Chunk.visits, if_true, enteredChunks_enter, enteredChunks_append, enteredChunks,
      List.mem_cons, List.mem_append, List.not_mem_nil, or_false] at entered
    rcases entered with rfl | inside
    · exact .here mem
    · exact .each mem (occurs_of_visitsOf body inside)
  | .ifElse s condition thenBranch elseIfs none, other, chunks, mem, entered => by
    simp only [Chunk.visits, if_true, enteredChunks_enter, enteredChunks_append, enteredChunks,
      List.mem_cons, List.mem_append, List.not_mem_nil, or_false] at entered
    rcases entered with rfl | inside | inside
    · exact .here mem
    · exact .thenBranch mem (occurs_of_visitsOf thenBranch inside)
    · obtain ⟨test, body, branch, inside⟩ := occurs_of_visitsOfElseIfs elseIfs inside
      exact .elseIf mem branch inside
  | .ifElse s condition thenBranch elseIfs (some branch), other, chunks, mem, entered => by
    simp only [Chunk.visits, if_true, enteredChunks_enter, enteredChunks_append, enteredChunks,
      List.mem_cons, List.mem_append, List.not_mem_nil, or_false] at entered
    rcases entered with rfl | (inside | inside) | inside
    · exact .here mem
    · exact .thenBranch mem (occurs_of_visitsOf thenBranch inside)
    · obtain ⟨test, body, branch, inside⟩ := occurs_of_visitsOfElseIfs elseIfs inside
      exact .elseIf mem branch inside
    · exact .elseBranch mem (occurs_of_visitsOf branch inside)

/-- What the walk over chunks enters occurs among them. -/
theorem occurs_of_visitsOf : ∀ (chunks : List Chunk) {other : Chunk},
    other ∈ enteredChunks (visitsOf (fun _ => true) chunks) → other.Occurs chunks
  | [], other, entered => by simp [visitsOf, enteredChunks] at entered
  | chunk :: rest, other, entered => by
    rw [visitsOf, enteredChunks_append, List.mem_append] at entered
    rcases entered with first | later
    · exact occurs_of_visits chunk (by simp) first
    · exact (occurs_of_visitsOf rest later).mono fun c mem => by simp [mem]

/-- What the walk over branches enters occurs in one of them. -/
theorem occurs_of_visitsOfElseIfs : ∀ (branches : List ElseIf) {other : Chunk},
    other ∈ enteredChunks (visitsOfElseIfs (fun _ => true) branches) →
    ∃ test body, .mk test body ∈ branches ∧ other.Occurs body
  | [], other, entered => by simp [visitsOfElseIfs, enteredChunks] at entered
  | .mk test body :: rest, other, entered => by
    rw [visitsOfElseIfs, enteredChunks_append, List.mem_append] at entered
    rcases entered with first | later
    · exact ⟨test, body, by simp, occurs_of_visitsOf body first⟩
    · obtain ⟨test', body', mem, inside⟩ := occurs_of_visitsOfElseIfs rest later
      exact ⟨test', body', by simp [mem], inside⟩

end

/-- The chunks of a template, as the analyses walk through them, are those that occur in it. -/
theorem occurs_iff (t : Template) (chunk : Chunk) :
    chunk ∈ t.allChunks ↔ chunk.Occurs t.chunks :=
  ⟨occurs_of_visitsOf t.chunks, entered_of_occurs⟩

/-- Whether an expression is a string literal. -/
def Expr.isString : Expr → Bool
  | .string .. => true
  | _ => false

theorem Expr.isString_iff (e : Expr) : e.isString = true ↔ ∃ span text, e = .string span text := by
  cases e <;> simp [isString]

/-- Whether all references are fixed is decided by a walk over the template. -/
instance : DecidablePred Template.IsStatic := fun t =>
  decidable_of_iff (∀ chunk ∈ t.allChunks, ∀ e ∈ chunk.reference?, e.isString = true) <| by
    simp only [occurs_iff, Expr.isString_iff, Option.mem_def]
    rfl

/-! ## Dependencies -/

open Findings in
/-- Adding a name adds that name only. -/
theorem mem_addName {names : List String} {name other : String} :
    other ∈ addName names name ↔ other ∈ names ∨ other = name := by
  unfold addName
  split
  · next known =>
    refine ⟨.inl, ?_⟩
    rintro (mem | rfl)
    · exact mem
    · simpa using known
  · simp

open Findings in
/-- A name is added once. -/
theorem nodup_addName {names : List String} (nodup : names.Nodup) (name : String) :
    (addName names name).Nodup := by
  unfold addName
  split
  · exact nodup
  · next fresh =>
    have fresh : name ∉ names := by simpa using fresh
    exact List.nodup_append.2 ⟨nodup, by simp, by
      rintro a mem b here rfl
      exact fresh (by simpa [List.mem_singleton.1 here] using mem)⟩

/-- Adding names one after the other adds all of them. -/
theorem mem_foldl_addName {more names : List String} {other : String} :
    other ∈ more.foldl Findings.addName names ↔ other ∈ names ∨ other ∈ more := by
  induction more generalizing names with
  | nil => simp
  | cons name more ih => simp [ih, mem_addName, or_assoc]

/-- Names that are added one after the other are there once. -/
theorem nodup_foldl_addName {more names : List String} (nodup : names.Nodup) :
    (more.foldl Findings.addName names).Nodup := by
  induction more generalizing names with
  | nil => exact nodup
  | cons name more ih => exact ih (nodup_addName nodup name)

/-- The names that one chunk adds to the findings. -/
theorem mem_addReference (findings : Findings) (chunk : Chunk) (name : String) :
    (name ∈ (findings.addReference chunk).includes ∨
        name ∈ (findings.addReference chunk).layouts) ↔
      (name ∈ findings.includes ∨ name ∈ findings.layouts) ∨
        ∃ span, chunk.reference? = some (.string span name) := by
  unfold Findings.addReference
  split
  · next s args span text =>
    simp only [Chunk.reference?, mem_addName, Option.some.injEq, Expr.string.injEq,
      exists_and_right, exists_eq', true_and, eq_comm]
    tauto
  · next s span text =>
    simp only [Chunk.reference?, mem_addName, Option.some.injEq, Expr.string.injEq,
      exists_and_right, exists_eq', true_and, eq_comm]
    tauto
  · next computed =>
    have other : ∀ span, _ ≠ Expr.string span name := fun span => computed span name
    simp [Chunk.reference?, other]
  · next computed =>
    have other : ∀ span, _ ≠ Expr.string span name := fun span => computed span name
    simp [Chunk.reference?, other]
  · next noInclude noLayout =>
    have none : chunk.reference? = none := by
      unfold Chunk.reference?
      split
      · next => exact absurd rfl (noInclude _ _ _)
      · next => exact absurd rfl (noLayout _ _)
      · rfl
    simp [none]

/-- The names that the chunks of a walk add to the findings: by induction on the walk. -/
theorem mem_foldl_addReference (chunks : List Chunk) (findings : Findings) (name : String) :
    (name ∈ (chunks.foldl Findings.addReference findings).includes ∨
        name ∈ (chunks.foldl Findings.addReference findings).layouts) ↔
      (name ∈ findings.includes ∨ name ∈ findings.layouts) ∨
        ∃ chunk ∈ chunks, ∃ span, chunk.reference? = some (.string span name) := by
  induction chunks generalizing findings with
  | nil => simp
  | cons chunk rest ih =>
    rw [List.foldl_cons, ih, mem_addReference]
    simp [or_assoc]

/-- The dependencies of a template are the names that it refers to. -/
theorem mem_dependencies (t : Template) (name : String) :
    name ∈ t.dependencies ↔ t.RefersTo name := by
  have collected := mem_foldl_addReference t.allChunks .empty name
  simp only [Findings.empty, List.not_mem_nil, or_self, false_or, occurs_iff] at collected
  rw [Template.dependencies, Findings.dependencies, mem_foldl_addName, List.mem_append]
  simpa [Template.RefersTo, Analysis.run, Analysis.visit, Findings.empty] using collected

/-- Each dependency is listed once. -/
theorem nodup_dependencies (t : Template) : t.dependencies.Nodup :=
  nodup_foldl_addName .nil

end Stencil.Syntax
