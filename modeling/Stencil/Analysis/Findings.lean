import Stencil.Analysis.Restriction
import Stencil.Analysis.Walk
/-!
# Findings about templates

What can be said about templates without rendering them: the templates they refer to by a fixed
name, the number of references whose name is computed, and the expressions that rendering would
refuse. Findings of several templates add up.
-/

set_option autoImplicit false

namespace Stencil

open Stencil.Syntax
open Stencil.Text (Span)

/-- An expression that rendering would refuse. -/
structure Violation where
  restriction : Restriction
  span : Option Span
deriving DecidableEq

/-- What was found out about templates. -/
structure Findings where
  /-- The names of included templates, each once, in the order they were met. -/
  includes : List String
  /-- The names of layouts, each once, in the order they were met. -/
  layouts : List String
  /-- The number of references whose name is computed. -/
  dynamicReferences : Nat
  violations : List Violation

namespace Findings

/-- Nothing is known yet. -/
def empty : Findings := ⟨[], [], 0, []⟩

/-- Adds a name to a list that does not hold it yet. -/
def addName (names : List String) (name : String) : List String :=
  if names.contains name then names else names ++ [name]

/-- The templates referred to by a fixed name, each once: includes before layouts. -/
def dependencies (findings : Findings) : List String :=
  (findings.includes ++ findings.layouts).foldl addName []

/-- Adds the reference that a chunk makes. -/
def addReference (findings : Findings) : Chunk → Findings
  | .include _ _ (.string _ name) =>
    { findings with includes := addName findings.includes name }
  | .layout _ (.string _ name) => { findings with layouts := addName findings.layouts name }
  | .include .. | .layout .. =>
    { findings with dynamicReferences := findings.dynamicReferences + 1 }
  | _ => findings

/-- The violations in an expression. -/
def violationsOf (e : Expr) : List Violation :=
  e.nodes.filterMap fun node =>
    (Restriction.of? node).map fun restriction => ⟨restriction, node.span⟩

/-- Adds the violations in the expressions of a chunk. -/
def addViolations (findings : Findings) (chunk : Chunk) : Findings :=
  { findings with
    violations := findings.violations ++ chunk.expressions.flatMap violationsOf }

end Findings

/-- The analyses of a template. -/
inductive Analysis where
  /-- Collects references to other templates. -/
  | references
  /-- Collects expressions that rendering would refuse. -/
  | audit
deriving DecidableEq

namespace Analysis

/-- The analyses that are run where none are chosen. -/
def standard : List Analysis := [references, audit]

/-- What an analysis adds for one chunk. -/
def visit : Analysis → Findings → Chunk → Findings
  | references => Findings.addReference
  | audit => Findings.addViolations

/-- Runs an analysis over a template. -/
def run (analysis : Analysis) (findings : Findings) (t : Template) : Findings :=
  t.allChunks.foldl analysis.visit findings

/-- Runs analyses over a template, one after the other. -/
def runAll (analyses : List Analysis) (findings : Findings) (t : Template) : Findings :=
  analyses.foldl (fun findings analysis => analysis.run findings t) findings

end Analysis

/-- The templates that a template refers to by a fixed name. -/
def Syntax.Template.dependencies (t : Template) : List String :=
  (Analysis.references.run .empty t).dependencies

/-- The expressions of a template that rendering would refuse. -/
def Syntax.Template.violations (t : Template) : List Violation :=
  (Analysis.audit.run .empty t).violations

end Stencil
