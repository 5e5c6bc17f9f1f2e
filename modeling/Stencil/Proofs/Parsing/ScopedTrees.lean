import Stencil.Proofs.Parsing.GrammaticalTemplates
import Stencil.Proofs.Syntax.Enclosures
/-!
# Jumps have targets in every tree that is read

The checks that the grammar makes while it reads statements are enough: in every tree that is read
from a template, a script or an expression, strictly or not, a `return` stands in a function, a jump
stands with its target in one function, and no label is repeated within a statement that has it
(`wellScoped_of_read`).
-/

set_option autoImplicit false

namespace Stencil

open Stencil.Grammar
open Stencil.Print
open Stencil.Syntax

/-- The functions of a grammatical tree have their jumps in themselves. -/
theorem scopedFunction_of_grammatical {parts : List Part} (known : Everywhere Grammatical parts) :
    Everywhere ScopedFunction parts := by
  intro part listed
  have read := known part listed
  cases part with
  | function fn =>
    obtain ⟨name, params, body⟩ := fn
    exact read.2.2
  | _ => trivial

/-- A part outside of all statements passes the checks when it is grammatical. -/
theorem checked_of_sound {part : Part} (known : Everywhere Grammatical part.parts)
    (notStmt : ∀ s, part ≠ .stmt s) : Checked [] part :=
  ⟨scopedFunction_of_grammatical known, fun s same => absurd same (notStmt s)⟩

/-- In every tree that is read from a template, a script or an expression, strictly or not, every
part is well scoped where it stands. -/
theorem wellScoped_of_read (o : Options) (source : String) :
    (∀ t, parseTemplate o source = .ok t → ∀ around part,
        part.Stands (t.chunks.map .chunk) around → WellScoped around part) ∧
      (∀ script, parseScript o source = .ok script → ∀ around part,
        part.Stands (script.body.map .stmt) around → WellScoped around part) ∧
      ∀ e, parseExpression o source = .ok e → ∀ around part,
        part.Stands [.expr e] around → WellScoped around part := by
  refine ⟨fun t read around part stands => ?_, fun script read around part stands => ?_,
    fun e read around part stands => ?_⟩
  · have known := grammatical_of_template read
    refine stands.wellScoped fun root listed => ?_
    obtain ⟨chunk, inside, rfl⟩ := List.mem_map.1 listed
    exact checked_of_sound (everywhere_chunks.1 known chunk inside) (by simp)
  · obtain ⟨known, jumps⟩ := grammatical_of_script read
    refine stands.wellScoped fun root listed => ?_
    obtain ⟨s, inside, rfl⟩ := List.mem_map.1 listed
    refine ⟨scopedFunction_of_grammatical (everywhere_stmts.1 known s inside), ?_⟩
    rintro s ⟨⟩
    exact scopedStmts_iff.1 jumps s inside
  · have known := grammatical_of_expression read
    refine stands.wellScoped fun root listed => ?_
    obtain rfl := List.mem_singleton.1 listed
    exact checked_of_sound known (by simp)

/-- Whether a script is a labelled loop that jumps out of itself by its label. -/
def leavesItself : Program → Bool
  | ⟨[.labelled _ "a" (.while _ _ (.block _ [.break _ (some "a")]))]⟩ => true
  | _ => false

/-- A jump out of two enclosures, and a `return` in the functions of an object and of an echo. -/
theorem wellScoped_of_read_examples :
    (∃ script, parseScript ⟨true, true⟩ "a: while (b) \x7b break a; \x7d" = .ok script ∧
        ∃ jump, Part.Stands (script.body.map .stmt) [.loop, .label "a"] (.stmt (.break jump "a")) ∧
          WellScoped [.loop, .label "a"] (.stmt (.break jump "a"))) ∧
      (∃ t, parseTemplate ⟨true, false⟩ "$\x7bfunction () \x7b return a \x7d\x7d" = .ok t ∧
        ∀ around part, part.Stands (t.chunks.map .chunk) around → WellScoped around part) ∧
      ∃ e, parseExpression ⟨false, false⟩ "\x7bget b() \x7b return a \x7d\x7d" = .ok e ∧
        ∀ around part, part.Stands [.expr e] around → WellScoped around part := by
  refine ⟨?_, ?_, ?_⟩
  · have found : (parseScript ⟨true, true⟩ "a: while (b) \x7b break a; \x7d").toOption.any
        leavesItself = true := by
      decide +kernel
    cases read : parseScript ⟨true, true⟩ "a: while (b) \x7b break a; \x7d" with
    | error error => simp [read, Except.toOption] at found
    | ok script =>
      rw [read] at found
      change leavesItself script = true at found
      unfold leavesItself at found
      split at found
      · next outer inner condition block jump =>
        have stands : Part.Stands (List.map .stmt [.labelled outer "a" (.while inner condition
            (.block block [.break jump "a"]))]) [.loop, .label "a"] (.stmt (.break jump "a")) := by
          have outside := Part.Stands.root (List.mem_singleton_self
            (Part.stmt (.labelled outer "a" (.while inner condition
              (.block block [.break jump "a"])))))
          have looped := outside.child (List.mem_singleton_self _)
          have inside := looped.child (List.mem_cons_of_mem _ (List.mem_singleton_self _))
          exact inside.child (List.mem_singleton_self _)
        exact ⟨_, rfl, jump, stands, (wellScoped_of_read _ _).2.1 _ read _ _ stands⟩
      · cases found
  · have found : (parseTemplate ⟨true, false⟩
        "$\x7bfunction () \x7b return a \x7d\x7d").toOption.isSome = true := by
      decide +kernel
    cases read : parseTemplate ⟨true, false⟩ "$\x7bfunction () \x7b return a \x7d\x7d" with
    | error error => simp [read, Except.toOption] at found
    | ok t => exact ⟨t, rfl, (wellScoped_of_read _ _).1 t read⟩
  · have found : (parseExpression ⟨false, false⟩
        "\x7bget b() \x7b return a \x7d\x7d").toOption.isSome = true := by
      decide +kernel
    cases read : parseExpression ⟨false, false⟩ "\x7bget b() \x7b return a \x7d\x7d" with
    | error error => simp [read, Except.toOption] at found
    | ok e => exact ⟨e, rfl, (wellScoped_of_read _ _).2.2 e read⟩

end Stencil
