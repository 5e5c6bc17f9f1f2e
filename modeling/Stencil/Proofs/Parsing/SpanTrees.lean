import Stencil.Proofs.Parsing.ExtentRules
/-!
# The spans of a tree form a tree

A template, script or expression that is read with spans carries them as a tree: each goes round a
piece of the text and round the spans of all that stands below it, and the spans on one level stand
one behind the other, in the order of the text.
-/

set_option autoImplicit false

namespace Stencil

open Stencil.Grammar
open Stencil.Syntax
open Stencil.Text

variable {α : Type}

/-- The cursor at the start of a source stands in its text. -/
theorem inText_ofSource {template : Bool} {source : List Char} {c : Cursor}
    (begun : Cursor.ofSource template source = .ok c) : c.InText (normalize source) := by
  unfold Cursor.ofSource at begun
  split at begun
  · next token lexer read =>
    have whole : normalize source = [] ++ (Lexer.ofSource template source).rest := rfl
    obtain ⟨holds, le⟩ := Lexer.holds_next whole rfl read
    cases begun
    exact ⟨⟨[], List.nil_prefix, counts_after []⟩, holds, le⟩
  · cases begun

/-- A rule that lays what it gives reads whole texts with nested parts. -/
theorem nested_run {template strict : Bool} {source : List Char} {rule : Rules → Parser α}
    {roots : α → List Part} {tree : α}
    (lays : ∀ (R : Rules) (c : Cursor), R.Placing strict (normalize source) →
      c.InText (normalize source) →
      Gives (withSpans strict) c (rule R)
        fun a behind => c.Lays (normalize source) (roots a) behind)
    (read : (run template ⟨true, strict⟩ source rule).mapError (·.toError) = .ok tree) :
    ∃ lo hi, Nested (normalize source) lo hi (roots tree) := by
  obtain ⟨_, lo, hi, nested⟩ := gives_run
    (fun depth c begun => (lays _ c (placing_upTo strict _ depth) (inText_ofSource begun)).next
      fun _ _ laid => (⟨_, _, laid.nested⟩ : ∃ lo hi, Nested _ lo hi _)) read
  exact ⟨lo, hi, nested⟩

section

variable {strict : Bool} {source : String}

theorem template_spanTree {t : Template} (read : parseTemplate ⟨true, strict⟩ source = .ok t) :
    SpanTree (normalize source.toList) (t.chunks.map .chunk) t.parts := by
  obtain ⟨lo, hi, nested⟩ :=
    nested_run (fun R c placing inText => lays_template placing inText) read
  exact nested.spanTree t.rooted_parts.reached

/-- Every node of a template carries a span, but for what stands in the place of a missing
expression. -/
theorem template_spanned {t : Template} (read : parseTemplate ⟨true, strict⟩ source = .ok t) :
    Everywhere (fun part => part.isNode = true → part = .missing ∨ ∃ span, part.span = some span)
      t.parts := by
  obtain ⟨lo, hi, nested⟩ :=
    nested_run (fun R c placing inText => lays_template placing inText) read
  exact nested.spanned t.rooted_parts

theorem script_spanTree {script : Program}
    (read : parseScript ⟨true, strict⟩ source = .ok script) :
    SpanTree (normalize source.toList) (script.body.map .stmt) script.parts := by
  obtain ⟨lo, hi, nested⟩ :=
    nested_run (fun R c placing inText => lays_program placing inText) read
  exact nested.spanTree script.rooted_parts.reached

theorem expression_spanTree {e : Expr}
    (read : parseExpression ⟨true, strict⟩ source = .ok e) :
    SpanTree (normalize source.toList) [.expr e] e.parts := by
  obtain ⟨lo, hi, nested⟩ :=
    nested_run (fun R c placing inText => lays_wholeExpression placing inText) read
  exact nested.spanTree e.rooted_parts.reached

end

/-- The spans of every template, script and expression that is read with spans form a tree. -/
theorem spans_form_tree (strict : Bool) (source : String) :
    (∀ t, parseTemplate ⟨true, strict⟩ source = .ok t →
        SpanTree (normalize source.toList) (t.chunks.map .chunk) t.parts) ∧
      (∀ script, parseScript ⟨true, strict⟩ source = .ok script →
        SpanTree (normalize source.toList) (script.body.map .stmt) script.parts) ∧
      ∀ e, parseExpression ⟨true, strict⟩ source = .ok e →
        SpanTree (normalize source.toList) [.expr e] e.parts :=
  ⟨fun _ read => template_spanTree read, fun _ read => script_spanTree read,
    fun _ read => expression_spanTree read⟩

/-- The bytes at which the spans of a chunk, and of the parts right below it, begin and end. -/
def Syntax.Chunk.bounds (chunk : Chunk) : List (Nat × Nat) :=
  (.chunk chunk :: chunk.children : List Part).filterMap fun part =>
    part.span.map fun span => (span.start.byte, span.stop.byte)

/-- A text, and a conditional with two branches, of which the first condition is in parentheses. -/
theorem spans_form_tree_conditional :
    ∃ t, parseTemplate ⟨true, false⟩ "é{{if (a)}}b{{else c [d]}}${e}{{/if}}" = .ok t ∧
      t.chunks.map Chunk.bounds
        = [[(0, 2)], [(2, 38), (8, 9), (12, 13), (20, 25), (27, 31)]] ∧
      SpanTree (normalize "é{{if (a)}}b{{else c [d]}}${e}{{/if}}".toList)
        (t.chunks.map .chunk) t.parts := by
  have found : (parseTemplate ⟨true, false⟩ "é{{if (a)}}b{{else c [d]}}${e}{{/if}}").toOption.map
      (fun t => t.chunks.map Chunk.bounds)
        = some [[(0, 2)], [(2, 38), (8, 9), (12, 13), (20, 25), (27, 31)]] := by
    decide +kernel
  cases read : parseTemplate ⟨true, false⟩ "é{{if (a)}}b{{else c [d]}}${e}{{/if}}" with
  | error e => simp [read, Except.toOption] at found
  | ok t =>
    simp only [read, Except.toOption, Option.map_some, Option.some.injEq] at found
    exact ⟨t, rfl, found, (spans_form_tree false _).1 t read⟩

end Stencil
