import Stencil.Proofs.Parsing.SpanlessRules
import Stencil.Proofs.Syntax.Unspanned
/-!
# Whether spans are wanted does not influence parsing

A text is parsed with spans exactly when it is parsed without. The tree without spans is the tree
with spans, erased, and no part of it has a span; an error has the same kind and the same wording
both times. This holds of templates, scripts and expressions, strict or not.
-/

set_option autoImplicit false

namespace Stencil

open Stencil.Error (ParseError)
open Stencil.Grammar
open Stencil.Syntax

variable {α : Type}

/-- Two readings of one text differ in their spans only: the second tree is the first one erased,
and has no span at any depth, or both errors have one kind and one message. -/
def DifferInSpans (erase : α → α) (parts : α → List Part) :
    Except ParseError α → Except ParseError α → Prop
  | .ok tree, .ok tree' => tree' = erase tree ∧ Everywhere Part.Bare (parts tree')
  | .error error, .error error' => error.kind = error'.kind ∧ error.message = error'.message
  | _, _ => False

/-- A rule that ends alike with spans and without reads whole texts that differ in their spans
only. -/
theorem differInSpans_run {erase : α → α} {parts : α → List Part} {rule : Rules → Parser α}
    {strict : Bool} (template : Bool) (source : List Char)
    (erases : ∀ (R : Rules) (c : Cursor), R.Spanless → Erases strict c erase (rule R) (rule R))
    (bare : ∀ tree, Everywhere Part.Bare (parts (erase tree))) :
    DifferInSpans erase parts
      ((run template ⟨true, strict⟩ source rule).mapError (·.toError))
      ((run template ⟨false, strict⟩ source rule).mapError (·.toError)) := by
  unfold run
  cases Cursor.ofSource template source with
  | error failure => exact ⟨rfl, rfl⟩
  | ok c =>
    have both := erases (Rules.upTo (c.lexer.rest.length + 2)) c (spanless_upTo _)
    unfold Erases withSpans withoutSpans at both
    show DifferInSpans erase parts
      ((rule _ ⟨true, strict⟩ c >>= fun read => .ok read.1).mapError _)
      ((rule _ ⟨false, strict⟩ c >>= fun read => .ok read.1).mapError _)
    -- the two runs end in one way, and forgetting the cursor behind keeps how they end
    cases first : rule (Rules.upTo (c.lexer.rest.length + 2)) ⟨true, strict⟩ c with
    | error failure =>
      cases second : rule (Rules.upTo (c.lexer.rest.length + 2)) ⟨false, strict⟩ c with
      | error failure' =>
        rw [first, second] at both
        exact ⟨both.kind, both.message⟩
      | ok outcome' =>
        rw [first, second] at both
        exact both.elim
    | ok outcome =>
      cases second : rule (Rules.upTo (c.lexer.rest.length + 2)) ⟨false, strict⟩ c with
      | error failure' =>
        rw [first, second] at both
        exact both.elim
      | ok outcome' =>
        rw [first, second] at both
        obtain ⟨erased, -⟩ := both
        exact ⟨erased, erased ▸ bare outcome.1⟩

/-- What was read without spans has none. -/
theorem DifferInSpans.bare {erase : α → α} {parts : α → List Part} {spanned : Except ParseError α}
    {tree : α} (both : DifferInSpans erase parts spanned (.ok tree)) :
    Everywhere Part.Bare (parts tree) := by
  cases spanned with
  | error error => exact both.elim
  | ok tree' => exact both.2

section

variable (strict : Bool) (source : String)

theorem template_differInSpans :
    DifferInSpans Template.eraseSpans Template.parts
      (parseTemplate ⟨true, strict⟩ source) (parseTemplate ⟨false, strict⟩ source) := by
  apply differInSpans_run true source.toList
  · exact fun R c spanless => erases_template spanless
  · exact Template.bare_eraseSpans

theorem script_differInSpans :
    DifferInSpans Program.eraseSpans Program.parts
      (parseScript ⟨true, strict⟩ source) (parseScript ⟨false, strict⟩ source) := by
  apply differInSpans_run false source.toList
  · exact fun R c spanless => erases_program spanless
  · exact Program.bare_eraseSpans

theorem expression_differInSpans :
    DifferInSpans Expr.eraseSpans Expr.parts
      (parseExpression ⟨true, strict⟩ source) (parseExpression ⟨false, strict⟩ source) := by
  apply differInSpans_run false source.toList
  · exact fun R c spanless => erases_wholeExpression spanless
  · exact Expr.bare_eraseSpans

end

section

variable {strict : Bool} {source : String}

/-- A template that was read without spans stays as it is when they are erased. -/
theorem template_eraseSpans_of_read {t : Template}
    (read : parseTemplate ⟨false, strict⟩ source = .ok t) : t.eraseSpans = t :=
  Template.eraseSpans_of_bare (read ▸ template_differInSpans strict source).bare

/-- A script that was read without spans stays as it is when they are erased. -/
theorem script_eraseSpans_of_read {program : Program}
    (read : parseScript ⟨false, strict⟩ source = .ok program) : program.eraseSpans = program :=
  Program.eraseSpans_of_bare (read ▸ script_differInSpans strict source).bare

/-- An expression that was read without spans stays as it is when they are erased. -/
theorem expression_eraseSpans_of_read {e : Expr}
    (read : parseExpression ⟨false, strict⟩ source = .ok e) : e.eraseSpans = e :=
  Expr.eraseSpans_of_bare (read ▸ expression_differInSpans strict source).bare

end

/-- Whether spans are wanted does not influence parsing: templates, scripts and expressions are read
with spans as without, up to the spans. -/
theorem parse_differInSpans (strict : Bool) (source : String) :
    DifferInSpans Template.eraseSpans Template.parts
        (parseTemplate ⟨true, strict⟩ source) (parseTemplate ⟨false, strict⟩ source) ∧
      DifferInSpans Program.eraseSpans Program.parts
        (parseScript ⟨true, strict⟩ source) (parseScript ⟨false, strict⟩ source) ∧
      DifferInSpans Expr.eraseSpans Expr.parts
        (parseExpression ⟨true, strict⟩ source) (parseExpression ⟨false, strict⟩ source) :=
  ⟨template_differInSpans strict source, script_differInSpans strict source,
    expression_differInSpans strict source⟩

end Stencil
