import Stencil.Proofs.Parsing.GrammaticalTemplates
import Stencil.Proofs.Parsing.Scripts
import Stencil.Proofs.Parsing.Spanless
import Stencil.Proofs.Parsing.Templates
/-!
# Reading back what was printed

Scripts and templates have a canonical text. A script that was read, strictly or not, is read back
unchanged from its canonical text, whatever blanks indent it, as long as its numbers and names can be
spelt and no property is a reserved word (`Spellable`): what else the text has to get right, the
grammar has made sure of when the script was first read (`script_read_back`).

So is a template, in front of whose text no byte order mark stands, as long as each of its parts can
be told from its text (`Restorable`, `template_read_back`). The printer does not see to that in every
case (`template_text_changes`): it writes the operands of a division without parentheses also where
they end in a word behind which a slash begins a regular expression, it writes no parentheses around
code behind the name of a command that begins with some of its own, and a mark is dropped at the
start of every text.
-/

set_option autoImplicit false

namespace Stencil

open Stencil.Grammar
open Stencil.Lexing
open Stencil.Print
open Stencil.Syntax
open Stencil.Text

/-! ## Scripts -/

/-- A script that was read, strictly or not, is read back unchanged from its canonical text, with
any indentation. -/
theorem script_read_back {strict : Bool} {source : String} {program : Program} {style : Style}
    (read : parseScript ⟨false, strict⟩ source = .ok program)
    (spellable : Everywhere Spellable program.parts)
    (blank : ∀ c ∈ style.unit.toList, isBlank c = true) :
    parseScript ⟨false, false⟩ (ofProgram style program).code = .ok program := by
  obtain ⟨grammatical, jumps⟩ := grammatical_of_script read
  have faithful := faithful_of_grammatical program.closed_parts grammatical spellable
  obtain ⟨result, again, same⟩ :=
    parseScript_printed (o := ⟨false, false⟩) rfl style program faithful jumps blank
  rw [script_eraseSpans_of_read again, script_eraseSpans_of_read read] at same
  rw [again, same]

/-- The branch that holds another conditional keeps its braces, and the regular expression, which
begins like an assignment, gets parentheses. -/
theorem script_read_back_conditional :
    ∃ program,
      parseScript ⟨false, true⟩ "a: while (b) \x7b if (c) \x7b if (d) break a; \x7d else f(/=x/); \x7d"
          = .ok program ∧
        (ofProgram ⟨"\t", false⟩ program).code
          = "a: while (b) \x7b\n\tif (c) \x7b\n\t\tif (d) break a;\n\t\x7d else f((/=x/));\n\x7d" ∧
        parseScript ⟨false, false⟩ (ofProgram ⟨"\t", false⟩ program).code = .ok program := by
  have found :
      (parseScript ⟨false, true⟩
        "a: while (b) \x7b if (c) \x7b if (d) break a; \x7d else f(/=x/); \x7d").toOption.map
          (fun program => (program.parts.all isPlainlySpelt, (ofProgram ⟨"\t", false⟩ program).code))
        = some (true,
          "a: while (b) \x7b\n\tif (c) \x7b\n\t\tif (d) break a;\n\t\x7d else f((/=x/));\n\x7d") := by
    decide +kernel
  cases read : parseScript ⟨false, true⟩
      "a: while (b) \x7b if (c) \x7b if (d) break a; \x7d else f(/=x/); \x7d" with
  | error error => simp [read, Except.toOption] at found
  | ok program =>
    simp only [read, Except.toOption, Option.map_some, Option.some.injEq, Prod.mk.injEq] at found
    refine ⟨program, rfl, found.2, script_read_back read (fun part listed => ?_) (by decide)⟩
    exact spellable_of_isPlainlySpelt (List.all_eq_true.1 found.1 part listed)

/-! ## Templates -/

/-- A template that was read, strictly or not, is read back unchanged from its canonical text, if each
of its parts can be told from its text and no byte order mark stands in front of that. -/
theorem template_read_back {strict : Bool} {source : String} {t : Template} {style : Style}
    (read : parseTemplate ⟨false, strict⟩ source = .ok t)
    (restorable : Everywhere Restorable t.parts) (unmarked : Unmarked t.chunks) :
    parseTemplate ⟨false, false⟩ (ofTemplate style t).code = .ok t := by
  have grammatical := grammatical_of_template read
  have faithful : Everywhere Faithful t.parts := fun part listed =>
    faithful_of_restorable (grammatical part listed) (restorable part listed)
  obtain ⟨result, -, again, same, -⟩ :=
    parseTemplate_printed (o := ⟨false, false⟩) rfl style t faithful unmarked
  rw [template_eraseSpans_of_read again, template_eraseSpans_of_read read] at same
  rw [again, same]

/-- A test that is enough for a part of a template without numbers: its names are plain, nothing that
ends in a word which regular expressions follow is divided, and no code begins with a parenthesis where
a list might stand. -/
def isPlainlyRestorable : Part → Bool
  | .expr (.dot _ _ property) => isName property.toList
  | .expr (.binary _ op left _) => op ≠ .div || !endsHot (binaryLevel + op.precedence) left
  | .expr (.assign _ op target _) => op ≠ some .div || !endsHot binaryLevel target
  | .chunk (.include _ none name) => (ofExpr name).toList.head? ≠ some '('
  | .chunk (.each _ none collection _) => (ofExpr collection).toList.head? ≠ some '('
  | .chunk (.each _ (some names) _ _) => names.all (isName ·.toList)
  | .chunk _ => true
  | part => isPlainlySpelt part

theorem restorable_of_isPlainlyRestorable {part : Part} (plain : isPlainlyRestorable part = true) :
    Restorable part := by
  have apart {code : String} (plain : decide (code.toList.head? ≠ some '(') = true) :
      ¬beginsWithParenthesis code := by
    simpa [beginsWithParenthesis] using plain
  cases part with
  | expr e =>
    cases e with
    | dot s target property => exact .inl plain
    | binary s op left right | assign s op target value =>
      intro divides
      simpa [isPlainlyRestorable, divides] using plain
    | num => cases plain
    | name => exact .inl plain
    | _ => trivial
  | chunk c =>
    cases c with
    | «include» s args name =>
      cases args with
      | none => exact apart plain
      | some args => trivial
    | each s bindings collection body =>
      cases bindings with
      | none => exact fun wrapped => absurd wrapped (apart plain)
      | some names => exact fun n listed => .inl (List.all_eq_true.1 plain n listed)
    | _ => trivial
  | varDef d =>
    obtain ⟨name, value⟩ := d
    exact .inl plain
  | handler h =>
    obtain ⟨name, body⟩ := h
    exact .inl plain
  | property p => exact @spellable_of_isPlainlySpelt (.property p) plain
  | function fn => exact @spellable_of_isPlainlySpelt (.function fn) plain
  | stmt s => exact @spellable_of_isPlainlySpelt (.stmt s) plain
  | head | switchCase | elseIf => trivial

/-- Two texts that follow one another, of which the first ends in a dollar sign, a division of a
sequence in an iteration, arguments behind which parentheses are superfluous, and a reserved word for a
property. -/
theorem template_read_back_nested :
    let source :=
      "\x7b\x7bverbatim\x7d\x7da$\x7b\x7b/verbatim\x7d\x7d\x7b\x7b! b \x7d\x7dc\x7b\x7beach (i, j) k\x7d\x7d"
        ++ "$\x7b(i, j) / l\x7d\x7b\x7btmpl(n) (o)\x7d\x7d\x7b\x7b/each\x7d\x7d\x7b\x7bhtml r.in\x7d\x7d"
    let text :=
      "\x7b\x7bverbatim\x7d\x7da$\x7b\x7b/verbatim\x7d\x7d\x7b\x7bverbatim\x7d\x7dc\x7b\x7b/verbatim\x7d\x7d"
        ++ "\x7b\x7beach(i, j) k\x7d\x7d$\x7b(i, j) / l\x7d\x7b\x7btmpl(n) o\x7d\x7d\x7b\x7b/each\x7d\x7d"
        ++ "\x7b\x7bhtml r.in\x7d\x7d"
    ∃ t, parseTemplate ⟨false, false⟩ source = .ok t ∧ (ofTemplate defaultStyle t).code = text ∧
      parseTemplate ⟨false, false⟩ text = .ok t := by
  intro source text
  have found : (parseTemplate ⟨false, false⟩ source).toOption.map
      (fun t => (t.parts.all isPlainlyRestorable, decide (Unmarked t.chunks),
        (ofTemplate defaultStyle t).code)) = some (true, true, text) := by
    decide +kernel
  cases read : parseTemplate ⟨false, false⟩ source with
  | error error => simp [read, Except.toOption] at found
  | ok t =>
    simp only [read, Except.toOption, Option.map_some, Option.some.injEq, Prod.mk.injEq,
      decide_eq_true_eq] at found
    obtain ⟨plain, unmarked, same⟩ := found
    have again : parseTemplate ⟨false, false⟩ (ofTemplate defaultStyle t).code = .ok t :=
      template_read_back read (fun part listed =>
        restorable_of_isPlainlyRestorable (List.all_eq_true.1 plain part listed)) unmarked
    exact ⟨t, rfl, same, same ▸ again⟩

/-- A template is read from the text, and its canonical text is not read back as that template. -/
def ChangesInPrint (source : String) : Prop :=
  ∃ t, parseTemplate ⟨false, false⟩ source = .ok t ∧
    parseTemplate ⟨false, false⟩ (ofTemplate defaultStyle t).code ≠ .ok t

/-- How many chunks are read from a text. -/
def chunkCount? (text : String) : Option Nat :=
  (parseTemplate ⟨false, false⟩ text).toOption.map (·.chunks.length)

/-- A template whose canonical text is refused, or is read as another number of chunks, is not read
back. -/
theorem changesInPrint_of_chunkCount? {source : String}
    (found : (parseTemplate ⟨false, false⟩ source).toOption.any
      (fun t => chunkCount? (ofTemplate defaultStyle t).code ≠ some t.chunks.length) = true) :
    ChangesInPrint source := by
  cases read : parseTemplate ⟨false, false⟩ source with
  | error error => simp [read, Except.toOption] at found
  | ok t =>
    simp only [read, Except.toOption, Option.any_some, decide_eq_true_eq] at found
    refine ⟨t, read, fun again => found ?_⟩
    rw [chunkCount?, again]
    rfl

/-- The canonical text of a template is not always read back: where a reserved word that names a member
is divided, where code behind the name of a command begins with parentheses of its own, and where the
text of the template begins with a byte order mark. -/
theorem template_text_changes :
    ChangesInPrint "$\x7b(a.return) / b / c\x7d" ∧ ChangesInPrint "\x7b\x7btmpl 1..a\x7d\x7d" ∧
      ChangesInPrint "\x7b\x7bverbatim\x7d\x7d\ufeff\x7b\x7b/verbatim\x7d\x7d" :=
  ⟨changesInPrint_of_chunkCount? (by decide +kernel),
    changesInPrint_of_chunkCount? (by decide +kernel),
    changesInPrint_of_chunkCount? (by decide +kernel)⟩

end Stencil
