import Stencil.Proofs.Parsing.PlainExprs
import Stencil.Proofs.Parsing.Templates
/-!
# Source maps

A template is plain when its expressions are and its texts can stand in a template. The canonical
text of a plain template is read back as that template, each text as one chunk, and the mappings
that were printed with it are exact: there is one for each chunk, in their order, from the place
where the chunk begins in the printed text to the place where it began in its source
(`source_maps_exact`).
-/

set_option autoImplicit false

namespace Stencil.Print

open Stencil.Lexing
open Stencil.Syntax
open Stencil.Text

/-! ## Plain templates -/

/-- A name that is neither reserved nor a constant. -/
def IsPlainName (name : String) : Prop :=
  isName name.toList = true ∧ isReserved name = false ∧ Atom.ofSpelling? name = none

instance (name : String) : Decidable (IsPlainName name) :=
  inferInstanceAs (Decidable (_ ∧ _ ∧ _))

/-- A text without line breaks other than the line feed that does not hold the end of a verbatim
block. -/
structure IsPlainText (text : String) : Prop where
  unbroken : ∀ c ∈ text.toList, c ≠ '\r' ∧ c ≠ '\u2028' ∧ c ≠ '\u2029'
  unclosed : ¬"\x7b\x7b/verbatim\x7d\x7d".toList <:+: text.toList

instance (text : String) : Decidable (IsPlainText text) :=
  haveI : Decidable ("\x7b\x7b/verbatim\x7d\x7d".toList <:+: text.toList) :=
    List.instDecidableIsInfixOfDecidableEq _ _
  decidable_of_iff
    ((∀ c ∈ text.toList, c ≠ '\r' ∧ c ≠ '\u2028' ∧ c ≠ '\u2029') ∧
      ¬"\x7b\x7b/verbatim\x7d\x7d".toList <:+: text.toList)
    ⟨fun both => ⟨both.1, both.2⟩, fun plain => ⟨plain.unbroken, plain.unclosed⟩⟩

/-- What stands in a plain template, apart from its expressions. -/
def PlainChunk : Chunk → Prop
  | .html _ text => IsPlainText text
  | .include _ none name => ¬beginsWithParenthesis (ofExpr name)
  | .each _ none collection _ => ¬beginsWithParenthesis (ofExpr collection)
  | .each _ (some names) _ _ => names ≠ [] ∧ ∀ n ∈ names, IsPlainName n
  | .var _ defs => defs ≠ []
  | _ => True

/-- The condition on a part of a plain template. -/
def PlainPart : Part → Prop
  | .expr e => PlainExpr e
  | .property (.init _ _) => True
  | .varDef (.mk name _) => IsPlainName name
  | .chunk c => PlainChunk c
  | .elseIf _ => True
  | _ => False

theorem isFineName_of_plain {name : String} (plain : IsPlainName name) : IsFineName name :=
  ⟨.inl plain.1, wordKind_plain plain.2.1 plain.2.2⟩

theorem isFineText_of_plain {text : String} (plain : IsPlainText text) : IsFineText text where
  unbroken c listed := by
    obtain ⟨r, ls, ps⟩ := plain.unbroken c listed
    simp [isForeignBreak, r, ls, ps]
  unclosed := by
    rw [Option.eq_none_iff_forall_ne_some]
    intro length found
    obtain ⟨before, behind, -, whole⟩ := findPattern_some found
    exact plain.unclosed ⟨before, behind, by rw [whole, List.append_assoc]⟩

theorem faithfulChunk_of_plain {c : Chunk} (plain : PlainChunk c) : FaithfulChunk c := by
  cases c with
  | html s text => exact isFineText_of_plain plain
  | «include» s args name =>
    cases args with
    | none => exact plain
    | some args => trivial
  | each s bindings collection body =>
    cases bindings with
    | none => exact fun wrapped => absurd wrapped plain
    | some names => exact ⟨plain.1, fun n listed => isFineName_of_plain (plain.2 n listed)⟩
  | var s defs => exact plain
  | _ => trivial

theorem grammaticalChunk_of_plain {c : Chunk} (plain : PlainChunk c) : GrammaticalChunk c := by
  have faithful := faithfulChunk_of_plain plain
  cases c with
  | html s text => exact faithful
  | each s bindings collection body =>
    cases bindings with
    | none => trivial
    | some names => exact ⟨faithful.1, fun n listed => (faithful.2 n listed).2⟩
  | var s defs => exact faithful
  | _ => trivial

theorem grammatical_of_plainPart {part : Part} (plain : PlainPart part) : Grammatical part := by
  cases part with
  | expr e => exact grammatical_of_plainExpr plain
  | varDef d =>
    obtain ⟨name, value⟩ := d
    exact wordKind_plain plain.2.1 plain.2.2
  | property p => trivial
  | chunk c => exact grammaticalChunk_of_plain plain
  | elseIf branch => trivial
  | _ => exact plain.elim

theorem spellable_of_plainPart {part : Part} (plain : PlainPart part) (number : NumberReturns part) :
    Spellable part := by
  cases part with
  | expr e => exact spellable_of_plainExpr plain number
  | varDef d =>
    obtain ⟨name, value⟩ := d
    exact .inl plain.1
  | property p =>
    cases p with
    | init key value => trivial
    | _ => exact plain.elim
  | chunk c => exact faithfulChunk_of_plain plain
  | elseIf branch => trivial
  | _ => exact plain.elim

/-- A plain template is faithful: its text reads back. -/
theorem faithful_of_plainTemplate {t : Template} (plain : Everywhere PlainPart t.parts)
    (numbers : Everywhere NumberReturns t.parts) : Everywhere Faithful t.parts :=
  faithful_of_grammatical t.closed_parts
    (fun part listed => grammatical_of_plainPart (plain part listed))
    fun part listed => spellable_of_plainPart (plain part listed) (numbers part listed)

/-! ## Mappings -/

/-- The mapping from where a chunk begins in printed code to where it begins in the source. -/
def Mapping.between? : Option Span → Option Span → Option Mapping
  | some printed, some source =>
    some ⟨printed.start.line, printed.start.column, source.start.line, source.start.column⟩
  | _, _ => none

/-- The mapping depends on where the chunk begins in printed code only. -/
theorem between?_beginning (printed source : Option Span) :
    Mapping.between? (beginning true printed) source = Mapping.between? printed source := by
  cases printed <;> cases source <;> rfl

/-- The mapping of a mark is the one from where it stands. -/
theorem between?_mark (mark : Position × Option Span) :
    Mapping.between? (some (Span.point mark.1)) mark.2 = mapping? mark := by
  obtain ⟨place, span⟩ := mark
  cases span <;> rfl

/-- Marks with spans give a mapping each. -/
theorem mappings_eq {found : List (Position × Option Span)}
    (spanned : ∀ mark ∈ found, mark.2.isSome = true) :
    (found.filterMap mapping?).map some = found.map mapping? := by
  induction found with
  | nil => rfl
  | cons mark found ih =>
    obtain ⟨place, span⟩ := mark
    obtain ⟨span, rfl⟩ := Option.isSome_iff_exists.1 (spanned _ List.mem_cons_self)
    simp [mapping?, ih fun mark listed => spanned mark (List.mem_cons_of_mem _ listed)]

/-- Where chunks were read back from where the marks stand, the mappings go from there to the spans
of the marks. -/
theorem mappings_exact {place : Position} {pieces : List Piece} {spans located read : List (Option Span)}
    (marked : Marked place pieces spans located) (spanned : ∀ s ∈ spans, s.isSome = true)
    (same : read.map (beginning true) = located.map (beginning true)) :
    ((marks place pieces).filterMap mapping?).map some =
      List.zipWith Mapping.between? read spans := by
  have places : read.map (beginning true) =
      (marks place pieces).map fun mark => some (Span.point mark.1) := by
    rw [same, ← marked.places, List.map_map]
    rfl
  calc ((marks place pieces).filterMap mapping?).map some
      = (marks place pieces).map mapping? := by
        refine mappings_eq fun mark listed => spanned _ ?_
        rw [← marked.spans]
        exact List.mem_map_of_mem listed
    _ = List.zipWith Mapping.between? (read.map (beginning true)) spans := by
        rw [places, ← marked.spans, List.zipWith_map, List.zipWith_self]
        exact List.map_congr_left fun mark _ => (between?_mark mark).symm
    _ = List.zipWith Mapping.between? read spans := by
        rw [List.zipWith_map_left]
        simp only [between?_beginning]

end Stencil.Print

namespace Stencil

open Stencil.Grammar
open Stencil.Lexing
open Stencil.Number
open Stencil.Print
open Stencil.Syntax
open Stencil.Text

/-- Source maps are exact and texts survive: the text of a plain template, with its mappings, is read
back as that template, and the mappings go from where each of its chunks, however deep inside
others, begins in the text to where it began in the source. -/
theorem source_maps_exact (unit : String) {t : Template} (plain : Everywhere PlainPart t.parts)
    (numbers : Everywhere NumberReturns t.parts) (unmarked : Unmarked t.chunks)
    (spanned : ∀ s ∈ spansOfChunks t.chunks, s.isSome = true) :
    ∃ result, parseTemplate ⟨true, false⟩ (ofTemplate ⟨unit, true⟩ t).code = .ok result ∧
      result.eraseSpans = t.eraseSpans ∧
      (ofTemplate ⟨unit, true⟩ t).mappings.map some =
        List.zipWith Mapping.between? (spansOfChunks result.chunks) (spansOfChunks t.chunks) := by
  obtain ⟨result, located, parsed, same, marked, begins⟩ :=
    parseTemplate_printed (o := ⟨true, false⟩) rfl ⟨unit, true⟩ t
      (faithful_of_plainTemplate plain numbers) unmarked
  obtain ⟨-, mappings⟩ := layOut_flat ⟨unit, true⟩ (flat_template t.chunks false)
  refine ⟨result, parsed, same, ?_⟩
  rw [ofTemplate, mappings, if_pos rfl]
  exact mappings_exact marked spanned begins

/-- Texts that end in a dollar sign, that hold a marker and that follow one another, an iteration
with a conditional inside and a default branch without chunks. -/
theorem source_maps_exact_nested :
    ∃ line : Nat → Option Span, line = (fun number => some (.point ⟨0, number, 7⟩)) ∧
      ∃ t : Template, t = ⟨[.html (line 0) "a$", .html (line 1) "b\nc",
          .each (line 2) (some ["k", "v"]) (.call none (.name none "m") [.num none 1.5])
            [.html (line 3) "\x7b\x7bif x",
              .ifElse (line 4) (.name none "k") [.html (line 5) ""] [] (some [])],
          .echo (line 6) (.string none "d")]⟩ ∧
        (ofTemplate ⟨"", true⟩ t).code =
          "\x7b\x7bverbatim\x7d\x7da$\x7b\x7b/verbatim\x7d\x7d\x7b\x7bverbatim\x7d\x7db\nc"
            ++ "\x7b\x7b/verbatim\x7d\x7d\x7b\x7beach(k, v) m(1.5)\x7d\x7d"
            ++ "\x7b\x7bverbatim\x7d\x7d\x7b\x7bif x\x7b\x7b/verbatim\x7d\x7d"
            ++ "\x7b\x7bif k\x7d\x7d\x7b\x7bverbatim\x7d\x7d\x7b\x7b/verbatim\x7d\x7d"
            ++ "\x7b\x7belse\x7d\x7d\x7b\x7b/if\x7d\x7d\x7b\x7b/each\x7d\x7d$\x7b\"d\"\x7d" ∧
        (ofTemplate ⟨"", true⟩ t).mappings =
          [⟨0, 0, 0, 7⟩, ⟨0, 27, 1, 7⟩, ⟨1, 14, 2, 7⟩, ⟨1, 35, 3, 7⟩, ⟨1, 66, 4, 7⟩, ⟨1, 74, 5, 7⟩,
            ⟨1, 123, 6, 7⟩] ∧
        ∃ result, parseTemplate ⟨true, false⟩ (ofTemplate ⟨"", true⟩ t).code = .ok result ∧
          result.eraseSpans = t.eraseSpans ∧
          (ofTemplate ⟨"", true⟩ t).mappings.map some =
            List.zipWith Mapping.between? (spansOfChunks result.chunks) (spansOfChunks t.chunks) := by
  have fraction : Literal.value? (numberText 1.5).toList = some 1.5 := by decide +kernel
  have sign : (1.5 : Float).isNaN = false ∧ Style.isNegative 1.5 = false := by decide +kernel
  refine ⟨_, rfl, _, rfl, by decide +kernel, by decide +kernel, source_maps_exact "" ?_ ?_ ?_ ?_⟩
  · simp [Template.parts, partsOfChunks, partsOfElseIfs, partsOfExprs, PlainPart, PlainChunk,
      PlainExpr, sign]
    decide +kernel
  · simp [Template.parts, partsOfChunks, partsOfElseIfs, partsOfExprs, NumberReturns, fraction]
  · rintro s text rest same
    obtain ⟨rfl, rfl⟩ := Chunk.html.inj (List.cons.inj same).1
    decide
  · simp [Chunk.span]

end Stencil
