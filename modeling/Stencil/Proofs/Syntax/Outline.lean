import Stencil.Syntax.Erase
import Stencil.Proofs.Syntax.Induction
/-!
# The places of chunks

`Chunk.spans` lists the spans of a chunk and of the chunks inside it, in the order of the text. The
outline of a chunk is all of it but its spans, together with the beginnings of these, where they are
wanted: two chunks with the same outline differ only in spans, and begin at the same places.
-/

set_option autoImplicit false

namespace Stencil.Syntax

open Stencil.Text (Span)

mutual

/-- The spans of a chunk and of the chunks inside it. -/
def Chunk.spans : Chunk → List (Option Span)
  | .each s _ _ body => s :: spansOfChunks body
  | .ifElse s _ thenBranch elseIfs elseBranch =>
    s :: (spansOfChunks thenBranch ++ (spansOfElseIfs elseIfs
      ++ match elseBranch with
        | none => []
        | some branch => spansOfChunks branch))
  | c => [c.span]

/-- The spans of the chunks of a list. -/
def spansOfChunks : List Chunk → List (Option Span)
  | [] => []
  | c :: rest => c.spans ++ spansOfChunks rest

/-- The spans of the chunks of conditional branches. -/
def spansOfElseIfs : List ElseIf → List (Option Span)
  | [] => []
  | .mk _ body :: rest => spansOfChunks body ++ spansOfElseIfs rest

end

attribute [simp] Chunk.spans spansOfChunks spansOfElseIfs

/-- A conditional without spans. -/
theorem eraseSpans_ifElse (s : Option Span) (condition : Expr) (thenBranch : List Chunk)
    (elseIfs : List ElseIf) (elseBranch : Option (List Chunk)) :
    (Chunk.ifElse s condition thenBranch elseIfs elseBranch).eraseSpans =
      .ifElse none condition.eraseSpans (eraseChunks thenBranch) (eraseElseIfs elseIfs)
        (elseBranch.map eraseChunks) := by
  cases elseBranch <;> rfl

/-- The spans of a conditional and of the chunks inside it. -/
theorem spans_ifElse (s : Option Span) (condition : Expr) (thenBranch : List Chunk)
    (elseIfs : List ElseIf) (elseBranch : Option (List Chunk)) :
    (Chunk.ifElse s condition thenBranch elseIfs elseBranch).spans =
      s :: (spansOfChunks thenBranch ++ (spansOfElseIfs elseIfs
        ++ (elseBranch.map spansOfChunks).getD [])) := by
  cases elseBranch <;> rfl

/-- Of a span only its beginning, if that is wanted. -/
def beginning (keep : Bool) (span : Option Span) : Option Span :=
  if keep then span.map fun s => Span.point s.start else none

/-- The chunk without its spans, and the beginnings of these, if they are wanted. -/
def Chunk.outline (keep : Bool) (c : Chunk) : Chunk × List (Option Span) :=
  (c.eraseSpans, c.spans.map (beginning keep))

/-- The conditional branch without its spans, and the beginnings of these, if they are wanted. -/
def ElseIf.outline (keep : Bool) (b : ElseIf) : ElseIf × List (Option Span) :=
  (b.eraseSpans, (spansOfElseIfs [b]).map (beginning keep))

/-- Chunks with the same outlines are the same without their spans, and begin at the same places. -/
theorem of_outlines {keep : Bool} {chunks others : List Chunk}
    (same : chunks.map (·.outline keep) = others.map (·.outline keep)) :
    eraseChunks chunks = eraseChunks others ∧
      (spansOfChunks chunks).map (beginning keep) = (spansOfChunks others).map (beginning keep) := by
  induction chunks generalizing others with
  | nil =>
    obtain rfl := List.map_eq_nil_iff.1 same.symm
    exact ⟨rfl, rfl⟩
  | cons c chunks ih =>
    cases others with
    | nil => exact absurd same (by simp)
    | cons d others =>
      obtain ⟨first, rest⟩ := List.cons.inj same
      obtain ⟨erased, spans⟩ := Prod.mk.inj first
      obtain ⟨erased', spans'⟩ := ih rest
      refine ⟨?_, ?_⟩
      · rw [eraseChunks, eraseChunks, erased, erased']
      · rw [spansOfChunks, spansOfChunks, List.map_append, List.map_append, spans, spans']

/-- Conditional branches with the same outlines are the same without their spans, and their chunks
begin at the same places. -/
theorem of_outlinesElseIf {keep : Bool} {branches others : List ElseIf}
    (same : branches.map (·.outline keep) = others.map (·.outline keep)) :
    eraseElseIfs branches = eraseElseIfs others ∧
      (spansOfElseIfs branches).map (beginning keep) =
        (spansOfElseIfs others).map (beginning keep) := by
  induction branches generalizing others with
  | nil =>
    obtain rfl := List.map_eq_nil_iff.1 same.symm
    exact ⟨rfl, rfl⟩
  | cons b branches ih =>
    cases others with
    | nil => exact absurd same (by simp)
    | cons d others =>
      obtain ⟨first, rest⟩ := List.cons.inj same
      obtain ⟨erased, spans⟩ := Prod.mk.inj first
      obtain ⟨erased', spans'⟩ := ih rest
      obtain ⟨condition, body⟩ := b
      obtain ⟨condition', body'⟩ := d
      refine ⟨?_, ?_⟩
      · rw [eraseElseIfs, eraseElseIfs, erased, erased']
      · simp only [spansOfElseIfs, List.append_nil] at spans
        rw [spansOfElseIfs, spansOfElseIfs, List.map_append, List.map_append, spans, spans']

end Stencil.Syntax
