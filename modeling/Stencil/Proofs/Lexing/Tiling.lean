import Mathlib.Data.List.Infix
import Stencil.Proofs.Lexing.Gaps
/-!
# Tokens and comments tile the source

When the tokens of a source are read without an error, the tokens and the comments they carry
cover the normalized text from its beginning to its end, in order and without overlap, and leave
out nothing but blanks between the tokens of code.

`Tiling` is the run of the lexer as a chain of the moves `Takes` describes, one per token, so
that every part of the result is an induction along it or a fact about the one move at a token
(`Tiling.takes`).
-/

set_option autoImplicit false

namespace Stencil

open Stencil.Error (ParseError)
open Stencil.Text

/-! ## The statement -/

/-- The span goes round the character that stands at the place. -/
def Text.Span.Covers (span : Span) (place : Position) : Prop :=
  span.start.byte ≤ place.byte ∧ place.byte < span.stop.byte

/-- The spans of the tokens and of the comments they carry. -/
def Token.spans (tokens : List Token) : List Span :=
  tokens.flatMap fun token => token.comments.map (·.span) ++ [token.span]

/-- Where the last of the tokens ends, or the given place if there is none. -/
def Token.endOf (place : Position) : List Token → Position
  | [] => place
  | token :: tokens => endOf token.span.stop tokens

/-- The lexer behind a number of tokens. -/
def Lexer.behind : Nat → Lexer → Lexer
  | 0, lexer => lexer
  | n + 1, lexer => behind n lexer.next.2

/-- The tokens, with their comments, tile the text. -/
structure Tiles (template : Bool) (source : List Char) (tokens : List Token) : Prop where
  /-- Every span lies in the normalized text. -/
  within : ∀ span ∈ Token.spans tokens, span.LiesIn (normalize source)
  /-- The spans stand in the order of the text, and none begins before the last one has ended. -/
  apart : (Token.spans tokens).Pairwise fun first second => first.stop.byte ≤ second.start.byte
  /-- A character that no span goes round is a blank. -/
  uncovered : ∀ before c rest, normalize source = before ++ c :: rest →
    (∀ span ∈ Token.spans tokens, ¬ span.Covers (Position.origin.after before)) →
    isBlank c = true
  /-- Where the lexer read a token in the text of a template, comments go round all that stands
  between the token and the one before it. -/
  covered : ∀ earlier token later, tokens = earlier ++ token :: later →
    ((Lexer.ofSource template source).behind earlier.length).mode = .text →
    ∀ before c rest, normalize source = before ++ c :: rest →
      (Token.endOf .origin earlier).byte ≤ (Position.origin.after before).byte →
      (Position.origin.after before).byte < token.span.start.byte →
      ∃ comment ∈ token.comments, comment.span.Covers (Position.origin.after before)
  /-- The last token, and no other, is the end of the text, and it stands there. -/
  ended : ∃ earlier last, tokens = earlier ++ [last] ∧ last.isEof = true ∧
    last.span = Span.point (Position.origin.after (normalize source)) ∧
    ∀ token ∈ earlier, token.isEof = false
  /-- A comment is what is written inside its span, between the token that carries it and the one
  before that. -/
  comments : ∀ earlier token later, tokens = earlier ++ token :: later →
    ∀ comment ∈ token.comments,
      (∃ before rest, normalize source = before ++ comment.written ++ rest ∧
        comment.span = Span.around before comment.written) ∧
      (Token.endOf .origin earlier).byte ≤ comment.span.start.byte ∧
      comment.span.stop.byte ≤ token.span.start.byte
  /-- The comments stand in the order of the text, and none is carried twice. -/
  once : (tokens.flatMap (·.comments)).Pairwise fun first second =>
    first.span.start.byte < second.span.start.byte
  /-- What stands between a token and the one before it is blanks and the comments that the token
  carries; and a token other than template text tells whether a line break is among it. -/
  between : ∀ earlier token later, tokens = earlier ++ token :: later →
    ∃ before gap rest, normalize source = before ++ gap ++ rest ∧
      Span.around before gap = ⟨Token.endOf .origin earlier, token.span.start⟩ ∧
      Gap ((Lexer.ofSource template source).behind earlier.length).mode before gap
        token.comments ∧
      ((∀ text, token.kind ≠ .html text) → (token.afterBreak = true ↔ '\n' ∈ gap))

/-- The spans of the first token stand before those of the others. -/
theorem Token.spans_cons (token : Token) (tokens : List Token) :
    Token.spans (token :: tokens) = Token.spans [token] ++ Token.spans tokens := by
  simp [Token.spans]

/-- The spans of the comments are among those of the tokens that carry them. -/
theorem Token.sublist_spans (tokens : List Token) :
    ((tokens.flatMap (·.comments)).map (·.span)).Sublist (Token.spans tokens) := by
  induction tokens with
  | nil => simp [Token.spans]
  | cons token tokens ih =>
    rw [Token.spans_cons, List.flatMap_cons, List.map_append]
    refine List.Sublist.append ?_ ih
    simp [Token.spans]

/-! ## Characters and spans of one text -/

/-- The character behind a beginning of the text is the one that stands at its end. -/
theorem Text.Span.covers_around (before piece : List Char) (c : Char) (rest : List Char) :
    (Span.around before (piece ++ c :: rest)).Covers
      (Position.origin.after (before ++ piece)) := by
  refine ⟨byte_after_le _ _, ?_⟩
  have later := byte_after_lt (before ++ piece) (List.cons_ne_nil c rest)
  simpa [Span.around, Span.Covers] using later

/-- Of two beginnings of a text, the one with fewer bytes is a beginning of the other. -/
theorem prefix_of_byte_le {text first second : List Char} (one : first <+: text)
    (other : second <+: text)
    (le : (Position.origin.after first).byte ≤ (Position.origin.after second).byte) :
    first <+: second := by
  rcases List.prefix_or_prefix_of_prefix one other with before | ⟨more, rfl⟩
  · exact before
  · cases more with
    | nil => simp
    | cons c more =>
      have := byte_after_lt second (List.cons_ne_nil c more)
      omega

/-- A character that stands between two places of the text is one of the characters between
them. -/
theorem char_between {before rest first piece last : List Char} {c : Char}
    (same : first ++ piece ++ last = before ++ c :: rest)
    (low : (Position.origin.after first).byte ≤ (Position.origin.after before).byte)
    (high : (Position.origin.after before).byte < (Position.origin.after (first ++ piece)).byte) :
    ∃ lead tail, piece = lead ++ c :: tail ∧ before = first ++ lead := by
  have here : before <+: before ++ c :: rest := List.prefix_append _ _
  have whole : first ++ piece <+: before ++ c :: rest := ⟨last, same⟩
  obtain ⟨lead, rfl⟩ :=
    prefix_of_byte_le ((List.prefix_append first piece).trans whole) here low
  obtain ⟨more, eq⟩ := prefix_of_byte_le here whole high.le
  rw [List.append_assoc, List.append_cancel_left_eq] at eq
  cases more with
  | nil =>
    rw [List.append_nil] at eq
    subst eq
    exact absurd high (Nat.lt_irrefl _)
  | cons d tail =>
    have next : d = c ∧ tail ++ last = rest := by
      rw [← eq] at same
      simpa using same
    exact ⟨lead, tail, by rw [← eq, next.1], rfl⟩

/-! ## Gaps -/

namespace Gap

variable {mode : Mode} {before gap : List Char} {found : List Comment}

/-- A character of a gap is inside a comment of it, or it is a blank of code. -/
theorem char (between : Gap mode before gap found) {lead tail : List Char} {c : Char}
    (here : gap = lead ++ c :: tail) :
    (∃ comment ∈ found, comment.span.Covers (Position.origin.after (before ++ lead))) ∨
      (mode ≠ .text ∧ isBlank c = true) := by
  induction between generalizing lead with
  | nil => simp at here
  | @blank before rest d found code blank more ih =>
    cases lead with
    | nil =>
      obtain rfl : d = c := by simpa using congrArg List.head? here
      exact .inr ⟨code, blank⟩
    | cons e lead =>
      obtain ⟨rfl, there⟩ := List.cons_eq_cons.1 here
      simpa using ih there
  | @comment before rest comment found placed more ih =>
    obtain ⟨lead, rfl, there⟩ | ⟨inner, written, there⟩ := List.append_eq_append_iff.1 here
    · obtain ⟨other, mem, covers⟩ | blank := ih there
      · exact .inl ⟨other, by simp [mem], by simpa using covers⟩
      · exact .inr blank
    · cases inner with
      | nil =>
        have here : rest = [] ++ c :: tail := there.symm
        obtain ⟨other, mem, covers⟩ | blank := ih here
        · refine .inl ⟨other, by simp [mem], ?_⟩
          rw [List.append_nil] at written
          simpa [written] using covers
        · exact .inr blank
      | cons d inner =>
        obtain ⟨rfl, -⟩ := List.cons_eq_cons.1 there
        refine .inl ⟨comment, by simp, ?_⟩
        rw [placed, written]
        exact Span.covers_around _ _ _ _

/-- A comment of a gap is written there. -/
theorem written (between : Gap mode before gap found) {comment : Comment}
    (mem : comment ∈ found) :
    ∃ lead tail, gap = lead ++ comment.written ++ tail ∧
      comment.span = Span.around (before ++ lead) comment.written := by
  induction between with
  | nil => cases mem
  | @blank before rest c found code blank more ih =>
    obtain ⟨lead, tail, rfl, span⟩ := ih mem
    exact ⟨c :: lead, tail, by simp, by simpa using span⟩
  | @comment before rest comment found placed more ih =>
    rcases List.mem_cons.1 mem with rfl | mem
    · exact ⟨[], rest, by simp, by simpa using placed⟩
    · obtain ⟨lead, tail, rfl, span⟩ := ih mem
      exact ⟨comment.written ++ lead, tail, by simp, by simpa using span⟩

/-- The comments of a gap stand in it in their order, one behind the end of the other. -/
theorem apart (between : Gap mode before gap found) :
    (found.Pairwise fun first second => first.span.stop.byte ≤ second.span.start.byte) ∧
      ∀ comment ∈ found, (Position.origin.after before).byte ≤ comment.span.start.byte ∧
        comment.span.stop.byte ≤ (Position.origin.after (before ++ gap)).byte := by
  constructor
  · induction between with
    | nil => exact .nil
    | blank code blank more ih => exact ih
    | @comment before rest comment found placed more ih =>
      refine .cons ?_ ih
      intro other mem
      obtain ⟨lead, tail, -, span⟩ := more.written mem
      rw [placed, span]
      exact byte_after_le _ _
  · intro comment mem
    obtain ⟨lead, tail, rfl, span⟩ := between.written mem
    rw [span]
    refine ⟨byte_after_le _ _, ?_⟩
    have := byte_after_le (before ++ lead ++ comment.written) tail
    simpa [Span.around] using this

end Gap

/-! ## One move -/

namespace Takes

variable {lexer behind : Lexer} {before gap piece : List Char} {token : Token}

/-- A comment of the move is written in the text, between its beginning and the token. -/
theorem comment (takes : Takes lexer before gap piece token behind) {comment : Comment}
    (mem : comment ∈ token.comments) :
    (∃ start rest, before ++ lexer.rest = start ++ comment.written ++ rest ∧
      comment.span = Span.around start comment.written) ∧
    (Position.origin.after before).byte ≤ comment.span.start.byte ∧
      comment.span.stop.byte ≤ token.span.start.byte := by
  have bounds := takes.between.apart.2 comment mem
  obtain ⟨lead, tail, eq, span⟩ := takes.between.written mem
  refine ⟨⟨before ++ lead, tail ++ piece ++ behind.rest, ?_, span⟩, bounds.1, ?_⟩
  · rw [takes.rest, eq]
    simp
  · rw [takes.span]
    exact bounds.2

/-- The spans of the move lie in the text, behind its beginning and before its end. -/
theorem spans (takes : Takes lexer before gap piece token behind) {span : Span}
    (mem : span ∈ Token.spans [token]) :
    span.LiesIn (before ++ lexer.rest) ∧
      (Position.origin.after before).byte ≤ span.start.byte ∧
      span.stop.byte ≤ (Position.origin.after (before ++ gap ++ piece)).byte := by
  have own : token.span.stop = Position.origin.after (before ++ gap ++ piece) := by
    rw [takes.span]
    rfl
  simp only [Token.spans, List.flatMap_cons, List.flatMap_nil, List.append_nil, List.mem_append,
    List.mem_singleton, List.mem_map] at mem
  rcases mem with ⟨comment, mem, rfl⟩ | rfl
  · obtain ⟨⟨start, rest, eq, span⟩, low, high⟩ := takes.comment mem
    have ordered : token.span.start.byte ≤ token.span.stop.byte := by
      rw [takes.span]
      exact byte_after_le _ _
    refine ⟨⟨start, comment.written, rest, eq, span⟩, low, ?_⟩
    rw [← own]
    omega
  · refine ⟨⟨before ++ gap, piece, behind.rest, ?_, takes.span⟩, ?_, ?_⟩
    · rw [takes.rest]
      simp
    · rw [takes.span]
      exact byte_after_le _ _
    · rw [own]

/-- The spans of the move stand in order and apart. -/
theorem apart (takes : Takes lexer before gap piece token behind) :
    (Token.spans [token]).Pairwise fun first second => first.stop.byte ≤ second.start.byte := by
  simp only [Token.spans, List.flatMap_cons, List.flatMap_nil, List.append_nil]
  rw [List.pairwise_append]
  refine ⟨?_, List.pairwise_singleton _ _, ?_⟩
  · exact List.pairwise_map.2 takes.between.apart.1
  · intro span mem own same
    obtain ⟨comment, carried, rfl⟩ := List.mem_map.1 mem
    rw [List.mem_singleton.1 same]
    exact (takes.comment carried).2.2

/-- A character of the move is inside one of its spans, or it is a blank of code. -/
theorem char (takes : Takes lexer before gap piece token behind) {lead tail : List Char} {c : Char}
    (here : gap ++ piece = lead ++ c :: tail) :
    (∃ span ∈ Token.spans [token], span.Covers (Position.origin.after (before ++ lead))) ∨
      isBlank c = true := by
  have mem_comment {comment : Comment} (mem : comment ∈ token.comments) :
      comment.span ∈ Token.spans [token] := by
    simp only [Token.spans, List.flatMap_cons, List.mem_append, List.mem_map]
    exact .inl (.inl ⟨comment, mem, rfl⟩)
  have mem_token : token.span ∈ Token.spans [token] := by simp [Token.spans]
  obtain ⟨lead, rfl, there⟩ | ⟨inner, rfl, there⟩ := List.append_eq_append_iff.1 here
  · refine .inl ⟨token.span, mem_token, ?_⟩
    rw [takes.span, there, ← List.append_assoc]
    exact Span.covers_around _ _ _ _
  · cases inner with
    | nil =>
      have first := Span.covers_around (before ++ lead) [] c tail
      refine .inl ⟨token.span, mem_token, ?_⟩
      rw [takes.span, show piece = c :: tail from there.symm]
      simpa using first
    | cons d inner =>
      obtain ⟨rfl, -⟩ := List.cons_eq_cons.1 there
      obtain ⟨comment, mem, covers⟩ | ⟨-, blank⟩ := takes.between.char rfl
      · exact .inl ⟨comment.span, mem_comment mem, covers⟩
      · exact .inr blank

end Takes

/-! ## The run of the lexer -/

/-- The lexer, behind the given text, gives the tokens, up to the end of the text. -/
inductive Tiling : List Char → Lexer → List Token → Prop where
  | last {before gap : List Char} {lexer behind : Lexer} {token : Token}
      (read : lexer.next = (.ok token, behind))
      (takes : Takes lexer before gap [] token behind) : Tiling before lexer [token]
  | more {before gap piece : List Char} {lexer behind : Lexer} {token : Token}
      {tokens : List Token} (read : lexer.next = (.ok token, behind))
      (takes : Takes lexer before gap piece token behind) (going : token.isEof = false)
      (later : Tiling (before ++ gap ++ piece) behind tokens) :
      Tiling before lexer (token :: tokens)

variable {before : List Char} {lexer : Lexer} {tokens : List Token}

/-- Tokens that are read to the end of the text are such a run: by induction on their bound,
which the length of the rest stays below since every token but the last takes a character. -/
theorem Lexer.tiling_tokensWithin {n : Nat} (bound : lexer.rest.length < n)
    (place : lexer.place = Position.origin.after before) (none : lexer.comments = [])
    (unbroken : lexer.sawBreak = false) (read : lexer.tokensWithin n = .ok tokens) :
    Tiling before lexer tokens := by
  induction n generalizing before lexer tokens with
  | zero => omega
  | succ n ih =>
    unfold tokensWithin at read
    split at read
    · cases read
    · next token behind eq =>
      obtain ⟨gap, piece, takes⟩ := takes_next place none unbroken eq
      split_ifs at read with eof
      · cases read
        obtain rfl := takes.empty.2 eof
        exact .last eq takes
      · cases later : tokensWithin n behind with
        | error e =>
          rw [later] at read
          cases read
        | ok others =>
          rw [later] at read
          cases read
          have going : token.isEof = false := by simpa using eof
          have filled : piece ≠ [] := fun empty => eof (takes.empty.1 empty)
          have shorter : behind.rest.length < n := by
            have lengths := congrArg List.length takes.rest
            have := List.length_pos_iff.2 filled
            simp only [List.length_append] at lengths
            omega
          exact .more eq takes going (ih shorter takes.place takes.none takes.unbroken later)

namespace Tiling

/-- The first move of a run, and the run behind it. -/
theorem first {token : Token} (tiling : Tiling before lexer (token :: tokens)) :
    ∃ gap piece behind, lexer.next = (.ok token, behind) ∧
      Takes lexer before gap piece token behind ∧
      (tokens ≠ [] → Tiling (before ++ gap ++ piece) behind tokens) := by
  cases tiling with
  | last read takes => exact ⟨_, _, _, read, takes, by simp⟩
  | more read takes going later => exact ⟨_, _, _, read, takes, fun _ => later⟩

/-- The move at one of the tokens. -/
theorem takes {earlier later : List Token} {token : Token}
    (tiling : Tiling before lexer (earlier ++ token :: later)) {place : Position}
    (here : place = Position.origin.after before) :
    ∃ start gap piece behind,
      Takes (lexer.behind earlier.length) start gap piece token behind ∧
        before ++ lexer.rest = start ++ (lexer.behind earlier.length).rest ∧
        Token.endOf place earlier = Position.origin.after start := by
  induction earlier generalizing before lexer place with
  | nil =>
    obtain ⟨gap, piece, behind, -, takes, -⟩ := tiling.first
    exact ⟨before, gap, piece, behind, takes, rfl, here⟩
  | cons first earlier ih =>
    obtain ⟨gap, piece, behind, read, takes, more⟩ := tiling.first
    have stop : first.span.stop = Position.origin.after (before ++ gap ++ piece) := by
      rw [takes.span]
      rfl
    obtain ⟨start, gap', piece', behind', takes', whole, ended⟩ := ih (more (by simp)) stop
    have next : lexer.next.2 = behind := by rw [read]
    refine ⟨start, gap', piece', behind', ?_, ?_, ended⟩
    · simpa [Lexer.behind, next] using takes'
    · rw [takes.rest, List.length_cons, Lexer.behind, next, ← whole]
      simp

/-- The spans of a run lie in the text, behind its beginning. -/
theorem within (tiling : Tiling before lexer tokens) :
    ∀ span ∈ Token.spans tokens, span.LiesIn (before ++ lexer.rest) ∧
      (Position.origin.after before).byte ≤ span.start.byte := by
  induction tiling with
  | last read takes =>
    intro span mem
    exact ⟨(takes.spans mem).1, (takes.spans mem).2.1⟩
  | @more before gap piece lexer behind token tokens read takes going later ih =>
    intro span mem
    rw [Token.spans_cons] at mem
    rcases List.mem_append.1 mem with mem | mem
    · exact ⟨(takes.spans mem).1, (takes.spans mem).2.1⟩
    · obtain ⟨lies, low⟩ := ih span mem
      refine ⟨?_, ?_⟩
      · rw [takes.rest]
        simpa using lies
      · have := byte_after_le before (gap ++ piece)
        simp only [List.append_assoc] at low this
        omega

/-- The spans of a run stand in order and apart. -/
theorem apart (tiling : Tiling before lexer tokens) :
    (Token.spans tokens).Pairwise fun first second => first.stop.byte ≤ second.start.byte := by
  induction tiling with
  | last read takes => exact takes.apart
  | @more before gap piece lexer behind token tokens read takes going later ih =>
    rw [Token.spans_cons, List.pairwise_append]
    refine ⟨takes.apart, ih, ?_⟩
    intro span mem other later_mem
    have stop := (takes.spans mem).2.2
    have start := (later.within other later_mem).2
    omega

/-- The run ends with the end of the text. -/
theorem ended (tiling : Tiling before lexer tokens) :
    ∃ earlier last, tokens = earlier ++ [last] ∧ last.isEof = true ∧
      last.span = Span.point (Position.origin.after (before ++ lexer.rest)) ∧
      ∀ token ∈ earlier, token.isEof = false := by
  induction tiling with
  | @last before gap lexer behind token read takes =>
    have eof := takes.empty.1 rfl
    refine ⟨[], token, rfl, eof, ?_, by simp⟩
    rw [takes.span, takes.rest, takes.ended eof]
    simp [Span.around, Span.point]
  | @more before gap piece lexer behind token tokens read takes going later ih =>
    obtain ⟨earlier, last, rfl, eof, span, others⟩ := ih
    refine ⟨token :: earlier, last, rfl, eof, ?_, ?_⟩
    · rw [span, takes.rest]
      simp
    · intro other mem
      rcases List.mem_cons.1 mem with rfl | mem
      · exact going
      · exact others other mem

/-- The character at a place ahead of the lexer is inside a span, or it is a blank. -/
theorem char (tiling : Tiling before lexer tokens) {lead tail : List Char} {c : Char}
    (here : lexer.rest = lead ++ c :: tail) :
    (∃ span ∈ Token.spans tokens, span.Covers (Position.origin.after (before ++ lead))) ∨
      isBlank c = true := by
  induction tiling generalizing lead with
  | @last before gap lexer behind token read takes =>
    rw [takes.rest, takes.ended (takes.empty.1 rfl), List.append_nil] at here
    exact takes.char here
  | @more before gap piece lexer behind token tokens read takes going later ih =>
    rw [takes.rest] at here
    rw [Token.spans_cons]
    obtain ⟨lead, rfl, there⟩ | ⟨inner, eq, there⟩ := List.append_eq_append_iff.1 here
    · obtain ⟨span, mem, covers⟩ | blank := ih there
      · exact .inl ⟨span, List.mem_append_right _ mem, by simpa using covers⟩
      · exact .inr blank
    · cases inner with
      | nil =>
        rw [List.append_nil] at eq
        have behind_here : behind.rest = [] ++ c :: tail := there.symm
        obtain ⟨span, mem, covers⟩ | blank := ih behind_here
        · refine .inl ⟨span, List.mem_append_right _ mem, ?_⟩
          rw [← eq]
          simpa using covers
        · exact .inr blank
      | cons d inner =>
        obtain ⟨rfl, -⟩ := List.cons_eq_cons.1 there
        obtain ⟨span, mem, covers⟩ | blank := takes.char eq
        · exact .inl ⟨span, List.mem_append_left _ mem, covers⟩
        · exact .inr blank

/-- The comments of a run stand in the order of the text, each behind the one before. -/
theorem once (tiling : Tiling before lexer tokens) :
    (tokens.flatMap (·.comments)).Pairwise fun first second =>
      first.span.start.byte < second.span.start.byte := by
  have filled : ∀ comment ∈ tokens.flatMap (·.comments),
      comment.span.start.byte < comment.span.stop.byte := by
    intro comment mem
    obtain ⟨token, among, carried⟩ := List.mem_flatMap.1 mem
    obtain ⟨earlier, later, rfl⟩ := List.append_of_mem among
    obtain ⟨start, gap, piece, behind, takes, -, -⟩ := tiling.takes rfl
    obtain ⟨⟨start, rest, -, span⟩, -⟩ := takes.comment carried
    rw [span]
    exact byte_after_lt _ comment.written_ne_nil
  have apart := List.pairwise_map.1 (tiling.apart.sublist (Token.sublist_spans tokens))
  refine apart.imp_of_mem fun {first second} mem _ ordered => ?_
  exact lt_of_lt_of_le (filled first mem) ordered

end Tiling

/-- The tokens that are read off a source tile it: their spans and those of the comments they
carry lie in the normalized text, stand in order and apart, and leave out only blanks between
the tokens of code; the last one is the end of the text; every comment is carried once, by the
first token behind it; and a token tells whether a line break stands before it. -/
theorem tiles_of_tokenize (template : Bool) (source : List Char) {tokens : List Token}
    (read : tokenize template source = .ok tokens) : Tiles template source tokens := by
  have tiling : Tiling [] (Lexer.ofSource template source) tokens :=
    Lexer.tiling_tokensWithin (Nat.lt_succ_self _) rfl rfl rfl read
  have origin : Position.origin = Position.origin.after [] := rfl
  constructor
  · intro span mem
    exact (tiling.within span mem).1
  · exact tiling.apart
  · intro before c rest here uncovered
    obtain ⟨span, mem, covers⟩ | blank := tiling.char here
    · exact absurd covers (uncovered span mem)
    · exact blank
  · intro earlier token later split text before c rest here low high
    subst split
    obtain ⟨start, gap, piece, behind, takes, whole, ended⟩ := tiling.takes origin
    have whole : normalize source = start ++ gap ++ (piece ++ behind.rest) :=
      whole.trans (by rw [takes.rest]; simp)
    rw [ended] at low
    rw [takes.span] at high
    obtain ⟨lead, tail, rfl, rfl⟩ := char_between (whole.symm.trans here) low high
    obtain covered | ⟨code, -⟩ := takes.between.char rfl
    · exact covered
    · exact absurd text code
  · exact tiling.ended
  · intro earlier token later split comment mem
    subst split
    obtain ⟨start, gap, piece, behind, takes, whole, ended⟩ := tiling.takes origin
    have whole : normalize source = start ++ (Lexer.behind earlier.length _).rest := whole
    rw [ended, whole]
    exact takes.comment mem
  · exact tiling.once
  · intro earlier token later split
    subst split
    obtain ⟨start, gap, piece, behind, takes, whole, ended⟩ := tiling.takes origin
    refine ⟨start, gap, piece ++ behind.rest, ?_, ?_, takes.between, fun code => ?_⟩
    · exact whole.trans (by rw [takes.rest]; simp)
    · rw [ended, takes.span]
      rfl
    · rw [takes.afterBreak code]
      simp

/-- A comment in the text, one in an echo and a line break before an operator. -/
theorem tiles_commented :
    ∃ tokens, tokenize true "a\x7b\x7b! b \x7d\x7d$\x7b c\n+ /* d */ e \x7d".toList = .ok tokens ∧
      tokens.map (·.comments.length) = [0, 1, 0, 0, 1, 0, 0] ∧
      tokens.map (·.afterBreak) = [false, false, false, true, false, false, false] ∧
      Tiles true "a\x7b\x7b! b \x7d\x7d$\x7b c\n+ /* d */ e \x7d".toList tokens := by
  have shape : (tokenize true "a\x7b\x7b! b \x7d\x7d$\x7b c\n+ /* d */ e \x7d".toList).toOption.map
      (fun tokens => (tokens.map (·.comments.length), tokens.map (·.afterBreak)))
      = some ([0, 1, 0, 0, 1, 0, 0], [false, false, false, true, false, false, false]) := by
    decide +kernel
  cases read : tokenize true "a\x7b\x7b! b \x7d\x7d$\x7b c\n+ /* d */ e \x7d".toList with
  | error e =>
    rw [read] at shape
    cases shape
  | ok tokens =>
    rw [read] at shape
    have counts := Prod.mk.inj (Option.some.inj shape)
    exact ⟨tokens, rfl, counts.1, counts.2, tiles_of_tokenize true _ read⟩

end Stencil
