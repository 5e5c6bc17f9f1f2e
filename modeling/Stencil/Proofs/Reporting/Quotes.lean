import Stencil.Proofs.Parsing.ErrorPlaces
import Stencil.Proofs.Reporting.Colours
/-!
# The line that a report quotes

An error is reported at a place of the normalized text, but the line that its report quotes is
looked up in the source, which is cut at line feeds only. As long as the lines of the source end in
line feeds, with or without carriage returns before them, the two have the same lines
(`lines_of_normalize`). The line of an error is what stands around its place up to the line breaks
on both sides (`getElem?_splitAtBreaks`), and the carets below it are as many as the span of the
error has characters there (`underline_around`).
-/

set_option autoImplicit false

namespace Stencil

open Stencil.Error (ParseError)

namespace Text

/-! ## Lines of the text and of the source -/

variable {c : Char} {n : Nat} {cs rest line : List Char}

theorem splitAtBreaks_ne_nil (cs : List Char) : splitAtBreaks cs ≠ [] := by
  cases cs with
  | nil => simp [splitAtBreaks]
  | cons c rest =>
    unfold splitAtBreaks
    split
    · simp
    · split
      · simp
      · simp

theorem splitAtBreaks_newline (rest : List Char) :
    splitAtBreaks ('\n' :: rest) = [] :: splitAtBreaks rest := rfl

/-- A character that ends no line stands at the beginning of the first line. -/
theorem splitAtBreaks_cons (own : c ≠ '\n') {first : List Char} {others : List (List Char)}
    (cut : splitAtBreaks rest = first :: others) :
    splitAtBreaks (c :: rest) = (c :: first) :: others := by
  rw [splitAtBreaks, if_neg own, cut]

/-- The lines of a text as they are displayed, the last one also if it is empty. -/
def displayed : List (List Char) → List (List Char)
  | [] => []
  | [last] => [last]
  | line :: rest => dropReturn line :: displayed rest

theorem displayed_cons {others : List (List Char)} (some_ : others ≠ []) :
    displayed (line :: others) = dropReturn line :: displayed others := by
  cases others with
  | nil => exact absurd rfl some_
  | cons => rfl

/-- Only an empty last line is not among the lines of a source. -/
theorem lines_of_displayed {pieces : List (List Char)} (there : (displayed pieces)[n]? = some line)
    (filled : line ≠ []) : (lines.go pieces)[n]? = some line := by
  fun_induction displayed pieces generalizing n with
  | case1 => exact there
  | case2 last =>
    cases n with
    | zero =>
      obtain rfl : last = line := Option.some.inj there
      simp [lines.go, filled]
    | succ n => cases there
  | case3 first rest several ih =>
    have go : lines.go (first :: rest) = dropReturn first :: lines.go rest := by
      cases rest with
      | nil => exact absurd rfl several
      | cons => rfl
    rw [go]
    cases n with
    | zero => exact there
    | succ n => exact ih there

/-- Before the end of the line with the given number, and there, lines end in line feeds only, with
or without carriage returns before them. -/
def PlainThrough (n : Nat) (source : List Char) : Prop :=
  ∀ before c behind, source = before ++ c :: behind → isForeignBreak c = true →
    (unifyBreaks before).count '\n' ≤ n → c = '\r' ∧ behind.head? = some '\n'

theorem plainThrough_iff {source : List Char} :
    PlainThrough n source ↔ ∀ i, (inside : i < source.length) → isForeignBreak source[i] = true →
      (unifyBreaks (source.take i)).count '\n' ≤ n →
        source[i] = '\r' ∧ (source.drop (i + 1)).head? = some '\n' := by
  constructor
  · intro plain i inside
    exact plain _ _ _ (by rw [List.cons_getElem_drop_succ, List.take_append_drop])
  · rintro each before c behind rfl
    have here := each before.length (by simp)
    simpa using here

instance {source : List Char} : Decidable (PlainThrough n source) :=
  decidable_of_iff _ plainThrough_iff.symm

/-- Behind a beginning that is unified by itself. -/
theorem PlainThrough.behind {m : Nat} (lead lead' : List Char)
    (plain : PlainThrough m (lead ++ rest))
    (unified : ∀ before, unifyBreaks (lead ++ before) = lead' ++ unifyBreaks before)
    (breaks : m = lead'.count '\n' + n) : PlainThrough n rest := by
  intro before c behind here foreign within
  refine plain (lead ++ before) c behind (by rw [here, List.append_assoc]) foreign ?_
  rw [unified, List.count_append, breaks]
  omega

/-- Behind a character that ends no line. -/
theorem PlainThrough.tail (plain : PlainThrough n (c :: rest)) (own : isForeignBreak c = false)
    (inside : c ≠ '\n') : PlainThrough n rest := by
  refine plain.behind [c] [c] (Lexing.unifyBreaks_cons own) ?_
  rw [List.count_singleton, beq_false_of_ne inside]
  simp

/-- A line that goes on behind a character that ends no line. -/
theorem getElem?_displayed_cons (own : c ≠ '\n') (rest : List Char) :
    (displayed (splitAtBreaks (c :: rest)))[n + 1]? = (displayed (splitAtBreaks rest))[n + 1]? := by
  obtain ⟨first, others, cut⟩ := List.exists_cons_of_ne_nil (splitAtBreaks_ne_nil rest)
  rw [splitAtBreaks_cons own cut, cut]
  cases others <;> rfl

/-- The first line of a text and that of the source, in front of which a character is put that ends
no line. -/
theorem getElem?_displayed_first (own : c ≠ '\n') (other : c ≠ '\r') {text : List Char}
    (same : (splitAtBreaks text)[0]? = (displayed (splitAtBreaks rest))[0]?) :
    (splitAtBreaks (c :: text))[0]? = (displayed (splitAtBreaks (c :: rest)))[0]? := by
  obtain ⟨first, others, cut⟩ := List.exists_cons_of_ne_nil (splitAtBreaks_ne_nil text)
  obtain ⟨first', others', cut'⟩ := List.exists_cons_of_ne_nil (splitAtBreaks_ne_nil rest)
  rw [splitAtBreaks_cons own cut, splitAtBreaks_cons own cut']
  rw [cut, cut'] at same
  cases others' with
  | nil =>
    obtain rfl : first = first' := Option.some.inj same
    rfl
  | cons =>
    obtain rfl : first = dropReturn first' := Option.some.inj same
    have kept : dropReturn (c :: first') = c :: dropReturn first' := by
      cases first' with
      | nil => simp [dropReturn, other]
      | cons d more =>
        simp only [dropReturn, List.getLast?_cons_cons]
        split
        · rfl
        · rfl
    exact congrArg some kept.symm

/-- A line of the unified text is the line of the source as it is displayed, if it and those before
it end plainly: by induction on the source. -/
theorem getElem?_unifyBreaks (plain : PlainThrough n cs) :
    (splitAtBreaks (unifyBreaks cs))[n]? = (displayed (splitAtBreaks cs))[n]? := by
  fun_induction unifyBreaks cs generalizing n with
  | case1 => rfl
  | case2 rest ih =>
    have cut : splitAtBreaks ('\r' :: '\n' :: rest) = ['\r'] :: splitAtBreaks rest := rfl
    rw [cut, displayed_cons (splitAtBreaks_ne_nil rest), splitAtBreaks_newline]
    cases n with
    | zero => rfl
    | succ n =>
      exact ih (plain.behind ['\r', '\n'] ['\n'] (fun _ => rfl)
        (Nat.add_comm n 1))
  | case3 c rest single ih =>
    have own : isForeignBreak c = false := by
      rw [← Bool.not_eq_true]
      intro foreign
      obtain ⟨rfl, next⟩ := plain [] c rest rfl foreign (Nat.zero_le n)
      cases rest with
      | nil => cases next
      | cons d rest =>
        obtain rfl : d = '\n' := Option.some.inj next
        exact single rest rfl rfl
    rw [own]
    by_cases newline : c = '\n'
    · subst newline
      rw [splitAtBreaks_newline, displayed_cons (splitAtBreaks_ne_nil rest)]
      cases n with
      | zero => rfl
      | succ n =>
        exact ih (plain.behind ['\n'] ['\n'] (fun _ => rfl)
          (Nat.add_comm n 1))
    · have behind := ih (plain.tail own newline)
      cases n with
      | zero =>
        have other : c ≠ '\r' := by
          rintro rfl
          cases own
        exact getElem?_displayed_first newline other behind
      | succ n =>
        obtain ⟨first, others, cut⟩ :=
          List.exists_cons_of_ne_nil (splitAtBreaks_ne_nil (unifyBreaks rest))
        rw [cut] at behind
        rw [getElem?_displayed_cons newline, ← behind]
        show (splitAtBreaks (c :: unifyBreaks rest))[n + 1]? = _
        rw [splitAtBreaks_cons newline cut]
        rfl

/-- A line of the normalized text that is not empty is that line of the source, if it and those
before it end plainly, and a byte order mark does not stand in it. -/
theorem lines_of_normalize {source : List Char} (plain : PlainThrough n source)
    (unmarked : n = 0 → source.head? ≠ some '\ufeff')
    (there : (splitAtBreaks (normalize source))[n]? = some line) (filled : line ≠ []) :
    (lines source)[n]? = some line := by
  refine lines_of_displayed ?_ filled
  unfold normalize at there
  split at there
  · next rest =>
    cases n with
    | zero => exact absurd rfl (unmarked rfl)
    | succ n =>
      have behind := plain.tail (by decide) (by decide)
      rw [getElem?_displayed_cons (by decide), ← getElem?_unifyBreaks behind, there]
  · rw [← getElem?_unifyBreaks plain, there]

/-! ## The line in which a place stands -/

/-- What stands on the first line of a text. -/
def firstLine (cs : List Char) : List Char := cs.takeWhile (· ≠ '\n')

/-- What stands on the last line of a text. -/
def lastLine (cs : List Char) : List Char := (firstLine cs.reverse).reverse

theorem firstLine_append {cs : List Char} (unbroken : '\n' ∉ cs) (behind : List Char) :
    firstLine (cs ++ behind) = cs ++ firstLine behind := by
  refine List.takeWhile_append_of_pos fun c listed => ?_
  rw [decide_eq_true_eq]
  rintro rfl
  exact unbroken listed

theorem firstLine_of_unbroken {cs : List Char} (unbroken : '\n' ∉ cs) : firstLine cs = cs := by
  have whole := firstLine_append unbroken []
  rwa [List.append_nil, show firstLine [] = [] from rfl, List.append_nil] at whole

/-- What stands behind a line break is not on the first line. -/
theorem firstLine_of_broken {cs : List Char} (broken : '\n' ∈ cs) (behind : List Char) :
    firstLine (cs ++ behind) = firstLine cs := by
  obtain ⟨first, others, rfl, unbroken⟩ := List.eq_append_cons_of_mem broken
  rw [List.append_assoc, firstLine_append unbroken, firstLine_append unbroken]
  rfl

theorem lastLine_append {cs : List Char} (unbroken : '\n' ∉ cs) (before : List Char) :
    lastLine (before ++ cs) = lastLine before ++ cs := by
  unfold lastLine
  rw [List.reverse_append, firstLine_append (fun listed => unbroken (List.mem_reverse.1 listed)),
    List.reverse_append, List.reverse_reverse]

theorem lastLine_of_unbroken {cs : List Char} (unbroken : '\n' ∉ cs) : lastLine cs = cs :=
  lastLine_append unbroken []

/-- What stands before a line break is not on the last line. -/
theorem lastLine_cons_of_broken (broken : '\n' ∈ cs) (c : Char) :
    lastLine (c :: cs) = lastLine cs := by
  unfold lastLine
  rw [List.reverse_cons, firstLine_of_broken (List.mem_reverse.2 broken)]

theorem lastLine_newline (cs : List Char) : lastLine ('\n' :: cs) = lastLine cs := by
  by_cases broken : '\n' ∈ cs
  · exact lastLine_cons_of_broken broken _
  · rw [lastLine_of_unbroken broken]
    exact lastLine_append broken ['\n']

theorem getElem?_splitAtBreaks_zero (rest : List Char) :
    (splitAtBreaks rest)[0]? = some (firstLine rest) := by
  induction rest with
  | nil => rfl
  | cons c rest ih =>
    by_cases newline : c = '\n'
    · subst newline
      rfl
    · obtain ⟨first, others, cut⟩ := List.exists_cons_of_ne_nil (splitAtBreaks_ne_nil rest)
      rw [cut] at ih
      obtain rfl : first = firstLine rest := Option.some.inj ih
      rw [splitAtBreaks_cons newline cut]
      simp [firstLine, newline]

/-- The line in which a place of a text stands goes from behind the last line break before it to
the first one behind it: by induction on the text before it. -/
theorem getElem?_splitAtBreaks (before behind : List Char) :
    (splitAtBreaks (before ++ behind))[before.count '\n']?
      = some (lastLine before ++ firstLine behind) := by
  induction before with
  | nil => exact getElem?_splitAtBreaks_zero behind
  | cons c before ih =>
    by_cases newline : c = '\n'
    · subst newline
      rw [List.count_cons_self, lastLine_newline]
      exact ih
    · obtain ⟨first, others, cut⟩ :=
        List.exists_cons_of_ne_nil (splitAtBreaks_ne_nil (before ++ behind))
      rw [cut] at ih
      rw [List.count_cons_of_ne newline, List.cons_append, splitAtBreaks_cons newline cut]
      by_cases broken : '\n' ∈ before
      · obtain ⟨k, count⟩ := Nat.exists_eq_succ_of_ne_zero (List.count_pos_iff.2 broken).ne'
        rw [lastLine_cons_of_broken broken]
        rw [count] at ih ⊢
        exact ih
      · have unbroken : '\n' ∉ c :: before := by simp [Ne.symm newline, broken]
        rw [lastLine_of_unbroken unbroken]
        rw [List.count_eq_zero.2 broken, lastLine_of_unbroken broken] at ih
        rw [List.count_eq_zero.2 broken]
        obtain rfl : first = before ++ firstLine behind := Option.some.inj ih
        rfl

/-- The first line of a text begins with that of each of its beginnings. -/
theorem firstLine_prefix (piece behind : List Char) :
    ∃ tail, firstLine (piece ++ behind) = firstLine piece ++ tail := by
  by_cases broken : '\n' ∈ piece
  · exact ⟨[], by rw [firstLine_of_broken broken, List.append_nil]⟩
  · exact ⟨firstLine behind, by rw [firstLine_append broken, firstLine_of_unbroken broken]⟩

/-- The column of a place counts what stands before it on its line. -/
theorem column_after (before : List Char) :
    (Position.origin.after before).column = (lastLine before).length := by
  rw [(counts_after before).column, lastLine, List.length_reverse]
  rfl

end Text

namespace Error.Report

open Stencil.Text

/-! ## The quotation -/

/-- The row that shows a line under its number. -/
def numberedRow (number : Nat) (line : List Char) : List Char :=
  (margin (marginWidth number) (digits number)).text ++ ' ' :: (line ++ ['\n'])

/-- The row of carets below a line. -/
def caretRow (number blanks carets : Nat) : List Char :=
  (margin (marginWidth number) []).text
    ++ ' ' :: (List.replicate blanks ' ' ++ List.replicate carets '^' ++ ['\n'])

/-- A line of the source is quoted in a numbered row with a row of carets below it. -/
theorem text_quoteLine {source line : List Char} {span : Span} (style : Style)
    (there : (lines source)[span.start.line]? = some line) :
    plainText (quoteLine source span style [] true)
      = (margin (marginWidth (span.start.line + 1)) []).text ++ '\n' ::
        (numberedRow (span.start.line + 1) line
          ++ caretRow (span.start.line + 1) (underline span line).1 (underline span line).2) := by
  unfold quoteLine
  rw [there]
  simp [numberedRow, caretRow]

/-- The carets stand below what the span has on the line at which it starts. -/
theorem underline_around (before piece behind : List Char) :
    underline (Span.around before piece) (lastLine before ++ firstLine (piece ++ behind))
      = ((lastLine before).length, max (firstLine piece).length 1) := by
  have start := counts_after before
  have stop := counts_after (before ++ piece)
  unfold underline Span.around
  dsimp only
  rw [start.line, stop.line, column_after, column_after, List.count_append]
  by_cases broken : '\n' ∈ piece
  · have later := List.count_pos_iff.2 broken
    rw [if_neg (by omega), firstLine_of_broken broken, List.length_append, Nat.add_sub_cancel_left]
  · rw [if_pos (by rw [List.count_eq_zero.2 broken]; rfl), lastLine_append broken,
      firstLine_of_unbroken broken, List.length_append, Nat.add_sub_cancel_left]

/-- What a report says before it quotes the line of its error. -/
def above (e : ParseError) (source : List Char) (file : String) : List Char :=
  plainText (heading false e file ++ if relatedFirst e then related e source else [])

/-- What a report says behind the line of its error. -/
def below (e : ParseError) (source : List Char) : List Char :=
  plainText ((if relatedFirst e then [] else related e source) ++ advice false e ++ [.plain ['\n']])

/-- A report whose source has the line of the error. -/
theorem report_of_line {e : ParseError} {source : String} {line : List Char} (file : String)
    (there : (lines source.toList)[e.span.start.line]? = some line) :
    (e.report source file).toList =
      above e source.toList file ++ (margin (marginWidth e.line) []).text ++ '\n' ::
        (numberedRow e.line line
          ++ caretRow e.line (underline e.span line).1 (underline e.span line).2
          ++ below e source.toList) := by
  have quoted := text_quoteLine .alarm there
  rw [ParseError.report, write, String.toList_ofList, flatMap_written_false]
  simp only [pieces, plainText_append, quoted, above, below, ParseError.line, List.append_assoc,
    List.cons_append]

end Error.Report

open Stencil.Text
open Stencil.Error.Report (above below caretRow margin marginWidth numberedRow)

/-- What the span has on the line at which it starts. -/
def Text.Span.StartsWith (text : List Char) (span : Span) (marked : List Char) : Prop :=
  ∃ before piece behind, text = before ++ piece ++ behind ∧ span = Span.around before piece ∧
    marked = firstLine piece

/-- A report quotes the line at which its error starts, if this is not empty, with a caret below
each character that the error has there, or one caret if it has none: if the lines of the source end
in line feeds as far as that, with or without carriage returns before them, and no byte order mark
stands in the line. -/
theorem Refused.report_quotes_line {source file : String} {e : ParseError} {line : List Char}
    (refused : Refused source e)
    (numbered : (splitAtBreaks (normalize source.toList))[e.span.start.line]? = some line)
    (filled : line ≠ []) (plain : PlainThrough e.span.start.line source.toList)
    (unmarked : e.span.start.line = 0 → source.toList.head? ≠ some '\ufeff') :
    ∃ lead marked tail, line = lead ++ marked ++ tail ∧ lead.length = e.span.start.column ∧
      e.span.StartsWith (normalize source.toList) marked ∧
      (e.report source file).toList =
        above e source.toList file ++ (margin (marginWidth e.line) []).text ++ '\n' ::
          (numberedRow e.line line ++ caretRow e.line lead.length (max marked.length 1)
            ++ below e source.toList) := by
  obtain ⟨before, piece, behind, whole, span⟩ := refused.placed
  have start : e.span.start = Position.origin.after before := congrArg Span.start span
  have here : line = lastLine before ++ firstLine (piece ++ behind) := by
    rw [whole, start, (counts_after before).line, List.append_assoc,
      getElem?_splitAtBreaks] at numbered
    exact (Option.some.inj numbered).symm
  have shown := Error.Report.report_of_line file
    (lines_of_normalize plain unmarked numbered filled)
  have carets : Error.Report.underline e.span line =
      ((lastLine before).length, max (firstLine piece).length 1) := by
    rw [span, here, Error.Report.underline_around]
  obtain ⟨tail, first⟩ := firstLine_prefix piece behind
  refine ⟨lastLine before, firstLine piece, tail, ?_, ?_, ⟨before, piece, behind, whole, span, rfl⟩,
    ?_⟩
  · rw [here, first, List.append_assoc]
  · rw [start, column_after]
  · rw [shown, carets]

/-- A bracket that closes nothing, on the second line of a source with two kinds of line breaks. -/
theorem report_quotes_line_second :
    ∃ e, parseExpression ⟨true, false⟩ "a +\r\n(b ]\n" = .error e ∧
      ∃ lead marked tail, "(b ]".toList = lead ++ marked ++ tail ∧
        lead.length = e.span.start.column ∧
        e.span.StartsWith (normalize "a +\r\n(b ]\n".toList) marked ∧
        (e.report "a +\r\n(b ]\n" "f").toList =
          above e "a +\r\n(b ]\n".toList "f" ++ (margin (marginWidth e.line) []).text ++ '\n' ::
            (numberedRow e.line "(b ]".toList ++ caretRow e.line lead.length (max marked.length 1)
              ++ below e "a +\r\n(b ]\n".toList) := by
  have found : (match parseExpression ⟨true, false⟩ "a +\r\n(b ]\n" with
      | .error e => some e.span.start
      | .ok _ => none) = some ⟨7, 1, 3⟩ := by decide +kernel
  cases read : parseExpression ⟨true, false⟩ "a +\r\n(b ]\n" with
  | ok tree => simp [read] at found
  | error e =>
    have start : e.span.start = ⟨7, 1, 3⟩ := by simpa [read] using found
    refine ⟨e, rfl, Refused.report_quotes_line (.expression read) ?_ ?_ ?_ ?_⟩
    · rw [start]
      decide +kernel
    · decide +kernel
    · rw [start]
      decide +kernel
    · rw [start]
      decide +kernel

/-- Behind a carriage return alone the line of an error is not shown: the source has no second line
where the text has one. -/
theorem lone_return_not_quoted :
    ∃ e, Refused "a\r)" e ∧
      (splitAtBreaks (normalize "a\r)".toList))[e.span.start.line]? = some [')'] ∧
      ¬numberedRow e.line [')'] <:+: (e.report "a\r)" "f").toList := by
  have found : (match parseExpression ⟨true, false⟩ "a\r)" with
      | .error e => decide
        ((splitAtBreaks (normalize "a\r)".toList))[e.span.start.line]? = some [')'] ∧
          ¬numberedRow e.line [')'] <:+: (e.report "a\r)" "f").toList)
      | .ok _ => false) = true := by
    decide +kernel
  cases read : parseExpression ⟨true, false⟩ "a\r)" with
  | ok tree => simp [read] at found
  | error e =>
    simp only [read, decide_eq_true_eq] at found
    exact ⟨e, .expression read, found⟩

end Stencil
