import Stencil.Proofs.Lexing.Breaks
import Stencil.Proofs.Parsing.Statements
/-!
# Reading scripts and expressions

The canonical text of a faithful script is read back as that script, whatever the indentation
(`parseScript_printed`), and that of a faithful expression as that expression
(`parseExpression_printed`).
-/

set_option autoImplicit false

namespace Stencil.Grammar

open Stencil.Lexing
open Stencil.Print
open Stencil.Syntax
open Stencil.Text

/-! ## From a text to its tokens -/

/-- Behind the last word of a text only its end is left. -/
theorem endOfText_streams {lexer : Lexer} {s : Phase} {place : Position}
    (stands : Stands lexer s place []) : Streams lexer [endOfText] := by
  obtain ⟨blanks, rest, -, all, -⟩ := stands.blanks
  have skipped : lexer.next = (settled lexer blanks).readToken :=
    next_of_blanks (stands.mode ▸ stands.code) rest all (by simp)
      (beginsNoComment_of_head (by simp))
  have none_ : (settled lexer blanks).rest = [] := by
    simp [settled, Lexer.mark, Lexer.skip, Lexer.cross, rest]
  rw [Lexer.readToken, none_] at skipped
  exact ⟨_, _, skipped, ⟨rfl, by simp [endOfText], by simp [endOfText]⟩, .inl rfl, trivial⟩

/-- A rule that reads the tokens of a source without failing gives its result. -/
theorem run_shown {α : Type} {template : Bool} {o : Options} {source : List Char}
    {rule : Rules → Parser α} {x : Face} {faces : List Face}
    (streams : Streams (Lexer.ofSource template source) (x :: faces)) {good : α → Prop}
    (reads : ∀ n c, faces.length ≤ n → c.Shows (x :: faces) →
      Ends (rule (.upTo (n + 1))) o c (fun result _ => good result) Never) :
    ∃ result, run template o source rule = .ok result ∧ good result := by
  obtain ⟨token, behind, read, fits, -, others⟩ := streams
  have ends := reads (behind.rest.length + 1) { lexer := behind, token, stop := .origin }
    others.length_le ⟨fits, others⟩
  unfold run Cursor.ofSource
  rw [read]
  unfold Ends at ends
  simp only [bind, Except.bind]
  split at ends
  · rename_i result behind same
    simp only [same]
    exact ⟨result, rfl, ends⟩
  · exact absurd ends id

/-- A text that spells tokens does not begin with a byte order mark. -/
theorem normalize_spelt {s s' : Phase} {faces : List Face} {text : List Char}
    (spelt : Spells s faces text s') : Text.normalize text = unifyBreaks text := by
  refine Text.normalize_unmarked fun marked => ?_
  cases spelt with
  | nil => cases marked
  | blank blank broken rest =>
    obtain rfl := Option.some.inj marked
    exact absurd blank (by decide)
  | word spelt admitted held joined unplaced rest =>
    obtain ⟨c, tail, rfl, -, apart, -⟩ := spelt.begins
    exact apart (Option.some.inj marked)

/-- The phase at the beginning of a script. -/
def scriptStart : Phase :=
  { mode := .script, depth := 0, regexp := true, broke := false, last := none, returns := true }

/-- The tokens that the text of a script spells are read from it. -/
theorem script_streams {s' : Phase} {faces : List Face} {text : List Char}
    (spelt : Spells scriptStart faces text s') :
    Streams (Lexer.ofSource false text) (faces ++ [endOfText]) := by
  rw [Lexer.ofSource, normalize_spelt spelt]
  have stands : Stands (Lexer.ofText false (unifyBreaks text)) scriptStart .origin
      (unifyBreaks text ++ []) := by
    refine ⟨by simp [scriptStart], rfl, rfl, rfl, rfl, [], ?_, rfl, rfl, rfl⟩
    rw [List.append_nil]
    rfl
  exact spelt.unify.streams stands (fun kind _ c first => absurd first (by simp))
    fun behind stands => endOfText_streams stands

/-! ## Scripts -/

/-- The step of the loop over the statements of a script. -/
def programStep (rules : Rules) (body : List Stmt) : Parser (List Stmt ⊕ List Stmt) := do
  if (← Parser.current).isEof then return .inr body
  return .inl (body ++ [← Parser.statement rules .outermost])

/-- A script is read statement by statement. -/
theorem program_eq (rules : Rules) :
    Parser.program rules = (do
      let body ← Parser.loop (programStep rules) []
      return ⟨body⟩) := rfl

/-- The statements of a script are read back. -/
theorem program_shown {o : Options} (lenient : o.strict = false) {body : List Stmt}
    (faithful : Everywhere Faithful (partsOfStmts body)) (jumps : scopedStmts .outermost body)
    {n : Nat} (room : (stmtsFaces body).length ≤ n) {c : Cursor}
    (shows : c.Shows (stmtsFaces body ++ [endOfText])) :
    Ends (Parser.program (.upTo n)) o c
      (fun result _ => result.eraseSpans = Program.eraseSpans ⟨body⟩) Never := by
  rw [program_eq, ends_bind]
  refine (stmts_shown ?_ ⟨_, _, rfl, by simp [endOfText], by simp [endOfText]⟩ ?_ shows).mono ?_
    fun _ bad => bad
  · intro s listed done more c next shows
    simp only [programStep, ends_bind, ends_current, Token.isEof_of_ne (stmt_apart shows rfl),
      Bool.false_eq_true, if_false, ends_pure]
    refine (stmtReads lenient s (everywhere_stmts.1 faithful s listed) .outermost
      (scopedStmts_iff.1 jumps s listed) n more c
      (Nat.le_trans (length_le_stmtsFaces listed) room) (next.all _) shows).mono ?_ fun _ bad => bad
    rintro result c' ⟨erased, shows⟩
    exact ⟨result, rfl, erased, shows⟩
  · intro done c shows
    have kind : c.token.kind = .eof := shows.kind
    simp only [programStep, ends_bind, ends_current, Token.isEof, kind, if_true, ends_pure]
    exact ⟨trivial, shows⟩
  · rintro results c' ⟨erased, -⟩
    simp only [ends_pure, Program.eraseSpans, erased]

/-- The canonical text of a script is read back as that script, up to its spans. -/
theorem parseScript_printed {o : Options} (lenient : o.strict = false) (style : Style)
    (program : Program) (faithful : Everywhere Faithful program.parts)
    (jumps : scopedStmts .outermost program.body)
    (blank : ∀ c ∈ style.unit.toList, isBlank c = true) :
    ∃ result, parseScript o (ofProgram style program).code = .ok result ∧
      result.eraseSpans = program.eraseSpans := by
  obtain ⟨s', spelt⟩ := spells_program style program faithful
    (s := scriptStart) (fun _ _ last => nomatch last) (fun c listed => ⟨blank c listed, fun _ => rfl⟩)
  have streams := script_streams spelt
  obtain ⟨x, faces, same⟩ := List.exists_cons_of_ne_nil
    (l := stmtsFaces program.body ++ [endOfText]) (by simp)
  rw [same] at streams
  have read : ∀ n c, faces.length ≤ n → c.Shows (x :: faces) →
      Ends (Parser.program (.upTo (n + 1))) o c
        (fun result _ => result.eraseSpans = program.eraseSpans) Never := by
    intro n c room shows
    rw [← same] at shows
    refine program_shown lenient faithful jumps ?_ shows
    have length := congrArg List.length same
    simp only [List.length_append, List.length_cons, List.length_nil] at length
    omega
  obtain ⟨result, parsed, erased⟩ := run_shown streams read
  exact ⟨result, by rw [parseScript, parsed]; rfl, erased⟩

/-! ## Expressions -/

/-- The canonical text of a faithful expression is read back as that expression, up to its
spans. -/
theorem parseExpression_printed {o : Options} (lenient : o.strict = false) (e : Expr)
    (faithful : Everywhere Faithful e.parts) :
    ∃ result, parseExpression o (ofExpr e) = .ok result ∧ result.eraseSpans = e.eraseSpans := by
  obtain ⟨kind, spelt, -⟩ := spells_expr (spelling_steps.expr e) faithful sequenceLevel
    (s := scriptStart) (fun _ _ last => nomatch last)
  have streams := script_streams spelt
  obtain ⟨x, faces, same⟩ := List.exists_cons_of_ne_nil
    (l := exprFaces sequenceLevel e ++ [endOfText]) (by simp)
  rw [same] at streams
  have read : ∀ n c, faces.length ≤ n → c.Shows (x :: faces) →
      Ends (Parser.wholeExpression (.upTo (n + 1))) o c
        (fun result _ => result.eraseSpans = e.eraseSpans) Never := by
    intro n c room shows
    rw [← same] at shows
    have length := congrArg List.length same
    simp only [List.length_append, List.length_cons, List.length_nil] at length
    rw [Parser.wholeExpression, ends_bind]
    refine ((exprReads lenient e faithful).sequence (n + 1) false [endOfText] c (by omega)
      (by simp) (follows_of_none rfl) shows).mono ?_ fun _ bad => bad
    rintro result c' ⟨erased, shows⟩
    have kind : c'.token.kind = .eof := shows.kind
    simpa [ends_bind, ends_current, Token.isEof, kind, ends_pure] using erased
  obtain ⟨result, parsed, erased⟩ := run_shown streams read
  exact ⟨result, by rw [parseExpression, ofExpr, parsed]; rfl, erased⟩

end Stencil.Grammar
