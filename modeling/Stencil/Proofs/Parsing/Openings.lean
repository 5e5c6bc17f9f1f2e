import Stencil.Proofs.Lexing.Breaks
import Stencil.Proofs.Parsing.ParsingEnds
import Stencil.Proofs.Parsing.SeamRuns
/-!
# Where texts begin

What a source is read as is told by a run from its first token to its end (`run_of_parseExpression`), at
any depth that is enough (`parseExpression_of_run`). A text that has been read alone is read in the same
way as a part of a source, up to its end, if there is a line break behind it.
-/

set_option autoImplicit false

namespace Stencil.Text

open Stencil.Lexing (unifyBreaks_cons)

/-- A line break behind a text is a blank, or belongs to the break that the text ends in. -/
theorem unifyBreaks_append_break (text more : List Char) :
    ∃ blanks, unifyBreaks (text ++ '\n' :: more) = unifyBreaks text ++ (blanks ++ unifyBreaks more) ∧
      (blanks = ['\n'] ∨ blanks = [] ∧ (unifyBreaks text).getLast? = some '\n') := by
  have feed : isForeignBreak '\n' = false := by decide
  fun_induction unifyBreaks text with
  | case1 => exact ⟨['\n'], unifyBreaks_cons feed more, .inl rfl⟩
  | case2 rest ih =>
    obtain ⟨blanks, same, kind⟩ := ih
    refine ⟨blanks, by simp [unifyBreaks, same], kind.imp_right fun ends => ⟨ends.1, ?_⟩⟩
    rw [List.getLast?_cons, ends.2]
    rfl
  | case3 c rest other ih =>
    obtain ⟨blanks, same, kind⟩ := ih
    by_cases last : c = '\r' ∧ rest = []
    · obtain ⟨rfl, rfl⟩ := last
      exact ⟨[], rfl, .inr ⟨rfl, rfl⟩⟩
    have apart : ∀ behind, c = '\r' → rest ++ '\n' :: more = '\n' :: behind → False := by
      intro behind carriage begins
      cases rest with
      | nil => exact last ⟨carriage, rfl⟩
      | cons d rest =>
        obtain ⟨rfl, -⟩ := List.cons.inj begins
        exact other rest carriage rfl
    refine ⟨blanks, ?_, kind.imp_right fun ends => ⟨ends.1, ?_⟩⟩
    · rw [List.cons_append, unifyBreaks.eq_3 c _ apart, same]
      rfl
    · rw [List.getLast?_cons, ends.2]
      rfl

/-- A text that ends in a line break, put before another one: the texts meet at a line break. -/
theorem normalize_append_break (text more : List Char) :
    ∃ blanks, blanks.all isBlank = true ∧
      normalize (text ++ '\n' :: more) = normalize text ++ (blanks ++ unifyBreaks more) ∧
      Joined (normalize text) (blanks ++ unifyBreaks more) := by
  have meets (text : List Char) : ∃ blanks, blanks.all isBlank = true ∧
      unifyBreaks (text ++ '\n' :: more) = unifyBreaks text ++ (blanks ++ unifyBreaks more) ∧
      Joined (unifyBreaks text) (blanks ++ unifyBreaks more) := by
    obtain ⟨blanks, same, rfl | ⟨rfl, ends⟩⟩ := unifyBreaks_append_break text more
    · exact ⟨['\n'], by decide, same, .inr (.inl rfl)⟩
    · exact ⟨[], rfl, same, .inr (.inr ends)⟩
  cases text with
  | nil => exact meets []
  | cons c text =>
    by_cases mark : c = '\ufeff'
    · subst mark
      exact meets text
    · have stays (behind : List Char) : normalize (c :: behind) = unifyBreaks (c :: behind) :=
        normalize_unmarked (by simpa using mark)
      rw [List.cons_append, stays, stays]
      exact meets (c :: text)

end Stencil.Text

namespace Stencil.Grammar

open Stencil.Syntax
open Stencil.Grammar.Parser

/-- Behind an operand of which the operators have ended. -/
theorem unary_of_primary {R : Rules} {calls : Bool} {o : Options} {c behind : Cursor} {e : Expr}
    (ran : primary R calls o c = .ok (e, behind)) (none_ : operatorBehind behind.token = none) :
    unary R calls o c = .ok (e, behind) := by
  rw [unary_eq, run_behind (a := c.token.span.start) rfl, run_behind (a := c.token.kind) rfl,
    bare_of_primary ran]
  dsimp only
  rw [run_behind ran]
  refine loop_done ?_
  unfold postfixStep
  rw [run_behind (a := behind.token) rfl, none_]
  rfl

end Stencil.Grammar

namespace Stencil

open Stencil.Grammar
open Stencil.Grammar.Parser
open Stencil.Syntax
open Stencil.Text (normalize Position)

/-! ## Runs over whole sources -/

/-- The cursor stands at the first token of a text. -/
def Grammar.Cursor.Opens (text : List Char) (c : Cursor) : Prop :=
  ∃ l : Lexer, l.Ready true text ∧ l.next = (.ok c.token, c.lexer)

theorem Lexer.ready_ofSource (source : List Char) :
    (Lexer.ofSource false source).Ready true (normalize source) := ⟨rfl, rfl, rfl, rfl⟩

/-- A source that is read as an expression is read from its first token to its end. -/
theorem run_of_parseExpression {o : Options} {source : String} {e : Expr}
    (read : parseExpression o source = .ok e) :
    ∃ n c, c.Opens (normalize source.toList) ∧ Finishes (expression (Rules.upTo n) true false) o c e := by
  unfold parseExpression run Cursor.ofSource at read
  cases first : (Lexer.ofSource false source.toList).next with
  | mk outcome lexer =>
    rw [first] at read
    cases outcome with
    | error error => cases read
    | ok token =>
      have opens : Cursor.Opens (normalize source.toList) ⟨lexer, token, .origin⟩ :=
        ⟨_, Lexer.ready_ofSource source.toList, first⟩
      change (wholeExpression (Rules.upTo (lexer.rest.length + 2)) o ⟨lexer, token, .origin⟩ >>=
        fun read => .ok read.1).mapError _ = .ok e at read
      cases ran : wholeExpression (Rules.upTo (lexer.rest.length + 2)) o ⟨lexer, token, .origin⟩ with
      | error failure =>
        rw [ran] at read
        cases read
      | ok outcome =>
        obtain ⟨result, behind⟩ := outcome
        rw [ran] at read
        cases read
        unfold wholeExpression at ran
        obtain ⟨_, middle, ran, ending⟩ := run_bind ran
        rw [run_behind (a := middle.token) rfl] at ending
        split_ifs at ending with ended
        · cases ending
          exact ⟨_, _, opens, _, ran, ended⟩
        · cases ending

/-- A run at any depth that is enough tells what the source is read as. -/
theorem parseExpression_of_run {o : Options} {source : String} {e : Expr} {token : Token}
    {lexer : Lexer} {n : Nat}
    (first : (Lexer.ofSource false source.toList).next = (.ok token, lexer))
    (deep : lexer.rest.length + 2 ≤ n)
    (finishes : Finishes (expression (Rules.upTo n) true false) o ⟨lexer, token, .origin⟩ e) :
    parseExpression o source = .ok e := by
  obtain ⟨behind, ran, ended⟩ := finishes
  have room : (⟨lexer, token, .origin⟩ : Cursor).ahead ≤ lexer.rest.length + 2 := by
    unfold Cursor.ahead
    split_ifs <;> simp
  have whole : wholeExpression (Rules.upTo n) o ⟨lexer, token, .origin⟩ = .ok (e, behind) := by
    unfold wholeExpression
    rw [run_behind ran, run_behind (a := behind.token) rfl, if_pos ended]
    rfl
  have same := (same_wholeExpression (o := o) (agree_upTo (Nat.le_refl _) deep) room).eq.trans whole
  unfold parseExpression run Cursor.ofSource
  rw [first]
  change (wholeExpression (Rules.upTo (lexer.rest.length + 2)) o ⟨lexer, token, .origin⟩ >>=
    fun read => .ok read.1).mapError _ = .ok e
  rw [same]
  rfl

/-- A text that has been read alone begins in the same way where more stands behind it. -/
theorem Grammar.Cursor.Opens.alongside {text more : List Char} {c : Cursor} (opens : c.Opens text) {m : Lexer}
    (ready : m.Ready true (text ++ more)) (joined : Joined text more)
    (going : c.token.isEof = false ∨ more = []) :
    ∃ token lexer, m.next = (.ok token, lexer) ∧
      ∀ stop, Alongside more c ⟨lexer, token, stop⟩ := by
  obtain ⟨l, ready', read⟩ := opens
  obtain ⟨token, lexer, read', kind, broke, seam, regexp⟩ :=
    (ready'.seam ready joined).next read going
  exact ⟨token, lexer, read', fun _ => ⟨kind, broke, seam, regexp, going⟩⟩

end Stencil
