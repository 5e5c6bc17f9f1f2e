import Stencil.Proofs.Parsing.Operators
import Stencil.Proofs.Printing.StmtText
/-!
# Reading statements

Every statement is read back from its tokens, given that the statements and expressions inside it
are. With the operands and operators this covers all trees, and whole scripts.
-/

set_option autoImplicit false

namespace Stencil.Grammar

open Stencil.Lexing (Face Word Spells Phase)
open Stencil.Print
open Stencil.Syntax
open Stencil.Text (Position Span)

section

variable {o : Options} {rest : List Face} {x y : Face} {c : Cursor} {e : Expr}
  {around : Surroundings}

/-! ## Parts of statements -/

/-- A statement that begins with a keyword is read from behind it. -/
theorem keyword_shown (k : Keyword) (begins : Parser.beginsStatement k = true) {rules : Rules}
    (shows : c.Shows (keyword k :: rest)) (some_ : rest ≠ []) {good : Stmt → Cursor → Prop}
    (then_ : ∀ start c', c'.Shows rest →
      Ends (Parser.keywordStatement rules around start k) o c' good Never) :
    Ends (Parser.statement rules around) o c good Never := by
  have kind : c.token.kind = .keyword k := shows.kind
  simp only [Parser.statement, ends_bind, ends_atOperator, Token.isOperator, kind, Bool.or_self,
    Bool.false_eq_true, if_false, ends_startOfToken, ends_currentKind, begins, if_true]
  exact advance_shown some_ shows (then_ _)

/-- A statement inside another one. -/
theorem inner_shown {s : Stmt} (reads : ReadsStmt o around s) {n : Nat}
    (room : (stmtFaces s).length ≤ n) (follow : MayFollow s.opensElse rest) (shows : c.Shows (stmtFaces s ++ rest))
    {good : Stmt → Cursor → Prop}
    (then_ : ∀ result c', result.eraseSpans = s.eraseSpans → c'.Shows rest → good result c') :
    Ends ((Rules.upTo (n + 1)).statement around) o c good Never := by
  rw [upTo_statement]
  refine (reads n rest c room follow shows).mono ?_ fun _ bad => bad
  rintro result c' ⟨erased, shows⟩
  exact then_ result c' erased shows

/-- An expression before a token that continues none. -/
theorem expression_shown (readable : Readable o e) {n : Nat}
    (room : (exprFaces sequenceLevel e).length ≤ n) (ends : binds false x.kind = none)
    (shows : c.Shows (exprFaces sequenceLevel e ++ x :: rest)) {good : Expr → Cursor → Prop}
    (then_ : ∀ result c', result.eraseSpans = e.eraseSpans → c'.Shows (x :: rest) →
      good result c') :
    Ends ((Rules.upTo (n + 1)).expression true false) o c good Never := by
  rw [upTo_expression]
  refine (readable.sequence n false _ c room (by simp) (follows_of_none ends) shows).mono ?_
    fun _ bad => bad
  rintro result c' ⟨erased, shows⟩
  exact then_ result c' erased shows

/-- An expression in parentheses. -/
theorem parenthesised_shown (readable : Readable o e) {n : Nat}
    (room : (exprFaces sequenceLevel e).length ≤ n) (some_ : rest ≠ [])
    (shows : c.Shows (enclosed (exprFaces sequenceLevel e) ++ rest)) {good : Expr → Cursor → Prop}
    (then_ : ∀ result c', result.eraseSpans = e.eraseSpans → c'.Shows rest → good result c') :
    Ends (Parser.parenthesised (.upTo (n + 1))) o c good Never := by
  simp only [enclosed, List.cons_append, List.append_assoc, List.nil_append] at shows
  simp only [Parser.parenthesised, ends_bind, ends_pure]
  refine expectPunctuation_shown (by simp [exprFaces_ne_nil]) shows rfl fun c shows => ?_
  refine expression_shown readable room rfl shows fun result c erased shows => ?_
  exact expectPunctuation_shown some_ shows rfl (then_ result · erased)

/-! ## Expression statements -/

/-- A text that spells a brace or the keyword of a function needs a guard. -/
theorem needsGuard_word {regexp : Bool} {kind : TokenKind} {word text : List Char}
    (spelt : Word regexp kind word)
    (guarded : kind = .punctuation '\x7b' ∨ kind = .keyword .function) :
    needsGuard (String.ofList (word ++ text)) = true := by
  have begins : word = ['\x7b'] ∨ word = "function".toList := by
    cases spelt with
    | name spelt =>
      rename_i name
      rcases guarded with same | same
      · exact absurd same (Lexing.wordKind_ne_punctuation name _)
      · refine .inr ?_
        unfold wordKind at same
        split at same
        · exact absurd same (by simp)
        · split at same
          · rename_i k found
            obtain rfl := TokenKind.keyword.inj same
            have spelling := List.find?_some found
            simp only [decide_eq_true_eq] at spelling
            rw [← spelling]
            rfl
          · split at same <;> exact absurd same (by simp)
    | punctuation known =>
      rcases guarded with same | same
      · obtain rfl := TokenKind.punctuation.inj same
        exact .inl rfl
      · exact absurd same (by simp)
    | _ => rcases guarded with same | same <;> exact absurd same (by simp)
  rcases begins with rfl | rfl
  · simp [needsGuard, List.isPrefixOf]
  · have front := List.isPrefixOf_iff_prefix.2 (List.prefix_append "function".toList text)
    simp only [needsGuard, String.toList_ofList, front, Bool.or_true]

/-- The text of an expression begins with a word that spells its first token. -/
theorem exprText_begins (faithful : Everywhere Faithful e.parts) :
    ∃ x more regexp word text, exprFaces sequenceLevel e = x :: more ∧
      Word regexp x.kind word ∧ (exprText sequenceLevel e).toList = word ++ text := by
  let s : Phase :=
    { mode := .script, depth := 0, regexp := true, broke := true, last := none, returns := true }
  obtain ⟨c, tail, text, -, solid⟩ := (exprSpelt e faithful sequenceLevel).begins
  obtain ⟨kind, spells, -⟩ := (exprSpelt e faithful sequenceLevel).spells s fun _ last => nomatch last
  obtain ⟨x, more, same, -⟩ := exprFaces_opens e sequenceLevel
  refine ⟨x, more, ?_⟩
  generalize (exprText sequenceLevel e).toList = whole at spells text
  rw [same] at spells
  cases spells with
  | blank blank broken rest =>
    obtain rfl := (List.cons.inj text).1
    rw [blank] at solid
    exact absurd solid (by decide)
  | word spelt admitted held joined unplaced rest => exact ⟨_, _, _, same, spelt, rfl⟩

/-- An expression whose text is no block and no function begins with no brace and no function. -/
theorem exprFaces_unguarded (faithful : Everywhere Faithful e.parts)
    (plain : needsGuard (exprText sequenceLevel e) = false) :
    ∃ x more, exprFaces sequenceLevel e = x :: more ∧ x.kind ≠ .punctuation '\x7b' ∧
      x.kind ≠ .keyword .function := by
  obtain ⟨x, more, regexp, word, text, same, spelt, chars⟩ := exprText_begins faithful
  have guard : x.kind = .punctuation '\x7b' ∨ x.kind = .keyword .function →
      needsGuard (exprText sequenceLevel e) = true := by
    intro guarded
    rw [← String.ofList_toList (s := exprText sequenceLevel e), chars]
    exact needsGuard_word spelt guarded
  rw [plain] at guard
  exact ⟨x, more, same, fun same => absurd (guard (.inl same)) (by decide),
    fun same => absurd (guard (.inr same)) (by decide)⟩

/-- A statement that begins as an expression, with no brace, no function and no label, is read as an
expression. -/
theorem expressionStatement_shown {rules : Rules} (shows : c.Shows (x :: y :: rest))
    (starts : startsExpression x.kind = true) (noBlock : x.kind ≠ .punctuation '\x7b')
    (noFunction : x.kind ≠ .keyword .function)
    (noLabel : ∀ name, x.kind = .name name → y.kind ≠ .punctuation ':')
    {good : Stmt → Cursor → Prop}
    (run : ∀ start, Ends (Parser.expressionStatement rules start) o c good Never) :
    Ends (Parser.statement rules around) o c good Never := by
  have kind : c.token.kind = x.kind := shows.kind
  cases same : x.kind with
  | name label =>
    rw [same] at kind
    simp only [Parser.statement, ends_bind, ends_atOperator, Token.isOperator, kind, Bool.or_self,
      Bool.false_eq_true, if_false, ends_startOfToken, ends_currentKind]
    refine following_shown shows fun token other => ?_
    have plain : token.isPunctuation ':' = false :=
      isPunctuation_of_ne (other ▸ noLabel label same)
    simp only [plain, Bool.false_eq_true, if_false]
    exact run _
  | operator symbol =>
    rw [same] at kind starts
    have table : ∀ symbol ∈ ["/", "/="], startsExpression (.operator symbol) = false := by decide
    have other (slash : String) (listed : slash ∈ ["/", "/="]) :
        c.token.isOperator slash = false := by
      refine isOperator_of_ne fun same => ?_
      rw [← kind, same, table slash listed] at starts
      exact absurd starts (by decide)
    simp only [Parser.statement, ends_bind, ends_atOperator, other "/" (by simp),
      other "/=" (by simp), kind, Bool.or_self, Bool.false_eq_true, if_false, ends_startOfToken,
      ends_currentKind]
    exact run _
  | punctuation char =>
    rw [same] at kind starts noBlock
    have which : char = '(' ∨ char = '[' := by
      have brace : char ≠ '\x7b' := by simpa using noBlock
      simpa [startsExpression, brace] using starts
    rcases which with rfl | rfl <;>
      · simp only [Parser.statement, ends_bind, ends_atOperator, Token.isOperator, kind, Bool.or_self,
          Bool.false_eq_true, if_false, ends_startOfToken, ends_currentKind]
        exact run _
  | keyword k =>
    rw [same] at starts noFunction
    cases k with
    | function => exact absurd rfl noFunction
    | _ => exact absurd starts (by decide)
  | html | marker | eof =>
    rw [same] at starts
    exact absurd starts (by simp [startsExpression])
  | _ =>
    rw [same] at kind
    simp only [Parser.statement, ends_bind, ends_atOperator, Token.isOperator, kind, Bool.or_self,
      Bool.false_eq_true, if_false, ends_startOfToken, ends_currentKind]
    exact run _

/-- Expression statements. -/
theorem reads_expression (span : Option Span) (value : Expr) (ih : ExprReads o value) :
    StmtReads o (.expression span value) := by
  intro faithful around _ n rest c room follow shows
  rw [Stmt.parts, everywhere_cons] at faithful
  have readable := ih faithful.2
  obtain ⟨z, rest, rfl⟩ := List.exists_cons_of_ne_nil follow.ne_nil
  let faces := if needsGuard (exprText sequenceLevel value) then enclosed (exprFaces sequenceLevel value)
    else exprFaces sequenceLevel value
  have same : stmtFaces (.expression span value) = faces ++ ending := by
    rw [stmtFaces]
  have begins : ∃ x more, faces = x :: more ∧ startsExpression x.kind = true ∧
      x.kind ≠ .punctuation '\x7b' ∧ x.kind ≠ .keyword .function ∧
      ∀ name, x.kind = .name name → ∀ y ∈ more.head?, y.kind ≠ .punctuation ':' := by
    by_cases guard : needsGuard (exprText sequenceLevel value) = true
    · exact ⟨mark '(', exprFaces sequenceLevel value ++ [mark ')'], by simp [faces, guard, enclosed], rfl,
        by simp [mark], by simp [mark], by simp [mark]⟩
    · obtain ⟨x, more, bare, starts, noLabel⟩ := exprFaces_opens value sequenceLevel
      obtain ⟨_, _, bare', noBlock, noFunction⟩ :=
        exprFaces_unguarded faithful.2 (by simpa using guard)
      obtain ⟨rfl, rfl⟩ := List.cons.inj (bare.symm.trans bare')
      exact ⟨x, more, by simp [faces, guard, bare], starts, noBlock, noFunction, noLabel⟩
  have reads : ReadsSequence o (containsIn value) faces value := by
    by_cases guard : needsGuard (exprText sequenceLevel value) = true
    · simp only [faces, guard, if_true]
      exact ((readable.sequence.enclosed true).assignment (beginsOperand_enclosed _)
        (by simp [enclosed])).sequence
    · simp only [faces, guard]
      exact readable.sequence
  rw [same, List.append_assoc] at shows
  rw [same, List.length_append] at room
  have statement (start : Position) :
      Ends (Parser.expressionStatement (.upTo n) start) o c (ReadStmt (.expression span value) (z :: rest))
        Never := by
    simp only [Parser.expressionStatement, ends_bind, ends_spanFrom, ends_pure]
    refine (reads n false _ c (by omega) (by simp) (follows_of_none rfl) shows).mono ?_ fun _ bad => bad
    rintro result c' ⟨erased, shows⟩
    refine semicolon_shown (by simp) shows rfl fun c shows => ⟨?_, shows⟩
    simp only [Stmt.eraseSpans, erased]
  obtain ⟨x, more, begin_, starts, noBlock, noFunction, noLabel⟩ := begins
  rw [begin_] at shows
  obtain ⟨y, tail, next⟩ := List.exists_cons_of_ne_nil (l := more ++ (ending ++ z :: rest)) (by simp [ending])
  rw [List.cons_append, next] at shows
  refine expressionStatement_shown shows starts noBlock noFunction (fun name same => ?_) statement
  cases more with
  | nil =>
    obtain rfl := (List.cons.inj next).1
    simp [mark]
  | cons w more =>
    obtain rfl := (List.cons.inj next).1
    exact noLabel name same w rfl

/-- An expression that stands in parentheses in some cases is read as an assignment. -/
theorem Readable.assignmentEither (readable : Readable o e) (paren : Bool) :
    ReadsAssignment o (!paren && containsIn e)
      (if paren then enclosed (exprFaces sequenceLevel e) else exprFaces assignmentLevel e) e := by
  cases paren with
  | true =>
    have operand := (readable.sequence.enclosed true).unary (beginsOperand_enclosed _)
    exact (operand.operators (by simp [enclosed]) (by decide)).conditional.assignment
  | false => exact readable.assignment

/-- An expression that stands in parentheses in some cases is read as an expression. -/
theorem Readable.sequenceEither (readable : Readable o e) (paren : Bool) :
    ReadsSequence o (!paren && containsIn e)
      (if paren then enclosed (exprFaces sequenceLevel e) else exprFaces sequenceLevel e) e := by
  cases paren with
  | true =>
    exact ((readable.sequence.enclosed true).assignment (beginsOperand_enclosed _)
      (by simp [enclosed])).sequence
  | false => exact readable.sequence

/-! ## Blocks and declarations -/

/-- Blocks. -/
theorem reads_block (span : Option Span) (body : List Stmt) (ih : ∀ s ∈ body, StmtReads o s) :
    StmtReads o (.block span body) := by
  intro faithful around jumps n rest c room follow shows
  rw [Stmt.parts, everywhere_cons] at faithful
  have kind : c.token.kind = .punctuation '\x7b' := shows.kind
  rw [stmtFaces] at shows room
  simp only [braced, List.length_cons, List.length_append] at room
  simp only [Parser.statement, ends_bind, ends_atOperator, Token.isOperator, kind, Bool.or_self,
    Bool.false_eq_true, if_false, ends_startOfToken, ends_currentKind, ends_spanFrom, ends_pure]
  refine block_reads ih faithful.2 jumps n rest c _ (by omega) follow.ne_nil shows
    fun results c erased shows => ⟨?_, shows⟩
  simp only [Stmt.eraseSpans, erased]

/-- Reads the value of a variable, if it has one. -/
def definitionValue (rules : Rules) (noIn : Bool) : Parser (Option Expr) := do
  if ← Parser.atOperator "=" then
    Parser.advance
    return some (← rules.expression false noIn)
  else return none

/-- Goes on with the variables behind a comma. -/
def definitionEnd (defs : List VarDef) : Parser (List VarDef ⊕ List VarDef) := do
  if ← Parser.atPunctuation ',' then
    Parser.advance
    return .inl defs
  else return .inr defs

/-- The step of the loop over the variables of a declaration. -/
def definitionStep (rules : Rules) (noIn : Bool) (defs : List VarDef) :
    Parser (List VarDef ⊕ List VarDef) := do
  let name ← Parser.plainName
  let value ← definitionValue rules noIn
  definitionEnd (defs ++ [.mk name value])

/-- Variables are gathered by a loop. -/
theorem definitions_eq (rules : Rules) (noIn : Bool) :
    Parser.definitions rules noIn = Parser.loop (definitionStep rules noIn) [] := by
  unfold Parser.definitions
  congr 1
  funext defs
  refine bind_congr fun name => ?_
  simp only [definitionValue, bind_assoc]
  refine bind_congr fun equals => ?_
  cases equals <;> simp [definitionEnd]

/-- A variable is read back. -/
theorem definition_shown {loop noIn : Bool} {name : String} {value : Option Expr}
    (readable : ∀ e ∈ value, Readable o e) (inHead : noIn = true → loop = true) {n : Nat}
    (room : (varFaces loop (.mk name value)).length ≤ n + 1)
    (follows : Follows noIn assignmentLevel rest)
    (shows : c.Shows (varFaces loop (.mk name value) ++ rest)) {defs : List VarDef}
    {good : List VarDef ⊕ List VarDef → Cursor → Prop}
    (then_ : ∀ result c', result.eraseSpans = (VarDef.mk name value).eraseSpans → c'.Shows rest →
      Ends (definitionEnd (defs ++ [result])) o c' good Never) :
    Ends (definitionStep (.upTo (n + 1)) noIn defs) o c good Never := by
  obtain ⟨z, rest, rfl⟩ := List.exists_cons_of_ne_nil follows.ne_nil
  rw [definitionStep, ends_bind]
  cases value with
  | none =>
    refine plainName_shown shows fun c shows => ?_
    have other := isOperator_of_ne
      (follows.other (.operator "=") shows (by cases noIn <;> rfl) (Nat.le_refl _))
    simp only [definitionValue, ends_bind, ends_atOperator, other, Bool.false_eq_true, if_false, ends_pure]
    exact then_ _ c rfl shows
  | some value =>
    simp only [varFaces, List.length_cons] at room
    refine plainName_shown shows fun c shows => ?_
    have kind : c.token.kind = .operator "=" := shows.kind
    simp only [definitionValue, ends_bind, ends_atOperator, Token.isOperator, kind, decide_true,
      if_true, upTo_expression, ends_pure]
    refine advance_shown (by simp) shows fun c shows => ?_
    refine (((readable value rfl).assignmentEither (loop && containsIn value)).expression (by omega)
      (fun head => ?_) follows shows).mono ?_ fun _ bad => bad
    · rw [inHead head, Bool.true_and, Bool.not_and_self]
    · rintro result c' ⟨erased, shows⟩
      exact then_ _ c' (by simp only [VarDef.eraseSpans, eraseOptional, erased]) shows

/-- The variables of a declaration are read back. -/
theorem definitions_shown {loop noIn : Bool} {defs : List VarDef} (some_ : defs ≠ [])
    (ih : InVarDefs (ExprReads o) defs) (faithful : Everywhere Faithful (partsOfVarDefs defs))
    (inHead : noIn = true → loop = true) {n : Nat}
    (room : (commaFaces (defs.map (varFaces loop))).length ≤ n + 1)
    (ends : binds noIn x.kind = none)
    (shows : c.Shows (commaFaces (defs.map (varFaces loop)) ++ x :: rest))
    {good : List VarDef → Cursor → Prop}
    (then_ : ∀ results c', eraseVarDefs results = eraseVarDefs defs → c'.Shows (x :: rest) →
      good results c') :
    Ends (Parser.definitions (.upTo (n + 1)) noIn) o c good Never := by
  have readable (name : String) (value : Option Expr) (listed : .mk name value ∈ defs) :
      ∀ e ∈ value, Readable o e := by
    rintro e rfl
    have fine := everywhere_varDefs.1 faithful _ listed
    rw [VarDef.parts, everywhere_cons] at fine
    exact ih name e listed fine.2
  have loop_ : ∀ (todo done : List VarDef) (k : Nat) (c : Cursor), todo ≠ [] →
      (∀ d ∈ todo, d ∈ defs) → c.Shows (commaFaces (todo.map (varFaces loop)) ++ x :: rest) →
      (commaFaces (todo.map (varFaces loop)) ++ x :: rest).length ≤ k →
      Ends (Parser.loopWithin (definitionStep (.upTo (n + 1)) noIn) k done) o c
        (fun results c' => ∃ more, results = done ++ more ∧
          more.map VarDef.eraseSpans = todo.map VarDef.eraseSpans ∧ c'.Shows (x :: rest)) Never := by
    intro todo
    induction todo with
    | nil => exact fun _ _ _ empty => absurd rfl empty
    | cons d todo ihTodo =>
      intro done k c _ listed shows enough
      obtain ⟨name, value⟩ := d
      have here := listed _ List.mem_cons_self
      have fits := length_le_commaFaces (List.mem_map_of_mem (f := varFaces loop) here)
      obtain ⟨k, rfl⟩ := Nat.exists_eq_succ_of_ne_zero (n := k)
        (by simp only [List.length_append, List.length_cons] at enough; omega)
      rw [ends_loopWithin]
      cases todo with
      | nil =>
        refine definition_shown (readable name value here) inHead (by omega)
          (follows_of_none ends) shows fun result c' erased shows => ?_
        have other := isPunctuation_of_ne
          ((follows_of_none ends : Follows noIn sequenceLevel (x :: rest)).other (.punctuation ',') shows rfl
            (Nat.le_refl _))
        simp only [definitionEnd, ends_bind, ends_atPunctuation, other, Bool.false_eq_true, if_false,
          ends_pure]
        exact ⟨[result], rfl, by simp [erased], shows⟩
      | cons second todo =>
        rw [List.map_cons, List.map_cons, commaFaces, List.append_assoc, List.cons_append,
          ← List.map_cons] at shows enough
        refine definition_shown (readable name value here) inHead (by omega)
          (follows_of_some (b := sequenceLevel) rfl (by decide)) shows fun result c' erased shows => ?_
        have kind : c'.token.kind = .punctuation ',' := shows.kind
        simp only [definitionEnd, ends_bind, ends_atPunctuation, Token.isPunctuation, kind, decide_true,
          if_true, ends_pure]
        refine advance_shown (by simp) shows fun c shows => ?_
        refine (ihTodo (done ++ [result]) k c (by simp) (fun d member => listed d (List.mem_cons_of_mem _ member))
          shows ?_).mono ?_ fun _ bad => bad
        · simp only [List.length_append, List.length_cons] at enough ⊢
          omega
        · rintro results c' ⟨more, rfl, others, shows⟩
          exact ⟨result :: more, by simp, by rw [List.map_cons, erased, others]; rfl, shows⟩
  rw [definitions_eq]
  refine loop_shown shows fun k enough => ?_
  refine (loop_ defs [] k c some_ (fun d member => member) shows enough).mono ?_ fun _ bad => bad
  rintro results c' ⟨more, rfl, erased, shows⟩
  exact then_ _ c' (by simpa using erased) shows

/-- Declarations of variables. -/
theorem reads_varStmt (span : Option Span) (defs : List VarDef) (ih : InVarDefs (ExprReads o) defs) :
    StmtReads o (.var span defs) := by
  intro faithful around _ n rest c room follow shows
  rw [Stmt.parts, everywhere_cons] at faithful
  obtain ⟨z, rest, rfl⟩ := List.exists_cons_of_ne_nil follow.ne_nil
  simp only [stmtFaces, loopVarDefsFaces_eq, List.length_cons, List.length_append] at room
  simp only [stmtFaces, loopVarDefsFaces_eq, List.cons_append, List.append_assoc] at shows
  obtain ⟨n, rfl⟩ := Nat.exists_eq_succ_of_ne_zero (n := n) (by omega)
  refine keyword_shown .var rfl shows (by simp [ending]) fun start c shows => ?_
  simp only [Parser.keywordStatement, ends_bind, ends_spanFrom, ends_pure]
  refine definitions_shown faithful.1 ih faithful.2 (by simp) (by omega) rfl shows
    fun results c erased shows => ?_
  refine semicolon_shown (by simp) shows rfl fun c shows => ⟨?_, shows⟩
  simp only [Stmt.eraseSpans, erased]

/-- Declarations of constants. -/
theorem reads_constStmt (span : Option Span) (defs : List VarDef)
    (ih : InVarDefs (ExprReads o) defs) : StmtReads o (.const span defs) := by
  intro faithful around _ n rest c room follow shows
  rw [Stmt.parts, everywhere_cons] at faithful
  obtain ⟨z, rest, rfl⟩ := List.exists_cons_of_ne_nil follow.ne_nil
  simp only [stmtFaces, varDefsFaces_eq, List.length_cons, List.length_append] at room
  simp only [stmtFaces, varDefsFaces_eq, List.cons_append, List.append_assoc] at shows
  obtain ⟨n, rfl⟩ := Nat.exists_eq_succ_of_ne_zero (n := n) (by omega)
  refine keyword_shown .const rfl shows (by simp [ending]) fun start c shows => ?_
  simp only [Parser.keywordStatement, ends_bind, ends_spanFrom, ends_pure]
  refine definitions_shown faithful.1 ih faithful.2 (by simp) (by omega) rfl shows
    fun results c erased shows => ?_
  refine semicolon_shown (by simp) shows rfl fun c shows => ⟨?_, shows⟩
  simp only [Stmt.eraseSpans, erased]

/-- Declarations of functions. -/
theorem reads_defun (span : Option Span) (fn : Function) (ih : FunctionReads o fn) :
    StmtReads o (.defun span fn) := by
  intro faithful around _ n rest c room follow shows
  obtain ⟨name, params, body⟩ := fn
  rw [Stmt.parts, everywhere_cons, Function.parts, everywhere_cons] at faithful
  obtain ⟨declared, ⟨-, -, jumps⟩, inside⟩ := faithful
  obtain ⟨z, rest, rfl⟩ := List.exists_cons_of_ne_nil follow.ne_nil
  have same : stmtFaces (.defun span (.mk name params body)) = keyword .function ::
      (name.toList.map named ++ (enclosed (nameFaces params) ++ braced (stmtsFaces body))) := by
    cases name <;> rfl
  rw [same] at shows room
  simp only [List.length_cons, List.length_append, braced] at room
  simp only [List.cons_append, List.append_assoc] at shows
  refine keyword_shown .function rfl shows (by simp) fun start c shows => ?_
  simp only [Parser.keywordStatement, ends_bind, ends_spanFrom, ends_pure]
  refine function_shown (ih inside jumps) true (fun _ => declared) (by omega) shows
    fun result c erased shows => ⟨?_, shows⟩
  simp only [Stmt.eraseSpans, erased]

/-! ## Conditions and loops -/

/-- Conditional statements. -/
theorem reads_ifElse (span : Option Span) (condition : Expr) (thenBranch : Stmt)
    (elseBranch : Option Stmt) (ih : ExprReads o condition) (ih' : StmtReads o thenBranch)
    (ih'' : ∀ s ∈ elseBranch, StmtReads o s) :
    StmtReads o (.ifElse span condition thenBranch elseBranch) := by
  intro faithful around jumps n rest c room follow shows
  cases elseBranch with
  | none =>
    simp only [Stmt.parts, everywhere_cons, everywhere_append] at faithful
    simp only [stmtFaces, List.append_nil, List.length_cons, List.length_append, enclosed] at room
    simp only [stmtFaces, List.append_nil, List.cons_append, List.append_assoc] at shows
    obtain ⟨n, rfl⟩ := Nat.exists_eq_succ_of_ne_zero (n := n) (by omega)
    obtain ⟨thenJumps, -⟩ := jumps
    refine keyword_shown .if rfl shows (by simp [enclosed]) fun start c shows => ?_
    simp only [Parser.keywordStatement, Parser.ifStatement, ends_bind]
    refine parenthesised_shown (ih faithful.2.1.1) (by omega) (by simp [follow.ne_nil]) shows
      fun condition_ c conditionSame shows => ?_
    have all : MayFollow true rest := follow
    refine inner_shown (ih' faithful.2.1.2 around thenJumps) (by omega) (all.all _) shows
      fun then_ c thenSame shows => ?_
    obtain ⟨x, more, rfl, -, other⟩ := all
    have absent : c.token.isKeyword .else = false := isKeyword_of_ne (shows.kind ▸ other rfl)
    simp only [ends_atKeyword, absent, Bool.false_eq_true, if_false, ends_bind, ends_pure, ends_spanFrom]
    exact ⟨by simp only [Stmt.eraseSpans, conditionSame, thenSame], shows⟩
  | some branch =>
    simp only [Stmt.parts, everywhere_cons, everywhere_append] at faithful
    simp only [stmtFaces, List.length_cons, List.length_append, enclosed] at room
    simp only [stmtFaces, List.cons_append, List.append_assoc] at shows
    obtain ⟨n, rfl⟩ := Nat.exists_eq_succ_of_ne_zero (n := n) (by omega)
    obtain ⟨thenJumps, elseJumps⟩ := jumps
    refine keyword_shown .if rfl shows (by simp [enclosed]) fun start c shows => ?_
    simp only [Parser.keywordStatement, Parser.ifStatement, ends_bind]
    refine parenthesised_shown (ih faithful.2.1.1) (by omega) (by simp) shows
      fun condition_ c conditionSame shows => ?_
    have closed : thenBranch.opensElse = false := faithful.1
    refine inner_shown (ih' faithful.2.1.2 around thenJumps) (by omega)
      ⟨_, _, rfl, by simp [keyword], by simp [closed]⟩ shows fun then_ c thenSame shows => ?_
    have kind : c.token.kind = .keyword .else := shows.kind
    simp only [ends_atKeyword, Token.isKeyword, kind, decide_true, if_true, ends_bind, ends_pure,
      ends_spanFrom]
    refine advance_shown (by simp [follow.ne_nil]) shows fun c shows => ?_
    refine inner_shown (ih'' branch rfl faithful.2.2 around elseJumps) (by omega) follow shows fun else_ c elseSame shows => ⟨?_, shows⟩
    simp only [Stmt.eraseSpans, conditionSame, thenSame, elseSame]

/-- Loops with a condition before their body. -/
theorem reads_whileStmt (span : Option Span) (condition : Expr) (body : Stmt)
    (ih : ExprReads o condition) (ih' : StmtReads o body) :
    StmtReads o (.while span condition body) := by
  intro faithful around jumps n rest c room follow shows
  rw [Stmt.parts, everywhere_cons, everywhere_append] at faithful
  simp only [stmtFaces, List.length_cons, List.length_append, enclosed] at room
  simp only [stmtFaces, List.cons_append, List.append_assoc] at shows
  obtain ⟨n, rfl⟩ := Nat.exists_eq_succ_of_ne_zero (n := n) (by omega)
  refine keyword_shown .while rfl shows (by simp [enclosed]) fun start c shows => ?_
  simp only [Parser.keywordStatement, ends_bind, ends_spanFrom, ends_pure]
  refine parenthesised_shown (ih faithful.2.1) (by omega) (by simp [follow.ne_nil]) shows
    fun condition_ c conditionSame shows => ?_
  refine inner_shown (ih' faithful.2.2 around.looping jumps) (by omega) follow shows fun body_ c bodySame shows => ⟨?_, shows⟩
  simp only [Stmt.eraseSpans, conditionSame, bodySame]

/-- Statements in the scope of an object. -/
theorem reads_withStmt (span : Option Span) (object : Expr) (body : Stmt)
    (ih : ExprReads o object) (ih' : StmtReads o body) : StmtReads o (.with span object body) := by
  intro faithful around jumps n rest c room follow shows
  rw [Stmt.parts, everywhere_cons, everywhere_append] at faithful
  simp only [stmtFaces, List.length_cons, List.length_append, enclosed] at room
  simp only [stmtFaces, List.cons_append, List.append_assoc] at shows
  obtain ⟨n, rfl⟩ := Nat.exists_eq_succ_of_ne_zero (n := n) (by omega)
  refine keyword_shown .with rfl shows (by simp [enclosed]) fun start c shows => ?_
  simp only [Parser.keywordStatement, ends_bind, ends_spanFrom, ends_pure]
  refine parenthesised_shown (ih faithful.2.1) (by omega) (by simp [follow.ne_nil]) shows
    fun object_ c objectSame shows => ?_
  refine inner_shown (ih' faithful.2.2 around jumps) (by omega) follow shows fun body_ c bodySame shows => ⟨?_, shows⟩
  simp only [Stmt.eraseSpans, objectSame, bodySame]

/-- Loops with a condition behind their body. -/
theorem reads_doWhile (span : Option Span) (body : Stmt) (condition : Expr)
    (ih : StmtReads o body) (ih' : ExprReads o condition) :
    StmtReads o (.doWhile span body condition) := by
  intro faithful around jumps n rest c room follow shows
  rw [Stmt.parts, everywhere_cons, everywhere_append] at faithful
  simp only [stmtFaces, List.length_cons, List.length_append, enclosed] at room
  simp only [stmtFaces, List.cons_append, List.append_assoc] at shows
  obtain ⟨n, rfl⟩ := Nat.exists_eq_succ_of_ne_zero (n := n) (by omega)
  refine keyword_shown .do rfl shows (by simp) fun start c shows => ?_
  simp only [Parser.keywordStatement, Parser.doStatement, ends_bind]
  refine inner_shown (ih faithful.2.1 around.looping jumps) (by omega)
    ⟨_, _, rfl, by simp [keyword], by simp [keyword]⟩ shows fun body_ c bodySame shows => ?_
  have kind : c.token.kind = .keyword .while := shows.kind
  simp only [ends_atKeyword, Token.isKeyword, kind, decide_true, Bool.not_true, Bool.false_eq_true,
    if_false, ends_bind, ends_spanFrom, ends_pure]
  refine advance_shown (by simp [enclosed]) shows fun c shows => ?_
  refine parenthesised_shown (ih' faithful.2.2) (by omega) (by simp [ending]) shows
    fun condition_ c conditionSame shows => ?_
  refine semicolon_shown (by simpa using follow.ne_nil) shows rfl fun c shows => ⟨?_, shows⟩
  simp only [Stmt.eraseSpans, conditionSame, bodySame]

/-- An expression that may be absent is read back, up to the mark behind it. -/
theorem optionalBefore_shown {value : Option Expr} (readable : ∀ e ∈ value, Readable o e)
    {closing : Char} (known : closing = ';' ∨ closing = ')') {n : Nat}
    (room : (optionalFaces value).length ≤ n)
    (shows : c.Shows (optionalFaces value ++ mark closing :: rest))
    {good : Option Expr → Cursor → Prop}
    (then_ : ∀ result c', eraseOptional result = eraseOptional value →
      c'.Shows (mark closing :: rest) → good result c') :
    Ends (Parser.optionalBefore (.upTo (n + 1)) closing) o c good Never := by
  unfold Parser.optionalBefore
  cases value with
  | none =>
    have kind : c.token.kind = .punctuation closing := shows.kind
    simp only [ends_bind, ends_atPunctuation, Token.isPunctuation, kind, decide_true, if_true,
      ends_pure]
    exact then_ none c rfl shows
  | some value =>
    have table : ∀ closing ∈ [';', ')'], startsExpression (.punctuation closing) = false ∧
        binds false (.punctuation closing) = none := by
      decide
    obtain ⟨noStart, ends⟩ := table closing (by simpa using known)
    have other : c.token.isPunctuation closing = false :=
      isPunctuation_of_ne (expr_apart shows noStart)
    simp only [ends_bind, ends_atPunctuation, other, Bool.false_eq_true, if_false, ends_pure]
    refine expression_shown (readable value rfl) room ends shows fun result c' erased shows => ?_
    exact then_ _ c' (by simp only [eraseOptional, erased]) shows

/-- The conditions and the body of a loop are read back. -/
theorem conditionalFor_shown {head : Option ForHead} {test step : Option Expr} {body : Stmt}
    (span : Option Span) (readable : ∀ e ∈ test, Readable o e) (readable' : ∀ e ∈ step, Readable o e)
    (reads : ReadsStmt o around.looping body) {n : Nat} (room : (optionalFaces test).length ≤ n)
    (room' : (optionalFaces step).length ≤ n) (room'' : (stmtFaces body).length ≤ n)
    (follow : MayFollow body.opensElse rest)
    (shows : c.Shows (mark ';' :: (optionalFaces test ++ mark ';' :: (optionalFaces step ++
      mark ')' :: (stmtFaces body ++ rest))))) (start : Position) {head_ : Option ForHead}
    (same : head_.map ForHead.eraseSpans = head.map ForHead.eraseSpans) :
    Ends (Parser.conditionalFor (.upTo (n + 1)) around start head_) o c
      (ReadStmt (.for span head test step body) rest) Never := by
  simp only [Parser.conditionalFor, ends_bind, ends_spanFrom, ends_pure]
  refine expectPunctuation_shown (by simp) shows rfl fun c shows => ?_
  refine optionalBefore_shown readable (.inl rfl) room shows fun test_ c testSame shows => ?_
  refine expectPunctuation_shown (by simp) shows rfl fun c shows => ?_
  refine optionalBefore_shown readable' (.inr rfl) room' shows fun step_ c stepSame shows => ?_
  refine expectPunctuation_shown (by simp [follow.ne_nil]) shows rfl fun c shows => ?_
  refine inner_shown reads room'' follow shows fun body_ c bodySame shows => ⟨?_, shows⟩
  cases head <;> cases head_ <;> simp_all [Stmt.eraseSpans]

/-- Reads the head of a loop, if it is not left out. -/
def forHead (rules : Rules) : Parser ForHead := do
  if ← Parser.atKeyword .var then
    Parser.advance
    return .var (← Parser.definitions rules true)
  else return .expr (← rules.expression true true)

/-- A loop is read from its head on. -/
theorem forStatement_eq (rules : Rules) (around : Surroundings) (start : Position) :
    Parser.forStatement rules around start = (do
      Parser.expectPunctuation '('
      if ← Parser.atPunctuation ';' then Parser.conditionalFor rules around start none
      else
        let head ← forHead rules
        if ← Parser.atOperator "in" then Parser.iteratingFor rules around start head
        else Parser.conditionalFor rules around start (some head)) := by
  unfold Parser.forStatement
  refine bind_congr fun _ => bind_congr fun empty => ?_
  cases empty with
  | true =>
    simp only [if_true, pure_bind]
    rfl
  | false =>
    simp only [Bool.false_eq_true, if_false, forHead, bind_assoc]
    refine bind_congr fun declared => ?_
    cases declared <;> simp

/-- The head of a loop is read back. -/
theorem forHead_shown {head : ForHead} (ih : InHead (ExprReads o) head)
    (faithful : Everywhere Faithful head.parts) {n : Nat} (room : (headFaces head).length ≤ n)
    (ends : binds true x.kind = none) (shows : c.Shows (headFaces head ++ x :: rest))
    {good : ForHead → Cursor → Prop}
    (then_ : ∀ result c', result.eraseSpans = head.eraseSpans → c'.Shows (x :: rest) →
      good result c') :
    Ends (forHead (.upTo (n + 1))) o c good Never := by
  unfold forHead
  cases head with
  | var defs =>
    rw [ForHead.parts, everywhere_cons] at faithful
    simp only [headFaces, loopVarDefsFaces_eq, List.length_cons] at room
    simp only [headFaces, loopVarDefsFaces_eq, List.cons_append] at shows
    have kind : c.token.kind = .keyword .var := shows.kind
    simp only [ends_bind, ends_atKeyword, Token.isKeyword, kind, decide_true, if_true, ends_pure]
    refine advance_shown (by simp) shows fun c shows => ?_
    refine definitions_shown faithful.1 ih faithful.2 (fun _ => rfl) (by omega) ends shows
      fun results c erased shows => then_ _ c ?_ shows
    simp only [ForHead.eraseSpans, erased]
  | expr value =>
    rw [ForHead.parts, everywhere_cons] at faithful
    have reads := (ih faithful.2).sequenceEither (containsIn value)
    obtain ⟨y, more, same, starts⟩ : ∃ y more, headFaces (.expr value) = y :: more ∧
        startsExpression y.kind = true := by
      rw [headFaces]
      split
      · exact ⟨mark '(', _, rfl, rfl⟩
      · obtain ⟨y, more, same, starts, -⟩ := exprFaces_opens value sequenceLevel
        exact ⟨y, more, same, starts⟩
    have other : c.token.isKeyword .var = false := by
      refine isKeyword_of_ne fun kind => ?_
      rw [same] at shows
      rw [← shows.kind, kind] at starts
      exact absurd starts (by decide)
    simp only [ends_bind, ends_atKeyword, other, Bool.false_eq_true, if_false, ends_pure,
      upTo_expression]
    refine (reads n true _ c room (by simp) (follows_of_none ends) shows).mono ?_ fun _ bad => bad
    rintro result c' ⟨erased, shows⟩
    exact then_ _ c' (by simp only [ForHead.eraseSpans, erased]) shows

/-- The tokens of the head of a loop do not begin with a semicolon. -/
theorem headFaces_opens (head : ForHead) :
    ∃ x more, headFaces head = x :: more ∧ x.kind ≠ .punctuation ';' := by
  cases head with
  | var defs => exact ⟨keyword .var, _, rfl, by simp [keyword]⟩
  | expr value =>
    rw [headFaces]
    split
    · exact ⟨mark '(', _, rfl, by simp [mark]⟩
    · obtain ⟨x, more, same, starts, -⟩ := exprFaces_opens value sequenceLevel
      refine ⟨x, more, same, fun kind => ?_⟩
      rw [kind] at starts
      exact absurd starts (by decide)

/-- Loops over conditions. -/
theorem reads_forStmt (span : Option Span) (head : Option ForHead) (test step : Option Expr)
    (body : Stmt) (ih : ∀ h ∈ head, InHead (ExprReads o) h) (ih' : ∀ e ∈ test, ExprReads o e)
    (ih'' : ∀ e ∈ step, ExprReads o e) (body_ : StmtReads o body) :
    StmtReads o (.for span head test step body) := by
  intro faithful around jumps n rest c room follow shows
  have below : (∀ h ∈ head, Everywhere Faithful h.parts) ∧
      Everywhere Faithful (partsOfOptional test) ∧ Everywhere Faithful (partsOfOptional step) ∧
      Everywhere Faithful body.parts := by
    cases head with
    | none =>
      simp only [Stmt.parts, everywhere_cons, everywhere_append] at faithful
      exact ⟨by simp, faithful.2.1.1.2, faithful.2.1.2, faithful.2.2⟩
    | some head =>
      simp only [Stmt.parts, everywhere_cons, everywhere_append] at faithful
      exact ⟨by simpa using faithful.2.1.1.1, faithful.2.1.1.2, faithful.2.1.2, faithful.2.2⟩
  obtain ⟨first, second, third, fourth⟩ := below
  have optional {value : Option Expr} (ih : ∀ e ∈ value, ExprReads o e)
      (fine : Everywhere Faithful (partsOfOptional value)) : ∀ e ∈ value, Readable o e := by
    rintro e rfl
    exact ih e rfl fine
  have faces : stmtFaces (.for span head test step body) = keyword .for :: mark '(' ::
      (optionalHeadFaces head ++ mark ';' :: (optionalFaces test ++ mark ';' :: (optionalFaces step
        ++ mark ')' :: stmtFaces body))) := by
    cases head <;> simp [stmtFaces, optionalHeadFaces]
  rw [faces] at shows room
  simp only [List.length_cons, List.length_append] at room
  simp only [List.cons_append, List.append_assoc] at shows
  obtain ⟨n, rfl⟩ := Nat.exists_eq_succ_of_ne_zero (n := n) (by omega)
  have onwards (start : Position) {c : Cursor} (head_ : Option ForHead)
      (same : head_.map ForHead.eraseSpans = head.map ForHead.eraseSpans) (shows : c.Shows _) :=
    conditionalFor_shown span (optional ih' second) (optional ih'' third)
      (body_ fourth around.looping jumps) (n := n) (by omega) (by omega) (by omega) follow shows start same
  refine keyword_shown .for rfl shows (by simp) fun start c shows => ?_
  rw [Parser.keywordStatement, forStatement_eq, ends_bind]
  refine expectPunctuation_shown (by simp) shows rfl fun c shows => ?_
  rw [ends_bind, ends_atPunctuation]
  cases head with
  | none =>
    have kind : c.token.kind = .punctuation ';' := shows.kind
    simp only [Token.isPunctuation, kind, decide_true, if_true]
    exact onwards start none rfl shows
  | some head =>
    simp only [optionalHeadFaces] at room
    obtain ⟨x, more, same, other⟩ := headFaces_opens head
    have present : c.token.isPunctuation ';' = false := by
      refine isPunctuation_of_ne ?_
      simp only [optionalHeadFaces, same] at shows
      exact shows.kind ▸ other
    simp only [present, Bool.false_eq_true, if_false, ends_bind, ends_atOperator]
    refine forHead_shown (ih head rfl) (first head rfl) (by omega) rfl shows
      fun head_ c headSame shows => ?_
    have kind : c.token.kind = .punctuation ';' := shows.kind
    simp only [Token.isOperator, kind, Bool.false_eq_true, if_false]
    exact onwards start (some head_) (by simp [headSame]) shows

/-- Loops over keys. -/
theorem reads_forIn (span : Option Span) (head : ForHead) (object : Expr) (body : Stmt)
    (ih : InHead (ExprReads o) head) (ih' : ExprReads o object) (ih'' : StmtReads o body) :
    StmtReads o (.forIn span head object body) := by
  intro faithful around jumps n rest c room follow shows
  simp only [Stmt.parts, everywhere_cons, everywhere_append] at faithful
  obtain ⟨single, ⟨first, second⟩, third⟩ := faithful
  simp only [stmtFaces, List.length_cons, List.length_append] at room
  simp only [stmtFaces, List.cons_append, List.append_assoc] at shows
  obtain ⟨n, rfl⟩ := Nat.exists_eq_succ_of_ne_zero (n := n) (by omega)
  refine keyword_shown .for rfl shows (by simp) fun start c shows => ?_
  rw [Parser.keywordStatement, forStatement_eq, ends_bind]
  refine expectPunctuation_shown (by simp) shows rfl fun c shows => ?_
  obtain ⟨x, more, same, other⟩ := headFaces_opens head
  have present : c.token.isPunctuation ';' = false := by
    refine isPunctuation_of_ne ?_
    rw [same] at shows
    exact shows.kind ▸ other
  simp only [ends_bind, ends_atPunctuation, present, Bool.false_eq_true, if_false, ends_atOperator]
  refine forHead_shown ih first (by omega) (by decide) shows fun head_ c headSame shows => ?_
  have kind : c.token.kind = .operator "in" := shows.kind
  have accepted {good : Stmt → Cursor → Prop}
      (then_ : Ends (do
        Parser.advance
        let object ← (Rules.upTo (n + 1)).expression true false
        Parser.expectPunctuation ')'
        let body ← (Rules.upTo (n + 1)).statement around.looping
        return .forIn (← Parser.spanFrom start) head_ object body) o c good Never) :
      Ends (Parser.iteratingFor (.upTo (n + 1)) around start head_) o c good Never := by
    unfold Parser.iteratingFor
    split
    · rename_i first second others
      cases head with
      | var defs =>
        obtain ⟨d, rfl⟩ := single
        simp [ForHead.eraseSpans] at headSame
      | expr value => simp [ForHead.eraseSpans] at headSame
    · exact then_
  simp only [Token.isOperator, kind, decide_true, if_true]
  refine accepted ?_
  simp only [ends_bind, ends_spanFrom, ends_pure]
  refine advance_shown (by simp) shows fun c shows => ?_
  refine expression_shown (ih' second) (by omega) rfl shows fun object_ c objectSame shows => ?_
  refine expectPunctuation_shown (by simp [follow.ne_nil]) shows rfl fun c shows => ?_
  refine inner_shown (ih'' third around.looping jumps) (by omega) follow shows
    fun body_ c bodySame shows => ⟨?_, shows⟩
  simp only [Stmt.eraseSpans, headSame, objectSame, bodySame]

/-! ## Switches -/

/-- Adding to the last branch. -/
theorem addToLast_append (s : Stmt) (done : List SwitchCase) (test : Option Expr)
    (body : List Stmt) :
    Parser.addToLast s (done ++ [.mk test body]) = done ++ [.mk test (body ++ [s])] := by
  induction done with
  | nil => rfl
  | cons case done ih =>
    obtain ⟨first, statements⟩ := case
    cases done with
    | nil => rfl
    | cons second done =>
      rw [List.cons_append, List.cons_append] at ih ⊢
      rw [Parser.addToLast, ih]
      · rfl
      · simp

/-- The step of the loop over the branches of a switch. -/
def switchStep (rules : Rules) (around : Surroundings) (cases : List SwitchCase) :
    Parser (List SwitchCase ⊕ List SwitchCase) := do
  if ← Parser.atPunctuation '\x7d' then return .inr cases
  if ← Parser.atKeyword .case then
    Parser.advance
    let test ← rules.expression true false
    Parser.expectPunctuation ':'
    return .inl (cases ++ [.mk (some test) []])
  if ← Parser.atKeyword .default then
    Parser.advance
    Parser.expectPunctuation ':'
    return .inl (cases ++ [.mk none []])
  if cases.isEmpty then Parser.unexpected
  let statement ← rules.statement around.looping
  return .inl (Parser.addToLast statement cases)

/-- The branches of a switch are gathered by a loop. -/
theorem switchStatement_eq (rules : Rules) (around : Surroundings) (start : Position) :
    Parser.switchStatement rules around start = (do
      let discriminant ← Parser.parenthesised rules
      Parser.expectPunctuation '\x7b'
      let cases ← Parser.loop (switchStep rules around) []
      Parser.advance
      return .switch (← Parser.spanFrom start) discriminant cases) := rfl

/-- A statement of a branch is added to the last branch. -/
theorem ends_switchStep {s : Stmt} {cases : List SwitchCase} (some_ : cases ≠ []) {rules : Rules}
    (shows : c.Shows (stmtFaces s ++ rest))
    {good : List SwitchCase ⊕ List SwitchCase → Cursor → Prop} {bad : Failure → Prop} :
    Ends (switchStep rules around cases) o c good bad ↔
      Ends (rules.statement around.looping) o c
        (fun result behind => good (.inl (Parser.addToLast result cases)) behind) bad := by
  have noClose : c.token.isPunctuation '\x7d' = false := isPunctuation_of_ne (stmt_apart shows rfl)
  have noCase : c.token.isKeyword .case = false := isKeyword_of_ne (stmt_apart shows rfl)
  have noDefault : c.token.isKeyword .default = false := isKeyword_of_ne (stmt_apart shows rfl)
  have gathered : cases.isEmpty = false := by simpa using some_
  simp only [switchStep, ends_bind, ends_atPunctuation, ends_atKeyword, noClose, noCase, noDefault,
    gathered, Bool.false_eq_true, if_false, ends_pure]

/-- The statements of a branch are read back one by one. -/
theorem branch_shown {n : Nat} {done : List SwitchCase} {test : Option Expr} {body : List Stmt}
    (reads : ∀ s ∈ body, ReadsStmt o around.looping s)
    (room : ∀ s ∈ body, (stmtFaces s).length ≤ n) (follow : MayFollow true rest)
    {good : List SwitchCase → Cursor → Prop} (got : List Stmt)
    (then_ : ∀ read k c', read.map Stmt.eraseSpans = body.map Stmt.eraseSpans → c'.Shows rest →
      rest.length ≤ k →
      Ends (Parser.loopWithin (switchStep (.upTo (n + 1)) around) k (done ++ [.mk test (got ++ read)]))
        o c' good Never) :
    ∀ k c, c.Shows (stmtsFaces body ++ rest) → (stmtsFaces body ++ rest).length ≤ k →
      Ends (Parser.loopWithin (switchStep (.upTo (n + 1)) around) k (done ++ [.mk test got])) o c good
        Never := by
  induction body generalizing got with
  | nil =>
    intro k c shows enough
    simpa using then_ [] k c rfl shows enough
  | cons s body ih =>
    intro k c shows enough
    rw [stmtsFaces, List.append_assoc] at shows enough
    obtain ⟨x, more, same, -⟩ := stmtFaces_starts s
    rw [List.length_append, same, List.length_cons] at enough
    obtain ⟨k, rfl⟩ := Nat.exists_eq_succ_of_ne_zero (n := k) (by omega)
    have next : MayFollow true (stmtsFaces body ++ rest) := by
      cases body with
      | nil => exact follow
      | cons second body =>
        rw [stmtsFaces, List.append_assoc]
        exact stmtFaces_mayFollow second _
    rw [ends_loopWithin, ends_switchStep (by simp) shows]
    refine inner_shown (reads s (by simp)) (room s (by simp)) (next.all _) shows
      fun result c erased shows => ?_
    simp only [addToLast_append]
    refine ih (fun s listed => reads s (List.mem_cons_of_mem _ listed))
      (fun s listed => room s (List.mem_cons_of_mem _ listed)) (got ++ [result]) ?_ k c shows
      (by omega)
    intro read k c' others shows enough
    rw [List.append_assoc]
    exact then_ (result :: read) k c' (by rw [List.map_cons, erased, others, List.map_cons]) shows enough

/-- The branches of a switch are read back one by one. -/
theorem cases_shown {n : Nat} {cases : List SwitchCase} (ih : InCases (ExprReads o) (StmtReads o) cases)
    (faithful : Everywhere Faithful (partsOfCases cases)) (jumps : scopedCases around.looping cases)
    (room : (casesFaces cases).length ≤ n) :
    ∀ done k c, c.Shows (casesFaces cases ++ mark '\x7d' :: rest) →
      (casesFaces cases ++ mark '\x7d' :: rest).length ≤ k →
      Ends (Parser.loopWithin (switchStep (.upTo (n + 1)) around) k done) o c
        (fun results c' => ∃ more, results = done ++ more ∧
          more.map SwitchCase.eraseSpans = cases.map SwitchCase.eraseSpans ∧
          c'.Shows (mark '\x7d' :: rest)) Never := by
  induction cases with
  | nil =>
    intro done k c shows enough
    obtain ⟨k, rfl⟩ := Nat.exists_eq_succ_of_ne_zero (n := k)
      (by simp only [List.length_append, List.length_cons] at enough; omega)
    have kind : c.token.kind = .punctuation '\x7d' := shows.kind
    rw [ends_loopWithin]
    simp only [switchStep, ends_bind, ends_atPunctuation, Token.isPunctuation, kind, decide_true,
      if_true, ends_pure]
    exact ⟨[], by simp, rfl, shows⟩
  | cons case cases others =>
    obtain ⟨test, body⟩ := case
    rw [partsOfCases, everywhere_append, SwitchCase.parts, everywhere_cons, everywhere_append]
      at faithful
    obtain ⟨⟨-, fineTest, fineBody⟩, fine⟩ := faithful
    obtain ⟨bodyJumps, moreJumps⟩ := jumps
    obtain ⟨ihTest, ihBody⟩ := ih test body (by simp)
    have following_ := others (fun test body listed => ih test body (List.mem_cons_of_mem _ listed)) fine
      moreJumps
    intro done k c shows enough
    -- Behind the mark of a branch come its statements, and behind these the other branches.
    have inside (test_ : Option Expr) (same : eraseOptional test_ = eraseOptional test) (k : Nat)
        (c : Cursor) (shows : c.Shows (stmtsFaces body ++ (casesFaces cases ++ mark '\x7d' :: rest)))
        (roomBody : (stmtsFaces body).length ≤ n) (roomCases : (casesFaces cases).length ≤ n)
        (enough : (stmtsFaces body ++ (casesFaces cases ++ mark '\x7d' :: rest)).length ≤ k) :
        Ends (Parser.loopWithin (switchStep (.upTo (n + 1)) around) k (done ++ [.mk test_ []])) o c
          (fun results c' => ∃ more, results = done ++ more ∧
            more.map SwitchCase.eraseSpans
              = (SwitchCase.mk test body :: cases).map SwitchCase.eraseSpans ∧
            c'.Shows (mark '\x7d' :: rest)) Never := by
      have next : MayFollow true (casesFaces cases ++ mark '\x7d' :: rest) := by
        cases cases with
        | nil => exact ⟨mark '\x7d', rest, rfl, by simp [mark], by simp [mark]⟩
        | cons second cases =>
          obtain ⟨test, body⟩ := second
          cases test with
          | none => exact ⟨keyword .default, _, by rw [casesFaces]; rfl, by simp [keyword],
            by simp [keyword]⟩
          | some test => exact ⟨keyword .case, _, by rw [casesFaces]; rfl, by simp [keyword],
            by simp [keyword]⟩
      refine branch_shown
        (fun s listed => ihBody s listed (everywhere_stmts.1 fineBody s listed) around.looping
          (scopedStmts_iff.1 bodyJumps s listed))
        (fun s listed => Nat.le_trans (length_le_stmtsFaces listed) roomBody) next [] ?_ k c shows enough
      intro read k c' erased shows enough
      refine (following_ roomCases _ k c' shows enough).mono ?_ fun _ bad => bad
      rintro _ c'' ⟨more, rfl, erased', shows⟩
      refine ⟨.mk test_ read :: more, by simp, ?_, shows⟩
      rw [List.map_cons, List.map_cons, erased', SwitchCase.eraseSpans, SwitchCase.eraseSpans, same,
        eraseStmts_eq, eraseStmts_eq, erased]
    cases test with
    | none =>
      simp only [casesFaces, List.cons_append, List.append_assoc] at shows enough
      simp only [casesFaces, List.length_cons, List.length_append] at room
      simp only [List.length_cons] at enough
      obtain ⟨k, rfl⟩ := Nat.exists_eq_succ_of_ne_zero (n := k) (by omega)
      have kind : c.token.kind = .keyword .default := shows.kind
      rw [ends_loopWithin]
      simp only [switchStep, ends_bind, ends_atPunctuation, ends_atKeyword, Token.isPunctuation,
        Token.isKeyword, kind, decide_true, decide_false, reduceCtorEq, Bool.false_eq_true, if_false,
        if_true, ends_pure]
      refine advance_shown (by simp) shows fun c shows => ?_
      refine expectPunctuation_shown (by simp) shows rfl fun c shows => ?_
      exact inside none rfl k c shows (by omega) (by omega) (by omega)
    | some test =>
      simp only [casesFaces, List.cons_append, List.append_assoc] at shows enough
      simp only [casesFaces, List.length_cons, List.length_append] at room
      simp only [List.length_cons, List.length_append] at enough
      obtain ⟨k, rfl⟩ := Nat.exists_eq_succ_of_ne_zero (n := k) (by omega)
      have kind : c.token.kind = .keyword .case := shows.kind
      rw [ends_loopWithin]
      simp only [switchStep, ends_bind, ends_atPunctuation, ends_atKeyword, Token.isPunctuation,
        Token.isKeyword, kind, decide_true, Bool.false_eq_true, if_false, if_true, ends_pure]
      refine advance_shown (by simp) shows fun c shows => ?_
      refine expression_shown (ihTest test rfl fineTest) (by omega) rfl shows
        fun test_ c testSame shows => ?_
      refine expectPunctuation_shown (by simp) shows rfl fun c shows => ?_
      refine inside (some test_) (by simp only [eraseOptional, testSame]) k c shows (by omega)
        (by omega) ?_
      simp only [List.length_append, List.length_cons]
      omega

/-- Switches. -/
theorem reads_switch (span : Option Span) (discriminant : Expr) (cases : List SwitchCase)
    (ih : ExprReads o discriminant) (ih' : InCases (ExprReads o) (StmtReads o) cases) :
    StmtReads o (.switch span discriminant cases) := by
  intro faithful around jumps n rest c room follow shows
  rw [Stmt.parts, everywhere_cons, everywhere_append] at faithful
  obtain ⟨-, first, second⟩ := faithful
  obtain ⟨z, rest, rfl⟩ := List.exists_cons_of_ne_nil follow.ne_nil
  simp only [stmtFaces, List.length_cons, List.length_append, enclosed, braced] at room
  simp only [stmtFaces, List.cons_append, List.append_assoc] at shows
  obtain ⟨n, rfl⟩ := Nat.exists_eq_succ_of_ne_zero (n := n) (by omega)
  refine keyword_shown .switch rfl shows (by simp [enclosed]) fun start c shows => ?_
  rw [Parser.keywordStatement, switchStatement_eq]
  simp only [ends_bind, ends_spanFrom, ends_pure]
  refine parenthesised_shown (ih first) (by omega) (by simp [braced]) shows
    fun discriminant_ c discriminantSame shows => ?_
  simp only [braced, List.cons_append, List.append_assoc, List.nil_append] at shows
  refine expectPunctuation_shown (by simp) shows rfl fun c shows => ?_
  refine loop_shown shows fun k enough => ?_
  refine (cases_shown ih' second jumps (by omega) [] k c shows enough).mono ?_ fun _ bad => bad
  rintro _ c ⟨more, rfl, erased, shows⟩
  refine advance_shown (by simp) shows fun c shows => ⟨?_, shows⟩
  simp only [Stmt.eraseSpans, discriminantSame, eraseCases_eq, erased]

/-! ## Handlers for failures -/

/-- Reads the handler of a `try`, if it has one. -/
def handlerPart (rules : Rules) (around : Surroundings) : Parser (Option Handler) := do
  if ← Parser.atKeyword .catch then
    Parser.advance
    Parser.expectPunctuation '('
    let name ← Parser.plainName
    Parser.expectPunctuation ')'
    return some (.mk name (← Parser.block rules around))
  else return none

/-- Reads the statements behind a `finally`, if there are any. -/
def finalizerPart (rules : Rules) (around : Surroundings) : Parser (Option (List Stmt)) := do
  if ← Parser.atKeyword .finally then
    Parser.advance
    return some (← Parser.block rules around)
  else return none

/-- A `try` is read part by part. -/
theorem tryStatement_eq (rules : Rules) (around : Surroundings) (start : Position) :
    Parser.tryStatement rules around start = (do
      let body ← Parser.block rules around
      let handler ← handlerPart rules around
      let finalizer ← finalizerPart rules around
      if handler.isNone && finalizer.isNone then Parser.faultHere .bareTry
      return .tryCatch (← Parser.spanFrom start) body handler finalizer) := by
  unfold Parser.tryStatement
  refine bind_congr fun body => ?_
  simp only [handlerPart, finalizerPart, bind_assoc]
  refine bind_congr fun handled => ?_
  cases handled
  · simp only [Bool.false_eq_true, if_false, pure_bind]
    refine bind_congr fun final => ?_
    cases final <;> simp
  · simp only [if_true, bind_assoc, pure_bind]
    refine bind_congr fun _ => bind_congr fun _ => bind_congr fun _ => bind_congr fun _ =>
      bind_congr fun _ => bind_congr fun final => ?_
    cases final <;> simp

/-- The tokens of the handler of a `try`. -/
def handlerFaces : Option Handler → List Face
  | none => []
  | some (.mk name body) => keyword .catch :: (enclosed [named name] ++ braced (stmtsFaces body))

/-- The tokens of the statements behind a `finally`. -/
def finalizerFaces : Option (List Stmt) → List Face
  | none => []
  | some body => keyword .finally :: braced (stmtsFaces body)

/-- The handler of a `try` is read back. -/
theorem handlerPart_shown {handler : Option Handler}
    (reads : ∀ name body, handler = some (.mk name body) → BodyReads o around body) {n : Nat}
    (room : (handlerFaces handler).length ≤ n) (absent : handler = none → x.kind ≠ .keyword .catch)
    (shows : c.Shows (handlerFaces handler ++ x :: rest)) {good : Option Handler → Cursor → Prop}
    (then_ : ∀ result c', result.map Handler.eraseSpans = handler.map Handler.eraseSpans →
      c'.Shows (x :: rest) → good result c') :
    Ends (handlerPart (.upTo n) around) o c good Never := by
  unfold handlerPart
  rcases handler with _ | ⟨name, body⟩
  · have other : c.token.isKeyword .catch = false := isKeyword_of_ne (shows.kind ▸ absent rfl)
    simp only [ends_bind, ends_atKeyword, other, Bool.false_eq_true, if_false, ends_pure]
    exact then_ none c rfl shows
  · simp only [handlerFaces, enclosed, braced, List.length_cons, List.length_append] at room
    simp only [handlerFaces, enclosed, List.cons_append, List.nil_append] at shows
    have kind : c.token.kind = .keyword .catch := shows.kind
    simp only [ends_bind, ends_atKeyword, Token.isKeyword, kind, decide_true, if_true, ends_pure]
    refine advance_shown (by simp) shows fun c shows => ?_
    refine expectPunctuation_shown (by simp) shows rfl fun c shows => ?_
    refine plainName_shown shows fun c shows => ?_
    refine expectPunctuation_shown (by simp) shows rfl fun c shows => ?_
    refine reads name body rfl n _ c _ (by omega) (by simp) shows fun results c erased shows => ?_
    exact then_ _ c (by simp only [Option.map_some, Handler.eraseSpans, erased]) shows

/-- The statements behind a `finally` are read back. -/
theorem finalizerPart_shown {finalizer : Option (List Stmt)}
    (reads : ∀ body, finalizer = some body → BodyReads o around body) {n : Nat}
    (room : (finalizerFaces finalizer).length ≤ n) (follow : MayFollow false rest)
    (shows : c.Shows (finalizerFaces finalizer ++ rest)) {good : Option (List Stmt) → Cursor → Prop}
    (then_ : ∀ result c', result.map eraseStmts = finalizer.map eraseStmts → c'.Shows rest →
      good result c') :
    Ends (finalizerPart (.upTo n) around) o c good Never := by
  obtain ⟨x, rest, rfl, absent, -⟩ := follow
  unfold finalizerPart
  cases finalizer with
  | none =>
    have other : c.token.isKeyword .finally = false := isKeyword_of_ne (shows.kind ▸ absent)
    simp only [ends_bind, ends_atKeyword, other, Bool.false_eq_true, if_false, ends_pure]
    exact then_ none c rfl shows
  | some body =>
    simp only [finalizerFaces, braced, List.length_cons, List.length_append] at room
    simp only [finalizerFaces, List.cons_append] at shows
    have kind : c.token.kind = .keyword .finally := shows.kind
    simp only [ends_bind, ends_atKeyword, Token.isKeyword, kind, decide_true, if_true, ends_pure]
    refine advance_shown (by simp) shows fun c shows => ?_
    refine reads body rfl n _ c _ (by omega) (by simp) shows fun results c erased shows => ?_
    exact then_ _ c (by simp only [Option.map_some, erased]) shows

/-- Statements with handlers for failures. -/
theorem reads_tryCatch (span : Option Span) (body : List Stmt) (handler : Option Handler)
    (finalizer : Option (List Stmt)) (ih : ∀ s ∈ body, StmtReads o s)
    (ih' : ∀ name body, handler = some (.mk name body) → ∀ s ∈ body, StmtReads o s)
    (ih'' : ∀ body, finalizer = some body → ∀ s ∈ body, StmtReads o s) :
    StmtReads o (.tryCatch span body handler finalizer) := by
  intro faithful around jumps n rest c room follow shows
  have faces : stmtFaces (.tryCatch span body handler finalizer)
      = keyword .try :: (braced (stmtsFaces body) ++ (handlerFaces handler ++ finalizerFaces finalizer)) := by
    rcases handler with _ | ⟨name, recovery⟩ <;> rcases finalizer with _ | cleanup <;>
      simp [stmtFaces, handlerFaces, finalizerFaces]
  obtain ⟨handled, fine, fineParts, fineFinalizer⟩ := everywhere_tryCatch.1 faithful
  have handled : handler.isSome = true ∨ finalizer.isSome = true := handled
  have fineHandler (name : String) (body : List Stmt) (same : handler = some (.mk name body)) :
      Everywhere Faithful (partsOfStmts body) :=
    ((everywhere_cons _ _).1 (fineParts _ same)).2
  obtain ⟨bodyJumps, handlerJumps, finalizerJumps⟩ := scoped_tryCatch.1 jumps
  rw [faces] at shows room
  simp only [List.length_cons, List.length_append, braced] at room
  simp only [List.cons_append, List.append_assoc] at shows
  refine keyword_shown .try rfl shows (by simp [braced]) fun start c shows => ?_
  rw [Parser.keywordStatement, tryStatement_eq]
  simp only [ends_bind]
  -- What follows the handler: a `finally`, or what follows the whole.
  obtain ⟨x, more, next, noCatch⟩ : ∃ x more, finalizerFaces finalizer ++ rest = x :: more ∧
      (handler = none → x.kind ≠ .keyword .catch) := by
    obtain ⟨z, rest, rfl, -⟩ := follow
    cases finalizer with
    | none => exact ⟨z, rest, rfl, fun none_ => absurd handled (by simp [none_])⟩
    | some body => exact ⟨keyword .finally, _, rfl, fun _ => by simp [keyword]⟩
  refine block_reads ih fine bodyJumps n _ c _ (by omega) (by simp [next]) shows
    fun body_ c bodySame shows => ?_
  rw [next] at shows
  refine handlerPart_shown (fun name body same => block_reads (ih' name body same)
    (fineHandler name body same) (handlerJumps name body same)) (by omega) noCatch shows
    fun handler_ c handlerSame shows => ?_
  rw [← next] at shows
  refine finalizerPart_shown (fun body same => block_reads (ih'' body same)
    (fineFinalizer body same) (finalizerJumps body same)) (by omega) follow shows
    fun finalizer_ c finalizerSame shows => ?_
  have known : (handler_.isNone && finalizer_.isNone) = false := by
    have first := congrArg Option.isSome handlerSame
    have second := congrArg Option.isSome finalizerSame
    simp only [Option.isSome_map] at first second
    rcases handled with some_ | some_
    · simp [← Option.not_isSome, first, some_]
    · simp [← Option.not_isSome, second, some_]
  simp only [known, Bool.false_eq_true, if_false, ends_bind, ends_spanFrom, ends_pure]
  refine ⟨?_, shows⟩
  cases handler <;> cases handler_ <;> cases finalizer <;> cases finalizer_ <;>
    simp_all [Stmt.eraseSpans]

/-! ## Jumps -/

/-- Tokens of which the first is on the line of the one before look like the same tokens anywhere. -/
theorem Cursor.Shows.joined {faces : List Face} (some_ : faces ≠ [])
    (shows : c.Shows (joinedFirst faces ++ rest)) :
    c.Shows (faces ++ rest) ∧ c.token.afterBreak = false := by
  obtain ⟨x, more, rfl⟩ := List.exists_cons_of_ne_nil some_
  obtain ⟨fits, others⟩ := shows
  refine ⟨⟨⟨fits.kind, fun _ => fits.joined rfl, fits.start⟩, others⟩, fits.joined rfl⟩

/-- Joining does not change the number of tokens. -/
theorem length_joinedFirst (faces : List Face) : (joinedFirst faces).length = faces.length := by
  cases faces <;> rfl

/-- A semicolon may not be left out before a token on the same line that is no closing brace. -/
theorem ends_mayOmitSemicolon (near : c.token.afterBreak = false) (more : c.token.kind ≠ .eof)
    (open_ : c.token.kind ≠ .punctuation '\x7d') {good : Bool → Cursor → Prop}
    {bad : Failure → Prop} :
    Ends Parser.mayOmitSemicolon o c good bad ↔ good false c := by
  simp only [Parser.mayOmitSemicolon, ends_bind, ends_current, ends_read, near,
    Token.isEof_of_ne more, isPunctuation_of_ne open_, Bool.or_self, Bool.and_false, ends_pure]

/-- Returns. -/
theorem reads_returnStmt (span : Option Span) (value : Option Expr)
    (ih : ∀ e ∈ value, ExprReads o e) : StmtReads o (.return span value) := by
  intro faithful around jumps n rest c room follow shows
  rw [Stmt.parts, everywhere_cons] at faithful
  obtain ⟨z, rest, rfl⟩ := List.exists_cons_of_ne_nil follow.ne_nil
  have inside : around.inFunction = true := jumps
  cases value with
  | none =>
    refine keyword_shown .return rfl shows (by simp [ending]) fun start c shows => ?_
    have kind : c.token.kind = .punctuation ';' := shows.kind
    simp only [Parser.keywordStatement, Parser.returnStatement, inside, Bool.not_true,
      Bool.false_eq_true, if_false, ends_bind, ends_atPunctuation, Token.isPunctuation, kind,
      decide_true, if_true, ends_pure, ends_spanFrom]
    exact advance_shown (by simp) shows fun c shows => ⟨rfl, shows⟩
  | some value =>
    simp only [stmtFaces, optionalFaces, List.length_cons, List.length_append,
      length_joinedFirst] at room
    simp only [stmtFaces, optionalFaces, List.cons_append, List.append_assoc] at shows
    obtain ⟨n, rfl⟩ := Nat.exists_eq_succ_of_ne_zero (n := n) (by omega)
    refine keyword_shown .return rfl shows (by simp [ending]) fun start c shows => ?_
    obtain ⟨shows, near⟩ := shows.joined (exprFaces_ne_nil _ value)
    have other : c.token.isPunctuation ';' = false := isPunctuation_of_ne (expr_apart shows rfl)
    simp only [Parser.keywordStatement, Parser.returnStatement, inside, Bool.not_true,
      Bool.false_eq_true, if_false, ends_bind, ends_atPunctuation, other,
      ends_mayOmitSemicolon near (expr_apart shows rfl) (expr_apart shows rfl), ends_pure,
      ends_spanFrom]
    refine expression_shown (ih value rfl faithful.2) (by omega) rfl shows
      fun result c erased shows => ?_
    refine semicolon_shown (by simp) shows rfl fun c shows => ⟨?_, shows⟩
    simp only [Stmt.eraseSpans, eraseOptional, erased]

/-- Throws. -/
theorem reads_throwStmt (span : Option Span) (value : Expr) (ih : ExprReads o value) :
    StmtReads o (.throw span value) := by
  intro faithful around _ n rest c room follow shows
  rw [Stmt.parts, everywhere_cons] at faithful
  obtain ⟨z, rest, rfl⟩ := List.exists_cons_of_ne_nil follow.ne_nil
  simp only [stmtFaces, List.length_cons, List.length_append, length_joinedFirst] at room
  simp only [stmtFaces, List.cons_append, List.append_assoc] at shows
  obtain ⟨n, rfl⟩ := Nat.exists_eq_succ_of_ne_zero (n := n) (by omega)
  refine keyword_shown .throw rfl shows (by simp [ending]) fun start c shows => ?_
  obtain ⟨shows, near⟩ := shows.joined (exprFaces_ne_nil _ value)
  simp only [Parser.keywordStatement, Parser.throwStatement, ends_bind, ends_current, near,
    Bool.false_eq_true, if_false, ends_pure, ends_spanFrom]
  refine expression_shown (ih faithful.2) (by omega) rfl shows fun result c erased shows => ?_
  refine semicolon_shown (by simp) shows rfl fun c shows => ⟨?_, shows⟩
  simp only [Stmt.eraseSpans, erased]

/-- The target of a jump is read back. -/
theorem jumpTarget_shown {label : Option String} (target : JumpScoped around label) (k : Keyword)
    (shows : c.Shows (labelFaces label ++ (ending ++ x :: rest)))
    {good : Option String → Cursor → Prop}
    (then_ : ∀ c', c'.Shows (x :: rest) → good label c') :
    Ends (Parser.jumpTarget around k) o c good Never := by
  unfold Parser.jumpTarget
  cases label with
  | none =>
    have kind : c.token.kind = .punctuation ';' := shows.kind
    have inside : around.inLoop = true := target
    simp only [Parser.mayOmitSemicolon, ends_bind, ends_current, ends_read, ends_pure, ends_currentKind, kind, inside,
      Bool.not_true, Bool.false_eq_true, if_false]
    exact semicolon_shown (by simp) shows rfl then_
  | some label =>
    have kind : c.token.kind = .name label := shows.kind
    have near : c.token.afterBreak = false := shows.1.joined rfl
    have known : around.labels.contains label = true := target
    simp only [ends_bind, ends_mayOmitSemicolon near (kind ▸ by simp) (kind ▸ by simp),
      ends_currentKind, kind, ends_pure, known, Bool.not_true, Bool.false_eq_true, if_false]
    refine advance_shown (by simp [ending]) shows fun c shows => ?_
    exact semicolon_shown (by simp) shows rfl then_

/-- Breaks. -/
theorem reads_breakStmt (span : Option Span) (label : Option String) :
    StmtReads o (.break span label) := by
  intro _ around jumps n rest c room follow shows
  obtain ⟨z, rest, rfl⟩ := List.exists_cons_of_ne_nil follow.ne_nil
  simp only [stmtFaces, List.cons_append, List.append_assoc] at shows
  refine keyword_shown .break rfl shows (by simp [ending]) fun start c shows => ?_
  simp only [Parser.keywordStatement, ends_bind, ends_spanFrom, ends_pure]
  exact jumpTarget_shown jumps .break shows fun c shows => ⟨rfl, shows⟩

/-- Continues. -/
theorem reads_continueStmt (span : Option Span) (label : Option String) :
    StmtReads o (.continue span label) := by
  intro _ around jumps n rest c room follow shows
  obtain ⟨z, rest, rfl⟩ := List.exists_cons_of_ne_nil follow.ne_nil
  simp only [stmtFaces, List.cons_append, List.append_assoc] at shows
  refine keyword_shown .continue rfl shows (by simp [ending]) fun start c shows => ?_
  simp only [Parser.keywordStatement, ends_bind, ends_spanFrom, ends_pure]
  exact jumpTarget_shown jumps .continue shows fun c shows => ⟨rfl, shows⟩

/-- Labelled statements. -/
theorem reads_labelled (span : Option Span) (label : String) (body : Stmt)
    (ih : StmtReads o body) : StmtReads o (.labelled span label body) := by
  intro faithful around jumps n rest c room follow shows
  rw [Stmt.parts, everywhere_cons] at faithful
  obtain ⟨fresh, bodyJumps⟩ := jumps
  simp only [stmtFaces, List.length_cons] at room
  simp only [stmtFaces, List.cons_append] at shows
  obtain ⟨n, rfl⟩ := Nat.exists_eq_succ_of_ne_zero (n := n) (by omega)
  have kind : c.token.kind = .name label := shows.kind
  simp only [Parser.statement, ends_bind, ends_atOperator, Token.isOperator, kind, Bool.or_self,
    Bool.false_eq_true, if_false, ends_startOfToken, ends_currentKind]
  refine following_shown shows fun token colon => ?_
  have labelled_ : token.isPunctuation ':' = true := by
    rw [Token.isPunctuation, colon]
    rfl
  simp only [labelled_, if_true, ends_bind]
  refine advance_shown (by simp) shows fun c shows => ?_
  refine advance_shown (by simp [follow.ne_nil]) shows fun c shows => ?_
  simp only [Parser.labelledStatement, fresh, Bool.false_eq_true, if_false, ends_bind, ends_spanFrom,
    ends_pure]
  refine inner_shown (ih faithful.2 (around.labelled label) bodyJumps) (by omega) follow shows
    fun body_ c bodySame shows => ⟨?_, shows⟩
  simp only [Stmt.eraseSpans, bodySame]

/-- Breakpoints. -/
theorem reads_debuggerStmt (span : Option Span) : StmtReads o (.debugger span) := by
  intro _ around _ n rest c room follow shows
  obtain ⟨z, rest, rfl⟩ := List.exists_cons_of_ne_nil follow.ne_nil
  refine keyword_shown .debugger rfl shows (by simp [ending]) fun start c shows => ?_
  simp only [Parser.keywordStatement, ends_bind, ends_spanFrom, ends_pure]
  exact semicolon_shown (by simp) shows rfl fun c shows => ⟨rfl, shows⟩

end

/-! ## All trees -/

/-- Every construct is read back when its parts are. -/
theorem reading_steps {o : Options} (lenient : o.strict = false) :
    Induction (ExprReads o) (PropertyReads o) (FunctionReads o) (StmtReads o) where
  num := reads_num
  string := reads_string
  name := reads_name
  atom := reads_atomName
  regexp := reads_regexp
  array := reads_array
  object := reads_object
  dot := reads_dot
  sub := reads_sub
  call := reads_call
  new := reads_new
  prefixOp := reads_prefixOp lenient
  postfixOp := reads_postfixOp lenient
  binary := reads_binary
  conditional := reads_conditional
  assign := reads_assign lenient
  seq := reads_seq
  function := reads_function
  init := reads_init
  getter key fn ih faithful n rest c room continues shows := by
    rw [Property.parts, everywhere_cons] at faithful
    obtain ⟨x, rest, rfl, -⟩ := continues
    simp only [propertyFaces, List.length_cons] at room
    refine accessor_shown (.inl rfl) ih faithful.1 faithful.2 (by omega) shows
      fun result c erased shows => ⟨?_, shows⟩
    simp [Property.eraseSpans, erased]
  setter key fn ih faithful n rest c room continues shows := by
    rw [Property.parts, everywhere_cons] at faithful
    obtain ⟨x, rest, rfl, -⟩ := continues
    simp only [propertyFaces, List.length_cons] at room
    refine accessor_shown (.inr rfl) ih faithful.1 faithful.2 (by omega) shows
      fun result c erased shows => ⟨?_, shows⟩
    simp [Property.eraseSpans, erased]
  functionBody name params body ih := fun faithful jumps => block_reads ih faithful jumps
  block := reads_block
  expression := reads_expression
  varStmt := reads_varStmt
  constStmt := reads_constStmt
  ifElse := reads_ifElse
  forStmt := reads_forStmt
  forIn := reads_forIn
  whileStmt := reads_whileStmt
  doWhile := reads_doWhile
  switch := reads_switch
  tryCatch := reads_tryCatch
  defun := reads_defun
  returnStmt := reads_returnStmt
  breakStmt := reads_breakStmt
  continueStmt := reads_continueStmt
  labelled := reads_labelled
  throwStmt := reads_throwStmt
  withStmt := reads_withStmt
  debuggerStmt := reads_debuggerStmt

/-- Every faithful expression is read back from its tokens. -/
theorem exprReads {o : Options} (lenient : o.strict = false) (e : Expr) : ExprReads o e :=
  (reading_steps lenient).expr e

/-- Every faithful statement is read back from its tokens. -/
theorem stmtReads {o : Options} (lenient : o.strict = false) (s : Stmt) : StmtReads o s :=
  (reading_steps lenient).stmt s

end Stencil.Grammar
