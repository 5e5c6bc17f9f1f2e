import Stencil.Proofs.Parsing.SidedExprs
/-!
# Statements in two runs

The rules of statements in two runs that stand beside each other, under any condition on the
expressions that are read. A label is told from a name by the token behind it, which both runs look at;
a slash at the beginning of a statement is read again in both.

Behind `return`, `break` and `continue` a lenient run stops at a line break, and a strict one does not.
A strict first run is followed where no line break stands there.
-/

set_option autoImplicit false

namespace Stencil.Grammar

open Stencil.Syntax
open Stencil.Text (Position Span)
open Stencil.Grammar.Parser

variable {α β : Type}

/-! ## The rest of a jump -/

/-- Reads the end of a jump without a label. -/
def bareJump (around : Surroundings) (keyword : Keyword) : Parser (Option String) := do
  if !around.inLoop then faultHere (.jumpOutside keyword.spelling)
  semicolon
  return none

/-- Reads a jump from behind its keyword, where the semicolon may or may not be left out. -/
def jumpRest (around : Surroundings) (keyword : Keyword) : TokenKind → Bool → Parser (Option String)
  | .name label, false => do
    advance
    if !around.labels.contains label then faultHere (.unknownLabel label)
    semicolon
    return some label
  | _, _ => bareJump around keyword

theorem jumpTarget_eq (around : Surroundings) (keyword : Keyword) :
    jumpTarget around keyword = (do
      let omitted ← mayOmitSemicolon
      jumpRest around keyword (← currentKind) omitted) := by
  unfold jumpTarget
  refine bind_congr fun omitted => bind_congr fun kind => ?_
  cases kind <;> cases omitted <;> rfl

theorem jumpRest_bare {around : Surroundings} {keyword : Keyword} {kind : TokenKind} {omitted : Bool}
    (nameless : ∀ label, kind = .name label → omitted = true) :
    jumpRest around keyword kind omitted = bareJump around keyword := by
  unfold jumpRest
  split
  · next label => exact absurd (nameless label rfl) (by simp)
  · rfl

/-! ## The parts of a switch -/

/-- What stands in the branches of a switch: their tests and statements. -/
def partsInCases : List SwitchCase → List Part
  | [] => []
  | .mk test body :: rest => partsOfOptional test ++ partsOfStmts body ++ partsInCases rest

theorem partsInCases_append (cases : List SwitchCase) (test : Option Expr) :
    partsInCases (cases ++ [.mk test []]) = partsInCases cases ++ partsOfOptional test := by
  induction cases with
  | nil => simp [partsInCases, partsOfStmts]
  | cons first rest ih =>
    obtain ⟨_, _⟩ := first
    simp [partsInCases, ih]

theorem partsInCases_addToLast {cases : List SwitchCase} (some_ : cases ≠ []) (s : Stmt) :
    partsInCases (addToLast s cases) = partsInCases cases ++ s.parts := by
  induction cases with
  | nil => exact absurd rfl some_
  | cons first rest ih =>
    obtain ⟨test, body⟩ := first
    cases rest with
    | nil => simp [addToLast, partsInCases, partsOfStmts_append]
    | cons second rest => simp [addToLast, partsInCases, ih]

theorem partsInCases_subset (cases : List SwitchCase) : partsInCases cases ⊆ partsOfCases cases := by
  induction cases with
  | nil => simp [partsInCases]
  | cons first rest ih =>
    obtain ⟨test, body⟩ := first
    simp only [partsInCases, partsOfCases, SwitchCase.parts, List.cons_append, List.append_assoc,
      List.append_subset]
    exact ⟨fun _ listed => by simp [listed], fun _ listed => by simp [listed],
      fun _ listed => by simp [ih listed]⟩

theorem good_partsOfCases {S : Sides} {cases : List SwitchCase} (good : Everywhere S.Good (partsInCases cases)) :
    Everywhere S.Good (partsOfCases cases) := by
  induction cases with
  | nil => simp [partsOfCases]
  | cons first rest ih =>
    obtain ⟨test, body⟩ := first
    simp only [partsInCases, everywhere_append] at good
    simp [partsOfCases, S.others, good, ih good.2]

/-- The parts of a `try` statement, whichever of its branches it has. -/
theorem subset_tryCatch {span : Option Span} {body : List Stmt} {handler : Option Handler}
    {finalizer : Option (List Stmt)} :
    partsOfStmts body ⊆ (Stmt.tryCatch span body handler finalizer).parts ∧
      (∀ h, handler = some h → h.parts ⊆ (Stmt.tryCatch span body handler finalizer).parts) ∧
      ∀ final, finalizer = some final →
        partsOfStmts final ⊆ (Stmt.tryCatch span body handler finalizer).parts := by
  refine ⟨?_, ?_, ?_⟩
  · rcases handler with _ | ⟨_, _⟩ <;> cases finalizer <;> simp
  · rintro ⟨_, _⟩ rfl _ listed
    rw [Handler.parts, List.mem_cons] at listed
    cases finalizer <;> grind [Stmt.parts, Handler.parts]
  · rintro final rfl _ listed
    rcases handler with _ | ⟨_, _⟩ <;> simp [listed]

section Rules

variable {S : Sides} {R R' : Rules} {c d : Cursor} (sided : R.Sided S R')

include sided

/-! ## Declarations -/

theorem follows_definitionValue (noIn : Bool) :
    S.Follows c d (definitionValue R noIn) (definitionValue R' noIn)
      fun read value _ => S.Holds partsOfOptional read value := by
  unfold definitionValue
  refine follows_atOperator (fun here => ?_) fun _ => ?_
  · exact follows_take (plain_of_operator here) (going_of_operator here) fun _ _ _ =>
      (sided.expression false noIn).next fun e _ _ good _ => follows_pure []
        ⟨by simp [partsOfOptional], good⟩
  · exact follows_pure [] ⟨by simp, by simp [partsOfOptional]⟩

theorem follows_definitions (noIn : Bool) :
    S.Follows c d (definitions R noIn) (definitions R' noIn)
      fun read defs _ => S.Holds partsOfVarDefs read defs := by
  rw [definitions_eq, definitions_eq]
  refine (follows_loopOnly partsOfVarDefs partsOfVarDefs
    (consuming_definitionStep sided.settling noIn) (fun _ _ => Nat.le_refl _)
    (fun defs c' d' good _ => ?_) (by simp [partsOfVarDefs])).mono fun _ _ _ known => known.2
  unfold definitionStep
  refine follows_plainName.next fun name _ _ _ _ =>
    (follows_definitionValue sided noIn).onward fun value _ _ known _ => ?_
  have grown : S.Grows partsOfVarDefs partsOfVarDefs defs (partsOfOptional value ++ [])
      (.inl (defs ++ [.mk name value])) :=
    Sides.Grows.snoc (partsOfVarDefs_append defs _) good
      ⟨by simp, by simp [known, S.others]⟩
  unfold definitionEnd
  refine follows_atPunctuation (fun here => ?_) fun _ => ?_
  · exact follows_takePunctuation here fun _ _ _ => follows_pure [] grown
  · exact follows_pure [] grown

theorem follows_parenthesised :
    S.Follows c d (parenthesised R) (parenthesised R') (S.Read Expr.parts c) := by
  unfold parenthesised
  exact (follows_expectPunctuation '(').then fun _ _ _ _ _ =>
    (sided.expression true false).next fun e _ _ good _ =>
      (follows_expectPunctuation ')').next fun _ _ _ _ _ => follows_pure [] ⟨by simp, good⟩

/-! ## Simple statements -/

omit sided in
theorem follows_expressionStatement {start start' : Position}
    (sequence : S.Follows c d (expression R true false) (expression R' true false)
      (S.Read Expr.parts c))
    (placed : S.first.positions = true → start' = start) :
    S.Follows c d (expressionStatement R start) (expressionStatement R' start')
      (S.Read Stmt.parts c) := by
  unfold expressionStatement
  exact sequence.then fun e _ _ good _ => follows_semicolon.onward fun _ _ _ _ _ =>
    follows_spanFrom placed (follows_pure [] ⟨by simp, by simp [good, S.others]⟩)

theorem follows_throwStatement {start start' : Position}
    (placed : S.first.positions = true → start' = start) :
    S.Follows c d (throwStatement R start) (throwStatement R' start')
      fun read s _ => S.Holds Stmt.parts read s := by
  unfold throwStatement
  refine follows_current fun token _ broke => ?_
  rw [broke]
  split_ifs
  · exact follows_never fun _ _ ran => by cases ran
  · exact (sided.expression true false).then fun e _ _ good _ =>
      follows_semicolon.onward fun _ _ _ _ _ =>
        follows_spanFrom placed (follows_pure [] ⟨by simp, by simp [good, S.others]⟩)

/-! ## Jumps -/

omit sided in
/-- A jump whose label the first run reads is read so by the second. -/
theorem follows_jump {keyword : Keyword} {make : Option Span → Option String → Stmt}
    (parts : ∀ span label, (make span label).parts = [.stmt (make span label)])
    (jumps : ∀ span label, (Part.stmt (make span (some label))).jumpSpan? = span)
    (around : Surroundings) {start start' : Position}
    (placed : S.first.positions = true → start' = start)
    (broken : c.token.afterBreak = true → S.Broken start) :
    S.Follows c d (do let label ← jumpTarget around keyword; return make (← spanFrom start) label)
      (do let label ← jumpTarget around keyword; return make (← spanFrom start') label)
      fun read s _ => S.Holds Stmt.parts read s := by
  have ended {c d : Cursor} (label : Option String) :
      S.Follows c d (do semicolon; let span ← spanFrom start; pure (make span label))
        (do semicolon; let span ← spanFrom start'; pure (make span label)) fun read s _ =>
          S.Holds Stmt.parts read s ∧
            (S.first.positions = true → label.isSome → JumpsFrom start read) := by
    refine follows_semicolon.onward fun _ c' _ _ _ => follows_spanFrom placed ?_
    refine follows_pure (make (spanAt S.first c' start) label).parts
      ⟨⟨by simp, by simp [parts, S.others]⟩, fun positions named => ?_⟩
    obtain ⟨label, rfl⟩ := Option.isSome_iff_exists.1 named
    refine ⟨.stmt (make (spanAt S.first c' start) (some label)), by simp [parts], c'.stop, ?_⟩
    rw [jumps]
    simp [spanAt, positions]
  have bare {c d : Cursor} :
      S.Follows c d (do let label ← bareJump around keyword; return make (← spanFrom start) label)
        (do let label ← bareJump around keyword; return make (← spanFrom start') label)
        fun read s _ => S.Holds Stmt.parts read s := by
    unfold bareJump
    dsimp only
    split_ifs
    · exact follows_never fun _ _ ran => by cases ran
    · simp only [bind_assoc, pure_bind]
      exact (ended none).mono fun _ _ _ known => known.1
  -- the second run looks at its token too, and may see the end of the text
  have nameless (omitted' : Bool)
      (same : ∀ label, c.token.kind = .name label → omits S.first c = true ∧ omitted' = true) :
      S.Follows c d
        (do
          let kind ← currentKind
          let label ← jumpRest around keyword kind (omits S.first c)
          return make (← spanFrom start) label)
        (do
          let kind ← currentKind
          let label ← jumpRest around keyword kind omitted'
          return make (← spanFrom start') label)
        fun read s _ => S.Holds Stmt.parts read s := by
    refine follows_kind_end ?_ ?_
    · rw [jumpRest_bare fun label named => (same label named).1,
        jumpRest_bare fun label named => (same label named).2]
      exact bare
    · rw [jumpRest_bare fun label named => (same label named).1, jumpRest_bare (by simp)]
      exact bare
  rw [jumpTarget_eq]
  simp only [bind_assoc]
  cases omitted : omits S.first c with
  | true =>
    have plain := nameless true fun _ _ => ⟨omitted, rfl⟩
    rw [omitted] at plain
    exact follows_mayOmit omitted plain
  | false =>
    by_cases named : ∃ label, c.token.kind = .name label
    · obtain ⟨label, kind⟩ := named
      refine follows_mayNotOmit omitted broken
        ⟨going_of_kind kind (by simp), by simp [Token.isPunctuation, kind]⟩
        (follows_kind (Sides.FollowsOn.consumes ?_))
      rw [kind]
      unfold jumpRest
      simp only [bind_assoc]
      refine follows_take (plain_of_kind kind (by simp) (by simp) (by simp))
        (going_of_kind kind (by simp)) fun _ _ _ => ?_
      split_ifs
      · exact follows_never fun _ _ ran => by cases ran
      · simp only [bind_assoc, pure_bind]
        exact (ended (some label)).mono fun _ _ _ known => ⟨known.1, fun positions => known.2 positions rfl⟩
    · have plain := nameless (omits S.second d) fun label kind => absurd ⟨label, kind⟩ named
      rw [omitted] at plain
      exact follows_of_looks (looks_mayOmit _ _) (looks_mayOmit _ _) (omitted ▸ plain)

/-- A value that the first run returns is read so by the second. -/
theorem follows_returnStatement (around : Surroundings) {start start' : Position}
    (placed : S.first.positions = true → start' = start)
    (broken : c.token.afterBreak = true → S.Broken start) :
    S.Follows c d (returnStatement R around start) (returnStatement R' around start')
      fun read s _ => S.Holds Stmt.parts read s := by
  have bare {c d : Cursor} :
      S.Follows c d (do return .return (← spanFrom start) none)
        (do return .return (← spanFrom start') none) fun read s _ => S.Holds Stmt.parts read s :=
    follows_spanFrom placed (follows_pure [] ⟨by simp, by simp [partsOfOptional, S.others]⟩)
  unfold returnStatement
  dsimp only
  split_ifs
  · exact follows_never fun _ _ ran => by cases ran
  refine follows_atPunctuation (fun here => ?_) fun _ => ?_
  · exact follows_of_looks (looks_mayOmit _ _) (looks_mayOmit _ _)
      (follows_takePunctuation here fun _ _ _ => bare)
  simp only [Bool.false_eq_true, if_false]
  cases omitted : omits S.first c with
  | true => exact follows_mayOmit omitted bare
  | false =>
    by_cases begins : BeginsValue c.token
    · refine follows_mayNotOmit omitted broken ⟨begins.1, begins.2 _ (by decide)⟩ ?_
      simp only [Bool.false_eq_true, if_false, pure_bind]
      refine ((sided.expression true false).then fun e _ _ good _ =>
        follows_semicolon.onward fun _ c' _ _ _ => follows_spanFrom placed ?_)
      refine follows_pure (Stmt.return (spanAt S.first c' start) (some e)).parts ⟨⟨?_, ?_⟩, ?_⟩
      · simp [partsOfOptional]
      · simp [partsOfOptional, good, S.others]
      · intro positions
        exact ⟨.stmt (.return (spanAt S.first c' start) (some e)), by simp [Stmt.parts], c'.stop,
          by simp [spanAt, positions, Part.jumpSpan?]⟩
    · refine follows_never fun _ _ ran => ?_
      rw [run_behind (looks_mayOmit _ _), omitted, if_neg (by simp)] at ran
      obtain ⟨_, _, ran, -⟩ := run_bind ran
      exact begins (sided.begins ran)

/-! ## Compound statements -/

theorem follows_labelledStatement (around : Surroundings) {start start' : Position} (label : String)
    (placed : S.first.positions = true → start' = start) :
    S.Follows c d (labelledStatement R around start label) (labelledStatement R' around start' label)
      (S.Read Stmt.parts c) := by
  unfold labelledStatement
  dsimp only
  split_ifs
  · exact follows_never fun _ _ ran => by cases ran
  · exact (sided.statement _).then fun body _ _ good _ =>
      follows_spanFrom placed (follows_pure [] ⟨by simp, by simp [good, S.others]⟩)

theorem follows_doStatement (around : Surroundings) {start start' : Position}
    (placed : S.first.positions = true → start' = start) :
    S.Follows c d (doStatement R around start) (doStatement R' around start')
      fun read s _ => S.Holds Stmt.parts read s := by
  unfold doStatement
  refine (sided.statement _).next fun body _ _ good _ => ?_
  dsimp only
  refine follows_atKeyword (fun here => ?_) fun _ => ?_
  · exact follows_take (plain_of_keyword here) (going_of_keyword here) fun _ _ _ =>
      (follows_parenthesised sided).next fun condition _ _ good' _ =>
        follows_semicolon.onward fun _ _ _ _ _ =>
          follows_spanFrom placed (follows_pure [] ⟨by simp, by simp [good, good', S.others]⟩)
  · exact follows_never fun _ _ ran => by cases ran

/-- An optional expression and the punctuation behind it. -/
theorem follows_optionalBefore {closing : Char} {f g : Option Expr → Parser β}
    {goal : List Part → β → Cursor → Prop}
    (next : ∀ e behind behind', Everywhere S.Good (partsOfOptional e) →
      S.Follows behind behind' (f e) (g e) fun more b later => goal (partsOfOptional e ++ more) b later) :
    S.Follows c d (do let e ← optionalBefore R closing; expectPunctuation closing; f e)
      (do let e ← optionalBefore R' closing; expectPunctuation closing; g e) goal := by
  unfold optionalBefore
  simp only [bind_assoc]
  refine follows_atPunctuation (fun here => ?_) fun _ => ?_
  · simp only [if_true, pure_bind]
    exact (follows_expectPunctuation closing).then fun _ _ _ _ _ => next none _ _ (by simp [partsOfOptional])
  · simp only [Bool.false_eq_true, if_false, bind_assoc, pure_bind]
    exact (sided.expression true false).next fun e _ _ good _ =>
      (follows_expectPunctuation closing).next fun _ _ _ _ _ => next (some e) _ _ good

theorem follows_conditionalFor (around : Surroundings) {start start' : Position} {head : Option ForHead}
    (placed : S.first.positions = true → start' = start)
    (good : ∀ h, head = some h → Everywhere S.Good h.parts) :
    S.Follows c d (conditionalFor R around start head) (conditionalFor R' around start' head)
      fun read s behind => ((∀ h, head = some h → h.parts ⊆ s.parts) ∧ S.Holds Stmt.parts read s) ∧
        behind.ahead < c.ahead := by
  unfold conditionalFor
  refine (follows_expectPunctuation ';').then fun _ _ _ _ _ => ?_
  refine follows_optionalBefore sided fun test _ _ good₁ => ?_
  refine follows_optionalBefore sided fun step _ _ good₂ => ?_
  refine (sided.statement _).next fun body _ _ good₃ _ => follows_spanFrom placed (follows_pure [] ?_)
  refine ⟨?_, ?_, ?_⟩
  · rintro h rfl
    simp
  · cases head <;> simp
  · exact everywhere_for.2 ⟨S.others _ (by simp), good, good₁, good₂, good₃⟩

theorem follows_iteratingFor (around : Surroundings) {start start' : Position} {head : ForHead}
    (placed : S.first.positions = true → start' = start) (good : Everywhere S.Good head.parts)
    (here : c.token.isOperator "in" = true) :
    S.Follows c d (iteratingFor R around start head) (iteratingFor R' around start' head)
      fun read s behind => (head.parts ⊆ s.parts ∧ S.Holds Stmt.parts read s) ∧ behind.ahead < c.ahead := by
  have plain : S.Follows c d
      (do
        advance
        let object ← R.expression true false
        expectPunctuation ')'
        let body ← R.statement around.looping
        return .forIn (← spanFrom start) head object body)
      (do
        advance
        let object ← R'.expression true false
        expectPunctuation ')'
        let body ← R'.statement around.looping
        return .forIn (← spanFrom start') head object body)
      fun read s behind =>
        (head.parts ⊆ s.parts ∧ S.Holds Stmt.parts read s) ∧ behind.ahead < c.ahead :=
    follows_take (plain_of_operator here) (going_of_operator here) fun _ _ _ =>
      (sided.expression true false).next fun object _ _ good₁ _ =>
        (follows_expectPunctuation ')').next fun _ _ _ _ _ =>
          (sided.statement _).next fun body _ _ good₂ _ => follows_spanFrom placed
            (follows_pure [] ⟨by simp, by simp, by simp [good, good₁, good₂, S.others]⟩)
  unfold iteratingFor
  dsimp only
  split
  · exact follows_never fun _ _ ran => by cases ran
  · exact plain

theorem follows_forStatement (around : Surroundings) {start start' : Position}
    (placed : S.first.positions = true → start' = start) :
    S.Follows c d (forStatement R around start) (forStatement R' around start')
      fun read s _ => S.Holds Stmt.parts read s := by
  have behind {c d : Cursor} (head : ForHead) (good : Everywhere S.Good head.parts) :
      S.Follows c d
        (do
          if ← atOperator "in" then iteratingFor R around start head
          else conditionalFor R around start (some head))
        (do
          if ← atOperator "in" then iteratingFor R' around start' head
          else conditionalFor R' around start' (some head))
        fun read s _ => head.parts ⊆ s.parts ∧ S.Holds Stmt.parts read s := by
    refine follows_atOperator (fun here => follows_iteratingFor sided around placed good here) fun _ => ?_
    refine (follows_conditionalFor sided around placed ?_).mono fun _ _ _ known =>
      ⟨known.1.1 head rfl, known.1.2⟩
    rintro _ ⟨⟩
    exact good
  unfold forStatement
  refine (follows_expectPunctuation '(').next fun _ c' _ _ _ => ?_
  dsimp only
  refine follows_atPunctuation (fun here => ?_) fun _ => ?_
  · refine follows_of_looks (a := c'.token.isKeyword .var) rfl rfl ?_
    simp only [if_true, pure_bind]
    refine (follows_conditionalFor sided around placed ?_).mono fun _ _ _ known =>
      ⟨known.1.2, known.2⟩
    rintro _ ⟨⟩
  · simp only [Bool.false_eq_true, if_false]
    refine follows_atKeyword (fun here => ?_) fun _ => ?_
    · refine follows_take (plain_of_keyword here) (going_of_keyword here) fun _ _ _ => ?_
      refine (follows_definitions sided true).onward fun defs _ _ good _ => ?_
      simp only [pure_bind]
      refine (behind (.var defs) (by simp [good, S.others])).mono fun read s _ known =>
        ⟨?_, known.2.2⟩
      have kept := known.1
      simp only [ForHead.parts, List.cons_subset] at kept
      simpa using ⟨kept.2, known.2.1⟩
    · refine (sided.expression true true).next fun e _ _ good _ => ?_
      simp only [pure_bind]
      refine (behind (.expr e) (by simp [good, S.others])).mono fun read s _ known =>
        ⟨?_, known.2.2⟩
      have kept := known.1
      simp only [ForHead.parts, List.cons_subset] at kept
      simpa using ⟨kept.2, known.2.1⟩

theorem follows_ifStatement (around : Surroundings) {start start' : Position}
    (placed : S.first.positions = true → start' = start) :
    S.Follows c d (ifStatement R around start) (ifStatement R' around start')
      fun read s _ => S.Holds Stmt.parts read s := by
  unfold ifStatement
  refine (follows_parenthesised sided).next fun condition _ _ good _ =>
    (sided.statement _).next fun thenBranch _ _ good' _ => ?_
  refine follows_atKeyword (fun here => ?_) fun _ => ?_
  · refine follows_take (plain_of_keyword here) (going_of_keyword here) fun _ _ _ =>
      (sided.statement _).next fun elseBranch _ _ good'' _ => ?_
    simp only [pure_bind]
    exact follows_spanFrom placed (follows_pure []
      ⟨by simp, by simp [good, good', good'', S.others]⟩)
  · simp only [Bool.false_eq_true, if_false, pure_bind]
    exact follows_spanFrom placed (follows_pure [] ⟨by simp, by simp [good, good', S.others]⟩)

/-! ## Statements with branches -/

theorem follows_switchStatement (around : Surroundings) {start start' : Position}
    (placed : S.first.positions = true → start' = start) :
    S.Follows c d (switchStatement R around start) (switchStatement R' around start')
      fun read s _ => S.Holds Stmt.parts read s := by
  rw [switchStatement_eq, switchStatement_eq]
  refine (follows_parenthesised sided).next fun discriminant _ _ known _ =>
    (follows_expectPunctuation _).next fun _ c' d' _ _ => ?_
  refine Sides.FollowsOn.mono (follows_loop
    (fun cases => discriminant.parts ++ partsInCases cases) Stmt.parts
    (consuming_switchStep sided.settling around) (fun _ _ => Nat.le_refl _)
    (fun cases c' d' good _ => ?_) (by simp [partsInCases, known])) fun read s _ loops => ?_
  · unfold switchStep
    simp only [bind_assoc]
    refine follows_atPunctuation (fun here => ?_) fun _ => ?_
    · simp only [if_true, pure_bind, behindLast, bind_assoc]
      refine follows_takePunctuation here fun _ _ _ => follows_spanFrom placed (follows_pure [] ?_)
      rw [everywhere_append] at good
      refine ⟨?_, by simp, by simp [known, good_partsOfCases good.2, S.others]⟩
      rw [List.append_subset]
      exact ⟨by simp, fun part listed => by simp [partsInCases_subset cases listed]⟩
    simp only [Bool.false_eq_true, if_false, bind_assoc]
    refine follows_atKeyword (fun here => ?_) fun _ => ?_
    · simp only [if_true, bind_assoc]
      refine follows_take (plain_of_keyword here) (going_of_keyword here) fun _ _ _ =>
        (sided.expression true false).next fun test _ _ good' _ =>
          (follows_expectPunctuation ':').next fun _ _ _ _ _ => ?_
      simp only [pure_bind, behindLast]
      refine follows_pure [] ⟨?_, ?_, ?_⟩
      · simp [partsInCases_append]
      · simp [partsInCases_append, partsOfOptional]
      · simpa [partsInCases_append, partsOfOptional, good'] using good
    simp only [Bool.false_eq_true, if_false, bind_assoc]
    refine follows_atKeyword (fun here => ?_) fun _ => ?_
    · simp only [if_true, bind_assoc]
      refine follows_take (plain_of_keyword here) (going_of_keyword here) fun _ _ _ =>
        (follows_expectPunctuation ':').next fun _ _ _ _ _ => ?_
      simp only [pure_bind, behindLast]
      refine follows_pure [] ⟨?_, ?_, ?_⟩
      · simp [partsInCases_append]
      · simp
      · simpa [partsInCases_append, partsOfOptional] using good
    simp only [Bool.false_eq_true, if_false]
    split_ifs with first
    · simp only [bind_assoc]
      exact follows_unexpected
    · have some_ : cases ≠ [] := by simpa using first
      simp only [bind_assoc, pure_bind, behindLast]
      refine (sided.statement _).next fun s _ _ good' _ => follows_pure [] ⟨?_, ?_, ?_⟩
      · simp [partsInCases_addToLast some_]
      · simp [partsInCases_addToLast some_]
      · simpa [partsInCases_addToLast some_, good'] using good
  · obtain ⟨kept, within, good⟩ := loops
    exact ⟨by simpa [within] using (List.append_subset.1 kept).1, good⟩

theorem follows_tryStatement (around : Surroundings) {start start' : Position}
    (placed : S.first.positions = true → start' = start) :
    S.Follows c d (tryStatement R around start) (tryStatement R' around start')
      fun read s _ => S.Holds Stmt.parts read s := by
  have finish {c d : Cursor} (body : List Stmt) (handler : Option Handler)
      (finalizer : Option (List Stmt)) (good : Everywhere S.Good (partsOfStmts body))
      (good₁ : ∀ h, handler = some h → Everywhere S.Good h.parts)
      (good₂ : ∀ final, finalizer = some final → Everywhere S.Good (partsOfStmts final)) :
      S.Follows c d
        (do
          if handler.isNone && finalizer.isNone then faultHere .bareTry
          return .tryCatch (← spanFrom start) body handler finalizer)
        (do
          if handler.isNone && finalizer.isNone then faultHere .bareTry
          return .tryCatch (← spanFrom start') body handler finalizer)
        fun read s _ => partsOfStmts body ⊆ s.parts ∧ (∀ h, handler = some h → h.parts ⊆ s.parts) ∧
          (∀ final, finalizer = some final → partsOfStmts final ⊆ s.parts) ∧
          S.Holds Stmt.parts read s := by
    dsimp only
    split_ifs
    · exact follows_never fun _ _ ran => by cases ran
    · obtain ⟨kept, kept₁, kept₂⟩ := subset_tryCatch
      refine follows_spanFrom placed (follows_pure [] ⟨kept, kept₁, kept₂, List.nil_subset _, ?_⟩)
      exact everywhere_tryCatch.2 ⟨S.others _ (by simp), good, good₁, good₂⟩
  have behind {c d : Cursor} (body : List Stmt) (handler : Option Handler)
      (good : Everywhere S.Good (partsOfStmts body))
      (good₁ : ∀ h, handler = some h → Everywhere S.Good h.parts) :
      S.Follows c d
        (do
          let finalizer ←
            if ← atKeyword .finally then do
              advance
              pure (some (← block R around))
            else pure none
          if handler.isNone && finalizer.isNone then faultHere .bareTry
          return .tryCatch (← spanFrom start) body handler finalizer)
        (do
          let finalizer ←
            if ← atKeyword .finally then do
              advance
              pure (some (← block R' around))
            else pure none
          if handler.isNone && finalizer.isNone then faultHere .bareTry
          return .tryCatch (← spanFrom start') body handler finalizer)
        fun read s _ => partsOfStmts body ⊆ s.parts ∧ (∀ h, handler = some h → h.parts ⊆ s.parts) ∧
          S.Holds Stmt.parts read s := by
    refine follows_atKeyword (fun here => ?_) fun _ => ?_
    · refine follows_take (plain_of_keyword here) (going_of_keyword here) fun _ _ _ =>
        (follows_block sided _).next fun final _ _ good₂ _ => ?_
      refine (finish body handler (some final) good good₁ ?_).mono fun read s _ known =>
        ⟨known.1, known.2.1, ?_, known.2.2.2.2⟩
      · rintro _ ⟨⟩
        exact good₂
      · exact List.append_subset.2 ⟨known.2.2.1 final rfl, known.2.2.2.1⟩
    · exact (finish body handler none good good₁ (by simp)).mono fun read s _ known =>
        ⟨known.1, known.2.1, known.2.2.2⟩
  unfold tryStatement
  refine (follows_block sided _).next fun body _ _ good _ => ?_
  refine follows_atKeyword (fun here => ?_) fun _ => ?_
  · refine follows_take (plain_of_keyword here) (going_of_keyword here) fun _ _ _ =>
      (follows_expectPunctuation '(').next fun _ _ _ _ _ =>
        follows_plainName.next fun name _ _ _ _ =>
          (follows_expectPunctuation ')').next fun _ _ _ _ _ =>
            (follows_block sided _).next fun handling _ _ good₁ _ => ?_
    refine (behind body (some (.mk name handling)) good ?_).mono fun read s _ known => ⟨?_, known.2.2.2⟩
    · rintro _ ⟨⟩
      simp [good₁, S.others]
    · have kept := known.2.1 _ rfl
      simp only [Handler.parts, List.cons_subset] at kept
      simpa using ⟨known.1, kept.2, known.2.2.1⟩
  · refine (behind body none good (by simp)).mono fun read s _ known => ⟨?_, known.2.2.2⟩
    exact List.append_subset.2 ⟨known.1, known.2.2.1⟩

/-! ## Statements -/

theorem follows_keywordStatement (around : Surroundings) {start start' : Position} {keyword : Keyword}
    (placed : S.first.positions = true → start' = start)
    (broken : c.token.afterBreak = true → S.Broken start) :
    S.Follows c d (keywordStatement R around start keyword) (keywordStatement R' around start' keyword)
      fun read s _ => S.Holds Stmt.parts read s := by
  cases keyword with
  | «break» => exact follows_jump (by simp) (by simp [Part.jumpSpan?]) around placed broken
  | «continue» => exact follows_jump (by simp) (by simp [Part.jumpSpan?]) around placed broken
  | debugger =>
    exact follows_semicolon.onward fun _ _ _ _ _ =>
      follows_spanFrom placed (follows_pure [] ⟨by simp, by simp [S.others]⟩)
  | «do» => exact follows_doStatement sided around placed
  | «for» => exact follows_forStatement sided around placed
  | function =>
    exact (follows_function sided true).next fun fn _ _ good _ =>
      follows_spanFrom placed (follows_pure [] ⟨by simp, by simp [good, S.others]⟩)
  | «if» => exact follows_ifStatement sided around placed
  | «return» => exact follows_returnStatement sided around placed broken
  | switch => exact follows_switchStatement sided around placed
  | throw => exact follows_throwStatement sided placed
  | «try» => exact follows_tryStatement sided around placed
  | var | const =>
    exact (follows_definitions sided false).onward fun defs _ _ good _ =>
      follows_semicolon.onward fun _ _ _ _ _ =>
        follows_spanFrom placed (follows_pure [] ⟨by simp, by simp [good, S.others]⟩)
  | «while» | «with» =>
    exact (follows_parenthesised sided).next fun e _ _ good _ =>
      (sided.statement _).next fun body _ _ good' _ =>
        follows_spanFrom placed (follows_pure [] ⟨by simp, by simp [good, good', S.others]⟩)
  | case | «catch» | default | «else» | «finally» => exact follows_unexpected

variable (sequence : ∀ {c d}, S.Follows c d (expression R true false) (expression R' true false)
  (S.Read Expr.parts c))

include sequence

theorem follows_statementFrom (around : Surroundings) :
    S.Follows c d (statementFrom R around) (statementFrom R' around) (S.Read Stmt.parts c) := by
  unfold statementFrom
  refine follows_startOfToken fun start' placed => follows_kind (Sides.FollowsOn.consumes ?_)
  have value := follows_expressionStatement (c := c) (d := d) sequence placed
  split
  · next label kind =>
    have plain : S.Plain c.token := plain_of_kind kind (by simp) (by simp) (by simp)
    refine follows_nextPunctuation plain ?_ (fun token lexer behind' read colon => ?_) ?_
    · simp [Cursor.AtSlash, Token.isOperator, kind]
    · have shorter := (Cursor.leads_behindToken read).2 (going_of_kind kind (by simp))
      have body : S.Follows (behindToken c token lexer) behind'
          (do advance; labelledStatement R around c.token.span.start label)
          (do advance; labelledStatement R' around start' label)
          (S.Read Stmt.parts (behindToken c token lexer)) :=
        follows_takePunctuation (c := behindToken c token lexer) colon fun _ _ _ =>
          (follows_labelledStatement sided around label placed).mono fun _ _ _ known => known.1
      exact body.mono fun _ _ _ known => ⟨⟨known.1, Nat.lt_trans known.2 shorter⟩, known.2⟩
    · exact value.consumes
  · exact value
  · exact value
  · exact value
  · exact value
  · exact value
  · exact value
  · exact value
  · exact (follows_block sided around).then fun body _ _ good _ =>
      follows_spanFrom placed (follows_pure [] ⟨by simp, by simp [good, S.others]⟩)
  · next kind =>
    exact follows_take (plain_of_kind kind (by simp) (by simp) (by simp))
      (going_of_kind kind (by simp)) fun _ _ _ => follows_spanFrom placed
        (follows_pure [] ⟨by simp, by simp [partsOfStmts, S.others]⟩)
  · next keyword kind =>
    split_ifs
    · refine follows_standing fun stands => ?_
      refine (follows_advance (plain_of_kind kind (by simp) (by simp) (by simp))
        fun token lexer behind' read => ?_)
      have shorter := (Cursor.leads_behindToken read).2 (going_of_kind kind (by simp))
      exact (follows_keywordStatement sided around placed fun broke =>
        S.broken stands kind read broke).ahead.mono fun _ _ _ known =>
          ⟨known.1, Nat.lt_of_le_of_lt known.2 shorter⟩
    · exact follows_unexpected
  · exact follows_unexpected

theorem follows_statement (around : Surroundings) :
    S.Follows c d (Parser.statement R around) (Parser.statement R' around) (S.Read Stmt.parts c) := by
  by_cases slash : c.AtSlash
  · refine follows_reread slash fun token lexer behind' read => ?_
    exact (follows_statementFrom sided sequence around).mono fun _ _ _ known =>
      ⟨⟨known.1, Nat.lt_of_lt_of_le known.2 (Cursor.ahead_reread slash read)⟩, known.2⟩
  · unfold Parser.statement
    refine follows_atOperator (fun here => absurd (.inl here) slash) fun _ => ?_
    refine follows_atOperator (fun here => absurd (.inr here) slash) fun _ => ?_
    exact follows_statementFrom sided sequence around

/-! ## Scripts -/

theorem follows_program :
    S.Follows c d (program R) (program R') fun read script _ => S.Holds Program.parts read script := by
  rw [program_eq, program_eq]
  refine Sides.FollowsOn.bind (follows_loopOnly partsOfStmts partsOfStmts
    (consuming_programStep sided.settling) (fun _ _ => Nat.le_refl _) (fun body c' d' good _ => ?_)
    (by simp [partsOfStmts])) fun read body _ _ known _ => follows_pure [] ?_
  · unfold programStep
    cases here : c'.token.isEof with
    | true =>
      have ended : S.Follows c' d' (pure (.inr body)) (pure (.inr body))
          fun read outcome _ => S.Grows partsOfStmts partsOfStmts body read outcome :=
        follows_pure [] ⟨List.Subset.refl _, by simp, good⟩
      refine follows_current_end (fun token kind _ => ?_) fun token kind => ?_
      · rw [isEof_congr kind, here]
        exact ended
      · rw [here, show token.isEof = true by simp [Token.isEof, kind]]
        exact ended
    | false =>
      refine follows_current fun token kind _ => ?_
      rw [isEof_congr kind, here]
      exact (follows_statement sided sequence .outermost).then fun s _ _ known _ => follows_pure []
        (Sides.Grows.snoc (partsOfStmts_append body s) good ⟨by simp, known⟩)
  · obtain ⟨-, within, good⟩ := known
    rw [List.append_nil]
    exact ⟨within, good⟩

end Rules

end Stencil.Grammar
