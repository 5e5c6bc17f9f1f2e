import Stencil.Proofs.Parsing.Sides
/-!
# Expressions in two runs

The rules of expressions in two runs that stand beside each other, given those that are entered again
from within (`Rules.Sided`). Lists, functions and objects are followed under any condition on the
expressions that are read; the rules that build an expression are followed where there is none.

The two runs may differ in strictness. Where the first is the strict one it is a filter: it refuses the
comma before the closing punctuation of a list, and the targets that cannot be assigned to.
-/

set_option autoImplicit false

namespace Stencil.Grammar

open Stencil.Syntax
open Stencil.Text (Position Span)
open Stencil.Grammar.Parser

variable {α β : Type}

/-- An expression may begin with the token, as far as closing punctuation is concerned. -/
def BeginsValue (token : Token) : Prop :=
  token.isEof = false ∧ ∀ closing ∈ ")]\x7d".toList, token.isPunctuation closing = false

/-- A second run is lenient beside a lenient first. -/
theorem Sides.lenient (S : Sides) (first : S.first.strict = false) : S.second.strict = false := by
  cases second : S.second.strict with
  | false => rfl
  | true => exact absurd (S.stricter second) (by simp [first])

/-- The rules that are entered again from within others, in two runs. -/
structure Rules.Sided (S : Sides) (R R' : Rules) : Prop where
  settling : R'.Settling Failure.Any
  expression : ∀ commas noIn {c d},
    S.Follows c d (R.expression commas noIn) (R'.expression commas noIn) (S.Read Expr.parts c)
  begins : ∀ {o c commas noIn e behind},
    R.expression commas noIn o c = .ok (e, behind) → BeginsValue c.token
  statement : ∀ around {c d},
    S.Follows c d (R.statement around) (R'.statement around) (S.Read Stmt.parts c)
  chunk : S.Whole → ∀ {c d}, S.Follows c d R.chunk R'.chunk (S.Read Chunk.parts c)

/-- The same, also of the rules that are entered again from within expressions only. -/
structure Rules.SidedExprs (S : Sides) (R R' : Rules) : Prop extends Rules.Sided S R R' where
  assignment : ∀ noIn {c d},
    S.Follows c d (R.assignment noIn) (R'.assignment noIn) (S.Read Expr.parts c)
  operators : ∀ {left start start' bound noIn c d},
    (S.first.positions = true → start' = start) →
    S.Follows c d (R.operators left start bound noIn) (R'.operators left start' bound noIn)
      fun read e _ => left.parts ⊆ e.parts ∧ S.Holds Expr.parts read e
  unary : ∀ calls {c d}, S.Follows c d (R.unary calls) (R'.unary calls) (S.Read Expr.parts c)
  primary : ∀ calls {c d}, S.Follows c d (R.primary calls) (R'.primary calls) (S.Read Expr.parts c)

/-! ## Parts of lists -/

theorem partsOfExprs_append (items : List Expr) (e : Expr) :
    partsOfExprs (items ++ [e]) = partsOfExprs items ++ e.parts := by
  induction items with
  | nil => simp [partsOfExprs]
  | cons _ _ ih => simp [partsOfExprs, ih]

theorem partsOfProperties_append (properties : List Property) (p : Property) :
    partsOfProperties (properties ++ [p]) = partsOfProperties properties ++ p.parts := by
  induction properties with
  | nil => simp [partsOfProperties]
  | cons _ _ ih => simp [partsOfProperties, ih]

theorem partsOfStmts_append (body : List Stmt) (s : Stmt) :
    partsOfStmts (body ++ [s]) = partsOfStmts body ++ s.parts := by
  induction body with
  | nil => simp [partsOfStmts]
  | cons _ _ ih => simp [partsOfStmts, ih]

theorem partsOfVarDefs_append (defs : List VarDef) (d : VarDef) :
    partsOfVarDefs (defs ++ [d]) = partsOfVarDefs defs ++ d.parts := by
  induction defs with
  | nil => simp [partsOfVarDefs]
  | cons _ _ ih => simp [partsOfVarDefs, ih]

/-- A list grows by what was read. -/
theorem Sides.Grows.snoc {S : Sides} {ι : Type} {partsOf : List ι → List Part}
    {parts : ι → List Part} {items : List ι} {item : ι}
    (append : partsOf (items ++ [item]) = partsOf items ++ parts item)
    (good : Everywhere S.Good (partsOf items)) {read : List Part}
    (known : S.Holds parts read item) :
    S.Grows partsOf partsOf items read (.inl (items ++ [item])) := by
  refine ⟨?_, ?_, ?_⟩
  · rw [append]
    exact List.subset_append_left _ _
  · rw [append]
    exact List.Subset.trans known.1 (List.subset_append_right _ _)
  · rw [append, everywhere_append]
    exact ⟨good, known.2⟩

section Rules

variable {S : Sides} {R R' : Rules} {c d : Cursor}

/-- The last step of a list: it consumes the closing punctuation. -/
theorem follows_close {σ ι : Type} {closing : Char} {items : List ι} {partsOf : List ι → List Part}
    (here : c.token.isPunctuation closing = true) (good : Everywhere S.Good (partsOf items))
    {stalls : σ ⊕ List ι → Cursor → Prop} {parts : σ → List Part} {state : σ}
    (kept : parts state ⊆ partsOf items) :
    S.FollowsOn stalls c d (pure (.inr items) >>= behindLast close)
      (pure (.inr items) >>= behindLast close) fun read outcome behind =>
        S.Grows parts partsOf state read outcome ∧ behind.ahead < c.ahead := by
  simp only [pure_bind, behindLast, close, bind_assoc]
  exact follows_takePunctuation here fun _ _ _ =>
    follows_pure [] ⟨kept, by simp, good⟩

/-- Parameters. -/
theorem follows_parameters :
    S.Follows c d parameters parameters fun read names _ => S.Holds (fun _ => []) read names := by
  rw [parameters_eq]
  refine follows_list (fun _ => []) (by decide) consuming_parameterItem.itemEnds
    (fun names c' d' _ _ => ?_) rfl
  unfold parameterItem
  simp only [bind_assoc, pure_bind, behindLast]
  exact (follows_plainName.next fun name _ _ _ _ => follows_pure [] (by simp [Sides.Grows, Sides.Holds])).on

variable (sided : R.Sided S R')

include sided

/-! ## Lists of expressions -/

/-- An item of a list of expressions. Before the closing punctuation only a list that may not have a
trailing comma in the first run may have one in the second: there the first fails. -/
theorem follows_expressionItem {closing : Char} {trailing trailing' gaps : Bool}
    (known : closing ∈ ")]\x7d".toList) (later : trailing = true → trailing' = true)
    {items : List Expr} (good : Everywhere S.Good (partsOfExprs items)) :
    S.FollowsOn (fun outcome behind => ∃ next, outcome = .inl next ∧ BeforeComma next behind) c d
      (expressionItem R closing trailing gaps items >>= behindLast close)
      (expressionItem R' closing trailing' gaps items >>= behindLast close)
      fun read outcome _ => S.Grows partsOfExprs partsOfExprs items read outcome := by
  have comma : c.token.isPunctuation closing = true → c.token.isPunctuation ',' = false := fun here => by
    have kind := kind_of_punctuation here
    rw [Token.isPunctuation, kind]
    simp only [decide_eq_false_iff_not]
    rintro rfl
    exact absurd known (by decide)
  unfold expressionItem
  simp only [bind_assoc]
  refine follows_atPunctuation (fun here => ?_) fun _ => ?_
  · cases trailing with
    | true =>
      rw [later rfl]
      exact follows_close here good (List.Subset.refl _)
    | false =>
      refine follows_never fun outcome behind ran => ?_
      obtain ⟨_, _, ran, -⟩ := run_bind ran
      rw [if_neg (by simp), run_behind (a := c.token.isPunctuation ',') rfl, comma here,
        if_neg (by simp)] at ran
      obtain ⟨_, _, ran, -⟩ := run_bind ran
      exact Bool.false_ne_true (((sided.begins ran).2 closing known).symm.trans here)
  · simp only [Bool.and_false, Bool.false_eq_true, if_false, bind_assoc]
    by_cases gap : gaps = true ∧ c.token.isPunctuation ',' = true
    · obtain ⟨rfl, here⟩ := gap
      refine follows_leaves here rfl rfl ⟨_, rfl, by simp, here⟩ ?_
      exact Sides.Grows.snoc (partsOfExprs_append items _) good ⟨by simp, by simp [S.missing]⟩
    · have element : S.FollowsOn
          (fun outcome behind => ∃ next, outcome = .inl next ∧ BeforeComma next behind) c d
          ((do return .inl (items ++ [← R.expression false false])) >>= behindLast close)
          ((do return .inl (items ++ [← R'.expression false false])) >>= behindLast close)
          fun read outcome behind => S.Grows partsOfExprs partsOfExprs items read outcome ∧
            behind.ahead < c.ahead := by
        simp only [bind_assoc, pure_bind, behindLast]
        exact (sided.expression false false).then fun e behind behind' known _ => follows_pure []
          (Sides.Grows.snoc (partsOfExprs_append items e) good ⟨by simp, known⟩)
      refine follows_atPunctuation (fun here => ?_) fun _ => ?_
      · obtain rfl : gaps = false := by simpa [here] using gap
        exact element
      · simp only [Bool.and_false, Bool.false_eq_true, if_false]
        exact element.mono fun _ _ _ known => known.1

theorem follows_expressionList {closing : Char} {trailing trailing' gaps : Bool}
    (known : closing ∈ ")]\x7d".toList) (later : trailing = true → trailing' = true) :
    S.Follows c d (expressionList R closing trailing gaps) (expressionList R' closing trailing' gaps)
      fun read items _ => S.Holds partsOfExprs read items := by
  rw [expressionList_eq, expressionList_eq]
  refine follows_list partsOfExprs (fun same => ?_) (itemEnds_expressionItem sided.settling closing trailing' gaps)
    (fun items c' d' good _ => follows_expressionItem sided known later good) rfl
  subst same
  exact absurd known (by decide)

/-! ## Functions and objects -/

theorem follows_block (around : Surroundings) :
    S.Follows c d (block R around) (block R' around) (S.Read partsOfStmts c) := by
  rw [block_eq, block_eq]
  refine (follows_expectPunctuation _).then fun _ c' d' _ _ => ?_
  refine (follows_loop partsOfStmts partsOfStmts (consuming_blockStep sided.settling around)
    (fun _ _ => Nat.le_refl _) (fun body c' d' good _ => ?_) (by simp [partsOfStmts])).mono
      fun _ _ _ known => known.2
  unfold blockStep
  simp only [bind_assoc]
  refine follows_atPunctuation (fun here => ?_) fun _ => ?_
  · exact follows_close here good (List.Subset.refl _)
  · simp only [Bool.false_eq_true, if_false, bind_assoc]
    refine follows_current fun token kind _ => ?_
    rw [isEof_congr kind]
    split_ifs
    · simp only [bind_assoc]
      exact follows_unexpected
    · simp only [bind_assoc, pure_bind, behindLast]
      exact (sided.statement around).then fun s _ _ known _ => follows_pure []
        (Sides.Grows.snoc (partsOfStmts_append body s) good ⟨by simp, known⟩)

theorem follows_function (declaration : Bool) :
    S.Follows c d (function R declaration) (function R' declaration)
      (S.Read Function.parts c) := by
  have behind {c d : Cursor} (name : Option String) :
      S.Follows c d
        (do
          expectPunctuation '('
          let names ← parameters
          return .mk name names (← block R .ofFunction))
        (do
          expectPunctuation '('
          let names ← parameters
          return .mk name names (← block R' .ofFunction)) (S.Read Function.parts c) := by
    refine (follows_expectPunctuation '(').then fun _ _ _ _ _ => ?_
    refine follows_parameters.onward fun names _ _ _ _ => ?_
    refine (follows_block sided _).next fun body _ _ good _ => follows_pure [] ?_
    exact ⟨by simp, by simp [good, S.others]⟩
  unfold function
  refine follows_kind (Sides.FollowsOn.consumes ?_)
  split
  · next kind =>
    refine follows_take (plain_of_kind kind (by simp) (by simp) (by simp))
      (going_of_kind kind (by simp)) fun _ _ _ => (behind _).mono fun _ _ _ known => known.1
  · split_ifs
    · exact follows_unexpected
    · exact behind _

omit sided in
/-- No property begins with the closing brace. -/
theorem property_brace {o : Options} (here : c.token.isPunctuation '\x7d' = true) (p : Property)
    (behind : Cursor) : property R o c ≠ .ok (p, behind) := by
  intro ran
  obtain ⟨_, _, looked, ran⟩ := run_bind ran
  cases looked
  obtain ⟨_, _, ran, -⟩ := run_bind ran
  unfold propertyKey at ran
  rw [run_behind (a := c.token.kind) rfl, kind_of_punctuation here] at ran
  obtain ⟨_, _, looked, ran⟩ := run_bind ran
  cases looked
  rw [kind_of_punctuation here] at ran
  cases ran

theorem follows_property :
    S.Follows c d (property R) (property R') (S.Read Property.parts c) := by
  have accessor {c d : Cursor} (make : String → Function → Property)
      (parts : ∀ key fn, (make key fn).parts = .property (make key fn) :: fn.parts) :
      S.Follows c d (do let key ← anyName; return make key (← function R false))
        (do let key ← anyName; return make key (← function R' false)) (S.Read Property.parts c) := by
    refine follows_anyName.then fun key _ _ _ _ => ?_
    refine (follows_function sided false).next fun fn _ _ good _ => follows_pure [] ?_
    exact ⟨by simp [parts], by simp [parts, good, S.others]⟩
  have value {c d : Cursor} (key : String) :
      S.Follows c d (do expectPunctuation ':'; return .init key (← R.expression false false))
        (do expectPunctuation ':'; return .init key (← R'.expression false false))
        (S.Read Property.parts c) := by
    refine (follows_expectPunctuation ':').then fun _ _ _ _ _ => ?_
    refine (sided.expression false false).next fun e _ _ good _ => follows_pure [] ?_
    exact ⟨by simp, by simp [good, S.others]⟩
  unfold property
  refine follows_kind (Sides.FollowsOn.consumes (follows_propertyKey.then fun key _ _ _ _ => ?_))
  refine follows_atPunctuation (fun _ => ?_) fun _ => ?_
  · split
    · contradiction
    · contradiction
    · exact value key
  · split
    · exact (accessor _ fun _ _ => rfl).mono fun _ _ _ known => known.1
    · exact (accessor _ fun _ _ => rfl).mono fun _ _ _ known => known.1
    · exact (value key).mono fun _ _ _ known => known.1

/-- A strict first run refuses the comma before the closing brace. -/
theorem follows_objectBody :
    S.Follows c d (objectBody R) (objectBody R') fun read properties _ =>
      S.Holds partsOfProperties read properties := by
  rw [objectBody_eq, objectBody_eq]
  refine follows_read ?_
  refine follows_list partsOfProperties (by decide)
    (consuming_propertyItem sided.settling S.second.strict).itemEnds (fun items c' d' good _ => ?_) rfl
  have element : S.Follows c' d' ((do return .inl (items ++ [← property R])) >>= behindLast close)
      ((do return .inl (items ++ [← property R'])) >>= behindLast close)
      fun read outcome behind => S.Grows partsOfProperties partsOfProperties items read outcome ∧
        behind.ahead < c'.ahead := by
    simp only [bind_assoc, pure_bind, behindLast]
    exact (follows_property sided).then fun p _ _ known _ => follows_pure []
      (Sides.Grows.snoc (partsOfProperties_append items p) good ⟨by simp, known⟩)
  unfold propertyItem
  simp only [bind_assoc]
  refine (follows_atPunctuation (fun here => ?_) fun _ => ?_).on
  · cases strict : S.first.strict with
    | true =>
      refine follows_never fun outcome behind ran => ?_
      obtain ⟨_, _, ran, -⟩ := run_bind ran
      obtain ⟨p, behind, ran, -⟩ := run_bind ran
      exact property_brace here p behind ran
    | false =>
      rw [S.lenient strict]
      exact follows_close here good (List.Subset.refl _)
  · simp only [Bool.and_false, Bool.false_eq_true, if_false]
    exact element.mono fun _ _ _ known => known.1

end Rules

/-! ## The beginning of an expression -/

section Begins

variable {R : Rules} {o : Options} {c behind : Cursor} {e : Expr}

theorem beginsValue_of_kind {token : Token} {kind : TokenKind} (here : token.kind = kind)
    (going : kind ≠ .eof) (other : ∀ closing ∈ ")]\x7d".toList, kind ≠ .punctuation closing) :
    BeginsValue token := by
  refine ⟨going_of_kind here going, fun closing listed => ?_⟩
  cases seen : token.isPunctuation closing with
  | false => rfl
  | true => exact absurd (here.symm.trans (kind_of_punctuation seen)) (other closing listed)

theorem begins_primary {calls : Bool} (ran : primary R calls o c = .ok (e, behind)) :
    BeginsValue c.token := by
  unfold primary at ran
  rw [run_behind (a := c.token.span.start) rfl, run_behind (a := c.token.isOperator "new") rfl] at ran
  split_ifs at ran with new
  · exact beginsValue_of_kind (kind_of_operator new) (by simp) (by simp)
  rw [run_behind (a := c.token.isPunctuation '(') rfl] at ran
  split_ifs at ran with paren
  · exact beginsValue_of_kind (kind_of_punctuation paren) (by simp) (by simp)
  obtain ⟨_, _, ran, -⟩ := run_bind ran
  have known {p : Parser Expr} (begins : BeginsValue c.token) :
      Ends p o c (fun _ _ => BeginsValue c.token) fun _ => True := by
    unfold Ends
    split
    · exact begins
    · trivial
  have both : Ends (atom R c.token.span.start) o c (fun _ _ => BeginsValue c.token) fun _ => True := by
    unfold atom
    rw [ends_bind, ends_currentKind]
    split
    · next kind => exact known (beginsValue_of_kind kind (by simp) (by simp))
    · next kind => exact known (beginsValue_of_kind kind (by simp) (by simp))
    · next kind => exact known (beginsValue_of_kind kind (by simp) (by simp))
    · next kind => exact known (beginsValue_of_kind kind (by simp) (by simp))
    · next kind => exact known (beginsValue_of_kind kind (by simp) (by simp))
    · next kind => exact known (beginsValue_of_kind kind (by simp) (by simp))
    · next kind => exact known (beginsValue_of_kind kind (by simp) (by simp))
    · next kind => exact known (beginsValue_of_kind kind (by simp) (by simp))
    · trivial
  exact ends_of_run ran both

theorem begins_unary {calls : Bool} (ran : unary R calls o c = .ok (e, behind)) :
    BeginsValue c.token := by
  rw [unary_eq, run_behind (a := c.token.span.start) rfl, run_behind (a := c.token.kind) rfl] at ran
  cases here : operatorBefore c.token.kind with
  | some op =>
    unfold operatorBefore at here
    split at here
    · next kind => exact beginsValue_of_kind kind (by simp) (by simp)
    · cases here
  | none =>
    rw [here] at ran
    obtain ⟨_, _, ran, -⟩ := run_bind ran
    exact begins_primary ran

/-- An expression begins with a token that may begin a value. -/
theorem begins_expression {commas noIn : Bool} (ran : expression R commas noIn o c = .ok (e, behind)) :
    BeginsValue c.token := by
  unfold expression at ran
  rw [run_behind (a := c.token.span.start) rfl] at ran
  obtain ⟨_, _, ran, -⟩ := run_bind ran
  unfold assignment at ran
  rw [run_behind (a := c.token.span.start) rfl] at ran
  obtain ⟨_, _, ran, -⟩ := run_bind ran
  unfold conditional at ran
  rw [run_behind (a := c.token.span.start) rfl] at ran
  obtain ⟨_, _, ran, -⟩ := run_bind ran
  exact begins_unary ran

end Begins

/-! ## Strictness -/

/-- What may be assigned to in strict parsing may be in any. -/
theorem isAssignable_weaken {strict strict' : Bool} {e : Expr}
    (stricter : strict' = true → strict = true) (fine : isAssignable strict e = true) :
    isAssignable strict' e = true := by
  cases strict' with
  | false => cases e <;> rfl
  | true => rwa [stricter rfl] at fine

section Expressions

variable {S : Sides} {R R' : Rules} {c d : Cursor}

theorem follows_checkUpdate (op : UnaryOp) (e : Expr) :
    S.Follows c d (checkUpdate op e) (checkUpdate op e) fun read a _ =>
      S.Holds (fun _ => []) read a := by
  unfold checkUpdate
  refine follows_read ?_
  by_cases bad : (op.isUpdate && !isAssignable S.first.strict e) = true
  · rw [if_pos bad]
    exact follows_fails _ rfl
  · have fine : (op.isUpdate && !isAssignable S.second.strict e) ≠ true := fun bad' => by
      rw [Bool.and_eq_true, Bool.not_eq_true'] at bad bad'
      have fine : isAssignable S.first.strict e = true := by simpa [bad'.1] using bad
      exact absurd (isAssignable_weaken S.stricter fine) (by simp [bad'.2])
    rw [if_neg bad, if_neg fine]
    exact follows_pure [] (holds_nothing _)

/-! ## Operands -/

/-- Unary, binary and assignment operators are operators. -/
theorem plain_of_before {op : UnaryOp} (here : operatorBefore c.token.kind = some op) :
    S.Plain c.token := by
  unfold operatorBefore at here
  split at here
  · next kind => exact plain_of_kind kind (by simp) (by simp) (by simp)
  · cases here

theorem plain_of_behind {op : UnaryOp} (here : operatorBehind c.token = some op) :
    S.Plain c.token := by
  unfold operatorBehind at here
  split at here
  · next kind => exact plain_of_kind kind (by simp) (by simp) (by simp)
  · cases here

theorem plain_of_binary {noIn : Bool} {op : BinaryOp}
    (here : binaryOperator noIn c.token.kind = some op) : S.Plain c.token := by
  unfold binaryOperator at here
  split at here
  · next kind => exact plain_of_kind kind (by simp) (by simp) (by simp)
  · cases here

theorem plain_of_assignment {op : Option BinaryOp}
    (here : assignmentOperator c.token.kind = some op) : S.Plain c.token := by
  unfold assignmentOperator at here
  split at here
  · next kind => exact plain_of_kind kind (by simp) (by simp) (by simp)
  · cases here

variable (all : ∀ part, S.Good part)

include all in
/-- Where there is no condition on expressions, what is read only has to be among the parts. -/
theorem holds_of_subset {read : List Part} {e : Expr} (within : read ⊆ e.parts) :
    S.Holds Expr.parts read e := ⟨within, fun part _ => all part⟩

/-- What is known of an expression that is made of what was read: the parts below it meet the condition,
and its span goes from its start to what was consumed last. -/
structure Sides.Makes (S : Sides) (start : Position) (read : List Part) (e : Expr) (behind : Cursor) :
    Prop where
  within : read ⊆ e.parts
  below : Everywhere S.Good e.parts.tail
  span : e.span = spanAt S.first behind start

/-- A step of a loop over operators makes an expression of the operand, or leaves the operand. -/
def Sides.Extends (S : Sides) (start : Position) (operand : Expr) (read : List Part) :
    Expr ⊕ Expr → Cursor → Prop
  | .inl next, behind => operand.parts ⊆ next.parts ∧ S.Makes start read next behind
  | .inr e, _ => read = [] ∧ e = operand

include all in
theorem Sides.Extends.grows {start : Position} {operand : Expr} {read : List Part}
    {outcome : Expr ⊕ Expr} (extends_ : S.Extends start operand read outcome c) :
    S.Grows Expr.parts Expr.parts operand read outcome := by
  cases outcome with
  | inl next => exact ⟨extends_.1, holds_of_subset all extends_.2.within⟩
  | inr e =>
    obtain ⟨rfl, rfl⟩ := extends_
    exact ⟨List.Subset.refl _, holds_of_subset all (by simp)⟩

section

variable (sided : R.Sided S R')

include sided

theorem follows_subscriptStep {operand : Expr} (good : Everywhere S.Good operand.parts)
    {start start' : Position} {calls : Bool} (placed : S.first.positions = true → start' = start) :
    S.Follows c d (subscriptStep R start calls operand) (subscriptStep R' start' calls operand)
      fun read outcome behind => S.Extends start operand read outcome behind := by
  unfold subscriptStep
  refine follows_atPunctuation (fun here => ?_) fun _ => ?_
  · exact follows_takePunctuation here fun _ _ _ => follows_anyName.next fun name _ _ _ _ =>
      follows_spanFrom placed (follows_pure [] ⟨by simp, by simp, by simpa using good, rfl⟩)
  simp only [Bool.false_eq_true, if_false]
  refine follows_atPunctuation (fun here => ?_) fun _ => ?_
  · exact follows_takePunctuation here fun _ _ _ => (sided.expression true false).next
      fun e _ _ good' _ => (follows_expectPunctuation ']').next fun _ _ _ _ _ =>
        follows_spanFrom placed (follows_pure [] ⟨by simp, by simp, by simp [good, good'], rfl⟩)
  simp only [Bool.false_eq_true, if_false]
  have ended : S.Follows c d (pure (.inr operand)) (pure (.inr operand))
      fun read outcome behind => S.Extends start operand read outcome behind :=
    follows_pure [] ⟨rfl, rfl⟩
  cases calls with
  | false => exact follows_of_looks (a := c.token.isPunctuation '(') rfl rfl ended
  | true =>
    refine follows_atPunctuation (fun here => ?_) fun _ => ended
    exact follows_takePunctuation here fun _ _ _ =>
      (follows_expressionList sided (by decide) id).onward fun args _ _ good' _ =>
        follows_spanFrom placed (follows_pure [] ⟨by simp, by simp, by simp [good, good'], rfl⟩)

/-- A `new` expression up to its arguments. -/
theorem follows_newOperand {start start' : Position}
    (callee : S.Follows c d (R.primary false) (R'.primary false) (S.Read Expr.parts c))
    (placed : S.first.positions = true → start' = start) :
    S.Follows c d (newOperand R start) (newOperand R' start') fun read e behind =>
      S.Makes start read e behind ∧ behind.ahead < c.ahead := by
  unfold newOperand
  refine callee.then fun callee _ _ good _ => ?_
  refine follows_atPunctuation (fun here => ?_) fun _ => ?_
  · simp only [if_true]
    exact follows_takePunctuation here fun _ _ _ =>
      (follows_expressionList sided (by decide) id).onward fun args _ _ good' _ =>
        follows_spanFrom placed (follows_pure [] ⟨by simp, by simp [good, good'], rfl⟩)
  · simp only [Bool.false_eq_true, if_false, pure_bind]
    exact follows_spanFrom placed
      (follows_pure [] ⟨by simp, by simp [good, partsOfExprs], rfl⟩)

theorem follows_atom {start start' : Position}
    (placed : S.first.positions = true → start' = start) :
    S.Follows c d (atom R start) (atom R' start') fun read e behind =>
      S.Makes start read e behind ∧ behind.ahead < c.ahead := by
  have leaf {make : Option Span → Expr} (plain : S.Plain c.token) (going : c.token.isEof = false)
      (single : ∀ span, (make span).parts = [.expr (make span)]) (own : ∀ span, (make span).span = span) :
      S.Follows c d (do advance; return make (← spanFrom start))
        (do advance; return make (← spanFrom start')) fun read e behind =>
          S.Makes start read e behind ∧ behind.ahead < c.ahead :=
    follows_take plain going fun _ _ _ =>
      follows_spanFrom placed (follows_pure [] ⟨by simp, by simp [single], own _⟩)
  unfold atom
  refine follows_kind (Sides.FollowsOn.consumes ?_)
  split
  · next kind =>
    refine follows_take (plain_of_kind kind (by simp) (by simp) (by simp))
      (going_of_kind kind (by simp)) fun _ _ _ => follows_read ?_
    refine (follows_expressionList sided (by decide) fun lenient => ?_).onward
      fun items _ _ good _ =>
        follows_spanFrom placed (follows_pure [] ⟨by simp, by simpa using good, rfl⟩)
    rw [Bool.not_eq_true'] at lenient ⊢
    exact S.lenient lenient
  · next kind =>
    exact follows_take (plain_of_kind kind (by simp) (by simp) (by simp))
      (going_of_kind kind (by simp)) fun _ _ _ => (follows_objectBody sided).onward
        fun properties _ _ good _ =>
          follows_spanFrom placed (follows_pure [] ⟨by simp, by simpa using good, rfl⟩)
  · next kind =>
    exact follows_take (plain_of_kind kind (by simp) (by simp) (by simp))
      (going_of_kind kind (by simp)) fun _ _ _ => (follows_function sided false).next
        fun fn _ _ good _ =>
          follows_spanFrom placed (follows_pure [] ⟨by simp, by simpa using good, rfl⟩)
  · next kind =>
    exact leaf (plain_of_kind kind (by simp) (by simp) (by simp)) (going_of_kind kind (by simp))
      (fun _ => by simp) fun _ => rfl
  · next kind =>
    exact leaf (plain_of_kind kind (by simp) (by simp) (by simp)) (going_of_kind kind (by simp))
      (fun _ => by simp) fun _ => rfl
  · next kind =>
    exact leaf (plain_of_kind kind (by simp) (by simp) (by simp)) (going_of_kind kind (by simp))
      (fun _ => by simp) fun _ => rfl
  · next kind =>
    exact leaf (plain_of_kind kind (by simp) (by simp) (by simp)) (going_of_kind kind (by simp))
      (fun _ => by simp) fun _ => rfl
  · next kind =>
    exact leaf (plain_of_kind kind (by simp) (by simp) (by simp)) (going_of_kind kind (by simp))
      (fun _ => by simp) fun _ => rfl
  · exact follows_unexpected

end

/-- The update behind an operand is on the same line in both runs. -/
theorem follows_postfixStep {start start' : Position}
    (placed : S.first.positions = true → start' = start) {operand : Expr}
    (good : Everywhere S.Good operand.parts) :
    S.Follows c d (postfixStep start operand) (postfixStep start' operand)
      fun read outcome behind => S.Extends start operand read outcome behind := by
  have congr {token : Token} (kind : token.kind = c.token.kind)
      (broke : token.afterBreak = c.token.afterBreak) : operatorBehind token = operatorBehind c.token := by
    unfold operatorBehind
    rw [kind, broke]
  unfold postfixStep
  cases here : operatorBehind c.token with
  | none =>
    have ended : S.Follows c d (pure (.inr operand)) (pure (.inr operand))
        fun read outcome behind => S.Extends start operand read outcome behind :=
      follows_pure [] ⟨rfl, rfl⟩
    refine follows_current_end (fun token kind broke => ?_) fun token kind => ?_
    · rw [congr kind broke, here]
      exact ended
    · rw [here, show operatorBehind token = none by simp [operatorBehind, kind]]
      exact ended
  | some op =>
    refine follows_current fun token kind broke => ?_
    rw [congr kind broke, here]
    refine follows_take (plain_of_behind here) (going_of_behind here) fun _ _ _ =>
      (follows_checkUpdate op operand).onward fun _ _ _ _ _ => follows_spanFrom placed ?_
    exact follows_pure [] ⟨by simp, by simp, by simpa using good, rfl⟩

section

variable (sided : R.Sided S R')

include sided

/-- An operand in parentheses was read before; any other is made. -/
theorem follows_bareOperand {start start' : Position}
    (callee : ∀ {c d}, S.Follows c d (R.primary false) (R'.primary false) (S.Read Expr.parts c))
    (placed : S.first.positions = true → start' = start) :
    S.Follows c d (bareOperand R start) (bareOperand R' start') fun read e behind =>
      (S.Holds Expr.parts read e ∨ S.Makes start read e behind) ∧ behind.ahead < c.ahead := by
  unfold bareOperand
  refine follows_atOperator (fun here => Sides.FollowsOn.consumes ?_) fun _ => ?_
  · exact follows_take (plain_of_operator here) (going_of_operator here) fun _ _ _ =>
      (follows_newOperand sided callee placed).mono fun _ _ _ known => .inr known.1
  simp only [Bool.false_eq_true, if_false]
  refine follows_atPunctuation (fun here => Sides.FollowsOn.consumes ?_) fun _ => ?_
  · exact follows_takePunctuation here fun _ _ _ => (sided.expression true false).next
      fun inner _ _ good _ => (follows_expectPunctuation ')').next fun _ _ _ _ _ =>
        follows_pure [] (.inl ⟨by simp, good⟩)
  · exact (follows_atom sided placed).mono fun _ _ _ known => ⟨.inr known.1, known.2⟩

end

/-- A unary operator before its operand. -/
theorem follows_prefixed {calls : Bool} {start start' : Position} {op : UnaryOp}
    (here : operatorBefore c.token.kind = some op)
    (operand : ∀ {c d}, S.Follows c d (R.unary calls) (R'.unary calls) (S.Read Expr.parts c))
    (placed : S.first.positions = true → start' = start) :
    S.Follows c d (prefixed R calls start op) (prefixed R' calls start' op) fun read e behind =>
      S.Makes start read e behind ∧ behind.ahead < c.ahead := by
  unfold prefixed
  exact follows_take (plain_of_before here) (going_of_before here) fun _ _ _ =>
    operand.next fun operand _ _ good _ =>
      (follows_checkUpdate op operand).onward fun _ _ _ _ _ => follows_spanFrom placed
        (follows_pure [] ⟨by simp, by simpa using good, rfl⟩)

/-- A rule behind an expression makes another one of it, or leaves it. -/
def Sides.Rests (S : Sides) (start : Position) (inner : Expr) (read : List Part) (e : Expr)
    (behind : Cursor) : Prop :=
  S.Extends start inner read (.inl e) behind ∨ S.Extends start inner read (.inr e) behind

include all in
theorem Sides.Rests.holds {start : Position} {inner e : Expr} {read : List Part} {behind : Cursor}
    (rests : S.Rests start inner read e behind) : S.Holds Expr.parts (inner.parts ++ read) e := by
  refine holds_of_subset all ?_
  obtain ⟨kept, made⟩ | ⟨rfl, rfl⟩ := rests
  · simpa using ⟨kept, made.within⟩
  · simp

theorem follows_conditionalRest {noIn : Bool} {start start' : Position} {test : Expr}
    (sided : R.Sided S R') (good : Everywhere S.Good test.parts)
    (placed : S.first.positions = true → start' = start) :
    S.Follows c d (conditionalRest R noIn start test) (conditionalRest R' noIn start' test)
      fun read e behind => S.Rests start test read e behind := by
  unfold conditionalRest
  refine follows_atOperator (fun here => ?_) fun _ => follows_pure [] (.inr ⟨rfl, rfl⟩)
  exact follows_take (plain_of_operator here) (going_of_operator here) fun _ _ _ =>
    (sided.expression false false).next fun yes _ _ good₁ _ =>
      (follows_expectPunctuation ':').next fun _ _ _ _ _ =>
        (sided.expression false noIn).next fun no _ _ good₂ _ => follows_spanFrom placed
          (follows_pure [] (.inl ⟨by simp, by simp, by simp [good, good₁, good₂], rfl⟩))

theorem follows_assignmentRest {noIn : Bool} {start start' : Position} {target : Expr}
    (value : ∀ {c d}, S.Follows c d (R.assignment noIn) (R'.assignment noIn) (S.Read Expr.parts c))
    (good : Everywhere S.Good target.parts) (placed : S.first.positions = true → start' = start) :
    S.Follows c d (assignmentRest R noIn start target) (assignmentRest R' noIn start' target)
      fun read e behind => S.Rests start target read e behind := by
  unfold assignmentRest
  cases here : assignmentOperator c.token.kind with
  | none =>
    have ended : S.Follows c d (pure target) (pure target)
        fun read e behind => S.Rests start target read e behind :=
      follows_pure [] (.inr ⟨rfl, rfl⟩)
    refine follows_kind_end ?_ ?_
    · rw [here]
      exact ended
    · rw [here]
      exact ended
  | some op =>
    refine follows_kind ?_
    simp only [here]
    refine follows_read ?_
    by_cases bad : isAssignable S.first.strict target = true
    · have fine := isAssignable_weaken S.stricter bad
      simp only [bad, fine, Bool.not_true, Bool.false_eq_true, if_false]
      exact follows_take (plain_of_assignment here) (going_of_assignment here) fun _ _ _ =>
        value.next fun value _ _ good' _ => follows_spanFrom placed
          (follows_pure [] (.inl ⟨by simp, by simp, by simp [good, good'], rfl⟩))
    · rw [Bool.not_eq_true] at bad
      simp only [bad, Bool.not_false, if_true]
      exact follows_never fun _ _ ran => by cases ran

theorem follows_sequenceRest {commas noIn : Bool} {start start' : Position} {first : Expr}
    (sided : R.Sided S R') (good : Everywhere S.Good first.parts)
    (placed : S.first.positions = true → start' = start) :
    S.Follows c d (sequenceRest R commas noIn start first) (sequenceRest R' commas noIn start' first)
      fun read e behind => S.Rests start first read e behind := by
  have ended : S.Follows c d (pure first) (pure first)
      fun read e behind => S.Rests start first read e behind := follows_pure [] (.inr ⟨rfl, rfl⟩)
  unfold sequenceRest
  cases commas with
  | false => exact follows_of_looks (a := c.token.isPunctuation ',') rfl rfl ended
  | true =>
    refine follows_atPunctuation (fun here => ?_) fun _ => ended
    exact follows_takePunctuation here fun _ _ _ => (sided.expression true noIn).next
      fun rest _ _ good' _ => follows_spanFrom placed
        (follows_pure [] (.inl ⟨by simp, by simp, by simp [good, good'], rfl⟩))

include all in
theorem read_of_makes {p q : Parser Expr} {start : Position}
    (follows : S.Follows c d p q fun read e behind =>
      S.Makes start read e behind ∧ behind.ahead < c.ahead) :
    S.Follows c d p q (S.Read Expr.parts c) :=
  follows.mono fun _ _ _ known => ⟨holds_of_subset all known.1.within, known.2⟩

variable (sided : R.SidedExprs S R')

include all sided

theorem follows_subscripts {operand : Expr} {start start' : Position} {calls : Bool}
    (placed : S.first.positions = true → start' = start) :
    S.Follows c d (subscripts R operand start calls) (subscripts R' operand start' calls)
      fun read e _ => operand.parts ⊆ e.parts ∧ S.Holds Expr.parts read e := by
  rw [subscripts_eq, subscripts_eq]
  exact follows_loopOnly Expr.parts Expr.parts
    (consuming_subscriptStep sided.settling start' calls) (fun _ _ => Nat.le_refl _)
    (fun _ _ _ good _ => (follows_subscriptStep sided.toSided good placed).mono
      fun _ _ _ known => known.grows all) fun part _ => all part

theorem follows_newExpression {start start' : Position}
    (placed : S.first.positions = true → start' = start) :
    S.Follows c d (newExpression R start) (newExpression R' start') fun read e _ =>
      S.Holds Expr.parts read e := by
  rw [newExpression_eq, newExpression_eq]
  refine (read_of_makes all (follows_newOperand sided.toSided (sided.primary false) placed)).next
    fun operand _ _ _ _ => ?_
  refine (follows_subscripts all sided placed).mono fun read e _ known => holds_of_subset all ?_
  simpa using ⟨known.1, known.2.1⟩

theorem follows_primary (calls : Bool) :
    S.Follows c d (primary R calls) (primary R' calls) (S.Read Expr.parts c) := by
  unfold primary
  refine follows_startOfToken fun start' placed => ?_
  refine follows_atOperator (fun here => ?_) fun _ => ?_
  · exact (follows_take (plain_of_operator here) (going_of_operator here) fun _ _ _ =>
      follows_newExpression all sided placed).consumes
  simp only [Bool.false_eq_true, if_false]
  refine follows_atPunctuation (fun here => Sides.FollowsOn.consumes ?_) fun _ => ?_
  · refine follows_takePunctuation here fun _ _ _ => (sided.expression true false).next
      fun inner _ _ _ _ => (follows_expectPunctuation ')').next fun _ _ _ _ _ => ?_
    refine (follows_subscripts all sided placed).mono fun read e _ known => holds_of_subset all ?_
    simpa using ⟨known.1, known.2.1⟩
  · refine (read_of_makes all (follows_atom sided.toSided placed)).then fun operand _ _ _ _ => ?_
    refine (follows_subscripts all sided placed).mono fun read e _ known => holds_of_subset all ?_
    simpa using ⟨known.1, known.2.1⟩

theorem follows_unary (calls : Bool) :
    S.Follows c d (unary R calls) (unary R' calls) (S.Read Expr.parts c) := by
  rw [unary_eq, unary_eq]
  refine follows_startOfToken fun start' placed => follows_kind (Sides.FollowsOn.consumes ?_)
  cases here : operatorBefore c.token.kind with
  | some op =>
    exact read_of_makes all (follows_prefixed here (sided.unary calls) placed)
  | none =>
    refine (follows_primary all sided calls).then fun operand c' d' _ _ => ?_
    refine (follows_loopOnly Expr.parts Expr.parts (consuming_postfixStep start')
      (fun _ _ => Nat.le_refl _)
      (fun operand c' d' good _ => (follows_postfixStep placed good).mono
        fun _ _ _ known => known.grows all) fun part _ => all part).mono fun read e _ known => holds_of_subset all ?_
    simpa using ⟨known.1, known.2.1⟩

/-! ## Operators -/

theorem follows_rightOperand {op : BinaryOp} {noIn : Bool}
    (here : binaryOperator noIn c.token.kind = some op) :
    S.Follows c d (rightOperand R op noIn) (rightOperand R' op noIn) (S.Read Expr.parts c) := by
  unfold rightOperand
  refine follows_take (plain_of_binary here) (going_of_binary here) fun _ _ _ =>
    follows_startOfToken fun rightStart placed => ?_
  refine (follows_unary all sided true).next fun operand _ _ _ _ => ?_
  refine (sided.operators placed).mono fun read e _ known => holds_of_subset all ?_
  simpa using ⟨known.1, known.2.1⟩

theorem follows_operators {left : Expr} {start start' : Position} {bound : Nat} {noIn : Bool}
    (placed : S.first.positions = true → start' = start) :
    S.Follows c d (operators R left start bound noIn) (operators R' left start' bound noIn)
      fun read e _ => left.parts ⊆ e.parts ∧ S.Holds Expr.parts read e := by
  have ended : S.Follows c d (pure left) (pure left) fun read e _ =>
      left.parts ⊆ e.parts ∧ S.Holds Expr.parts read e :=
    follows_pure [] ⟨List.Subset.refl _, holds_of_subset all (by simp)⟩
  rw [operators_eq, operators_eq]
  cases here : binaryOperator noIn c.token.kind with
  | none =>
    refine follows_kind_end ?_ ?_
    · rw [here]
      exact ended
    · rw [here]
      exact ended
  | some op =>
    by_cases loose : op.precedence ≤ bound
    · refine follows_kind_end ?_ ?_
      · simp only [here, if_pos loose]
        exact ended
      · simp only [here, if_pos loose]
        exact ended
    · refine follows_kind ?_
      simp only [here, if_neg loose]
      refine (follows_rightOperand all sided here).then fun right _ _ _ _ =>
        follows_spanFrom placed ?_
      refine (sided.operators placed).mono fun read e _ known => ?_
      obtain ⟨kept, within, -⟩ := known
      simp only [Expr.parts, List.cons_subset, List.append_subset] at kept
      exact ⟨kept.2.1, holds_of_subset all (by simpa using ⟨kept.2.2, within⟩)⟩

theorem follows_conditional (noIn : Bool) :
    S.Follows c d (conditional R noIn) (conditional R' noIn) (S.Read Expr.parts c) := by
  unfold conditional
  refine follows_startOfToken fun start' placed => ?_
  refine (follows_unary all sided true).then fun operand _ _ _ _ =>
    (follows_operators all sided placed).around fun test _ _ inner good _ => ?_
  refine (follows_conditionalRest sided.toSided good placed).mono fun read e _ known =>
    holds_of_subset all ?_
  have within := (known.holds all).1
  rw [List.append_subset] at within
  simpa using ⟨List.Subset.trans inner within.1, within⟩

theorem follows_assignment (noIn : Bool) :
    S.Follows c d (assignment R noIn) (assignment R' noIn) (S.Read Expr.parts c) := by
  rw [assignment_eq, assignment_eq]
  refine follows_startOfToken fun start' placed => ?_
  exact (follows_conditional all sided noIn).then fun target _ _ good _ =>
    (follows_assignmentRest (sided.assignment noIn) good placed).mono fun _ _ _ known =>
      known.holds all

theorem follows_expression (commas noIn : Bool) :
    S.Follows c d (expression R commas noIn) (expression R' commas noIn) (S.Read Expr.parts c) := by
  rw [expression_eq, expression_eq]
  refine follows_startOfToken fun start' placed => ?_
  exact (follows_assignment all sided noIn).then fun first _ _ good _ =>
    (follows_sequenceRest sided.toSided good placed).mono fun _ _ _ known => known.holds all

end Expressions

end Stencil.Grammar
