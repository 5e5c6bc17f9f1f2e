import Stencil.Proofs.Rendering.Failing
import Stencil.Proofs.Rendering.Nesting
/-!
# Strict equalities are never evaluated

A `===` or `!==` fails when evaluation reaches it. So an expression that has one gives a value only
where a short circuit leaves it out: it stands on the side of an `&&`, an `||` or a conditional that
the value of the test does not choose. Then whatever stands in its place makes no difference.

`Bypasses` says this of a part of a rendering beside the same part with other expressions in place of
the strict equalities; it has one law for each way in which evaluation is put together.
-/

set_option autoImplicit false

namespace Stencil.Syntax

/-! ## The strict equalities of an expression -/

/-- A side of a short circuit: it is evaluated where the value of the test counts as true, or where it
counts as false. -/
structure Fork where
  test : Expr
  side : Bool

/-- The side of a short circuit that the right operand of an operator is. -/
def BinaryOp.forks (op : BinaryOp) (left : Expr) : List Fork :=
  match op with
  | .and => [⟨left, true⟩]
  | .or => [⟨left, false⟩]
  | _ => []

/-- Whether the operator is a strict equality or its negation. -/
def BinaryOp.isStrict : BinaryOp → Bool
  | .strictEq | .strictNe => true
  | _ => false

mutual

/-- The strict equalities of an expression outside function literals, each by the sides of short
circuits that it stands on, from the outermost one. -/
def Expr.strictEqualities : Expr → List (List Fork)
  | .array _ items => strictEqualitiesOf items
  | .object _ properties => strictEqualitiesIn properties
  | .dot _ target _ => target.strictEqualities
  | .sub _ target index => target.strictEqualities ++ index.strictEqualities
  | .call _ callee args | .new _ callee args => callee.strictEqualities ++ strictEqualitiesOf args
  | .prefixOp _ _ operand | .postfixOp _ _ operand => operand.strictEqualities
  | .binary _ op left right =>
    (if op.isStrict then [[]] else []) ++
      (left.strictEqualities ++ right.strictEqualities.map (op.forks left ++ ·))
  | .conditional _ test yes no =>
    test.strictEqualities ++
      (yes.strictEqualities.map (⟨test, true⟩ :: ·) ++ no.strictEqualities.map (⟨test, false⟩ :: ·))
  | .assign _ _ target value => target.strictEqualities ++ value.strictEqualities
  | .seq _ first rest => first.strictEqualities ++ rest.strictEqualities
  | _ => []

/-- The strict equalities of the expressions of a list. -/
def strictEqualitiesOf : List Expr → List (List Fork)
  | [] => []
  | e :: rest => e.strictEqualities ++ strictEqualitiesOf rest

/-- The strict equalities of the properties of an object literal. -/
def strictEqualitiesIn : List Property → List (List Fork)
  | [] => []
  | .init _ value :: rest => value.strictEqualities ++ strictEqualitiesIn rest
  | .getter .. :: rest | .setter .. :: rest => strictEqualitiesIn rest

end

mutual

/-- The expression with others in place of its strict equalities. -/
def Expr.replaceStrict (f : Expr → Expr) : Expr → Expr
  | .array s items => .array s (replaceStrictOf f items)
  | .object s properties => .object s (replaceStrictIn f properties)
  | .dot s target property => .dot s (target.replaceStrict f) property
  | .sub s target index => .sub s (target.replaceStrict f) (index.replaceStrict f)
  | .call s callee args => .call s (callee.replaceStrict f) (replaceStrictOf f args)
  | .new s callee args => .new s (callee.replaceStrict f) (replaceStrictOf f args)
  | .prefixOp s op operand => .prefixOp s op (operand.replaceStrict f)
  | .postfixOp s op operand => .postfixOp s op (operand.replaceStrict f)
  | .binary s op left right =>
    if op.isStrict then f (.binary s op left right)
    else .binary s op (left.replaceStrict f) (right.replaceStrict f)
  | .conditional s test yes no =>
    .conditional s (test.replaceStrict f) (yes.replaceStrict f) (no.replaceStrict f)
  | .assign s op target value => .assign s op (target.replaceStrict f) (value.replaceStrict f)
  | .seq s first rest => .seq s (first.replaceStrict f) (rest.replaceStrict f)
  | e => e

/-- The expressions of a list with others in place of their strict equalities. -/
def replaceStrictOf (f : Expr → Expr) : List Expr → List Expr
  | [] => []
  | e :: rest => e.replaceStrict f :: replaceStrictOf f rest

/-- The properties with other expressions in place of their strict equalities. -/
def replaceStrictIn (f : Expr → Expr) : List Property → List Property
  | [] => []
  | .init key value :: rest => .init key (value.replaceStrict f) :: replaceStrictIn f rest
  | p :: rest => p :: replaceStrictIn f rest

end

end Stencil.Syntax

namespace Stencil.Render

open Stencil.Error (Kind)
open Stencil.Syntax
open Stencil.Text (Span)

/-- What always holds of the result holds of the result that was come to. -/
theorem Process.Always.of_passes {α : Type} {property : α → Prop} {process : Process α}
    {history : List Exchange} {result : α} (always : process.Always property)
    (passes : process.Passes history (.done result)) : property result := by
  induction history generalizing process with
  | nil =>
    cases passes
    exact always
  | cons exchange history ih =>
    cases passes with
    | more later => exact ih (always _) later

namespace RenderM

variable {α β : Type} {settings : Settings} {state behind : State} {history : List Exchange}

/-- Evaluating leaves the scope as it is, but for the place of the innermost frame. -/
theorem Ends.calm {m : RenderM α} {result : Except Failure α} (leaves : LeavesScope Calm m)
    (ends : Ends m state history result behind) : Calm state.scope behind.scope :=
  (leaves state).of_passes ends

theorem leaves_evaluate (e : Expr) : LeavesScope Calm (evaluate settings e) :=
  (evaluates_evaluate e fun part _ => Places.all_have part).leaves lasting_calm

theorem leaves_evaluateAll (es : List Expr) : LeavesScope Calm (evaluateAll settings es) :=
  (evaluates_evaluateAll es fun part _ => Places.all_have part).leaves lasting_calm

theorem leaves_evaluateProperties (entries : List (String × Value)) (properties : List Property) :
    LeavesScope Calm (evaluateProperties settings entries properties) :=
  (evaluates_evaluateProperties properties entries fun part _ => Places.all_have part).leaves lasting_calm

/-- A side of a short circuit is left out in a run from a scope: in its course the test was evaluated,
and its value chose the other side. -/
def LeftOut (settings : Settings) (fork : Fork) (scope : Scope) (history : List Exchange) : Prop :=
  ∃ during state value behind, during <:+: history ∧ Calm scope state.scope ∧
    Ends (evaluate settings fork.test) state during (.ok value) behind ∧ value.truthy ≠ fork.side

/-- What is left out in a part of a run is left out in the run. -/
theorem LeftOut.of_part {fork : Fork} {scope scope' : Scope} {part : List Exchange}
    (leftOut : LeftOut settings fork scope' part) (calm : Calm scope scope') (inside : part <:+: history) :
    LeftOut settings fork scope history := by
  obtain ⟨during, state, value, behind, within, calm', ends, other⟩ := leftOut
  exact ⟨during, state, value, behind, within.trans inside, lasting_calm.trans calm calm', ends, other⟩

/-- Where a part of a rendering gives a value, one of the sides on each path was left out, and the other
part gives the value as well. -/
def Bypasses (settings : Settings) (paths : List (List Fork)) (m m' : RenderM α) : Prop :=
  ∀ state history value behind, Ends m state history (.ok value) behind →
    (∀ path ∈ paths, ∃ fork ∈ path, LeftOut settings fork state.scope history) ∧
      Ends m' state history (.ok value) behind

/-! ## Laws -/

variable {paths paths' : List (List Fork)} {m m' : RenderM α} {next next' : α → RenderM β}

/-- What has no strict equality is the same. -/
theorem bypasses_same (m : RenderM α) : Bypasses settings [] m m :=
  fun _ _ _ _ ends => ⟨fun _ mem => (List.not_mem_nil mem).elim, ends⟩

/-- What gives no value bypasses everything. -/
theorem bypasses_never (never : ∀ state history value behind, ¬ Ends m state history (.ok value) behind) :
    Bypasses settings paths m m' :=
  fun _ _ _ _ ends => (never _ _ _ _ ends).elim

theorem Bypasses.bind (first : Bypasses settings paths m m') (calm : LeavesScope Calm m)
    (rest : ∀ value, Bypasses settings paths' (next value) (next' value)) :
    Bypasses settings (paths ++ paths') (m >>= next) (m' >>= next') := by
  intro state history value behind ends
  rcases ends.bind_inv with ⟨_, same, -⟩ | ⟨before, after, given, middle, rfl, begun, ended⟩
  · exact nomatch same
  obtain ⟨left, begun'⟩ := first _ _ _ _ begun
  obtain ⟨right, ended'⟩ := rest given _ _ _ _ ended
  refine ⟨fun path mem => ?_, begun'.bind ended'⟩
  rcases List.mem_append.mp mem with mem | mem
  · obtain ⟨fork, listed, leftOut⟩ := left path mem
    exact ⟨fork, listed, leftOut.of_part rfl (List.prefix_append ..).isInfix⟩
  · obtain ⟨fork, listed, leftOut⟩ := right path mem
    exact ⟨fork, listed, leftOut.of_part (begun.calm calm) (List.suffix_append ..).isInfix⟩

/-- What has no strict equalities behind it. -/
theorem Bypasses.ends_with (first : Bypasses settings paths m m') (calm : LeavesScope Calm m)
    (next : α → RenderM β) : Bypasses settings paths (m >>= next) (m' >>= next) := by
  simpa using first.bind calm fun value => bypasses_same (next value)

theorem Bypasses.keeping (inner : Bypasses settings paths m m') (values : List Value) :
    Bypasses settings paths (keeping values m) (keeping values m') := by
  intro state history value behind ends
  obtain ⟨inside, ended, rfl⟩ := ends.keeping_inv
  obtain ⟨bypassed, ended'⟩ := inner _ _ _ _ ended
  exact ⟨bypassed, ended'.keeping⟩

/-- A short circuit: the sides stand behind a test, whose value chooses one of them. -/
theorem Bypasses.forked {test test' : Expr} {yes yes' no no' : Value → RenderM Value}
    {paths paths₁ paths₂ : List (List Fork)}
    (first : Bypasses settings paths (evaluate settings test) (evaluate settings test'))
    (left : ∀ value, Bypasses settings paths₁ (yes value) (yes' value))
    (right : ∀ value, Bypasses settings paths₂ (no value) (no' value)) :
    Bypasses settings
      (paths ++ (paths₁.map (⟨test, true⟩ :: ·) ++ paths₂.map (⟨test, false⟩ :: ·)))
      (do let value ← evaluate settings test; if value.truthy then yes value else no value)
      (do let value ← evaluate settings test'; if value.truthy then yes' value else no' value) := by
  intro state history value behind ends
  rcases ends.bind_inv with ⟨_, same, -⟩ | ⟨before, after, given, middle, rfl, begun, ended⟩
  · exact nomatch same
  obtain ⟨tested, begun'⟩ := first _ _ _ _ begun
  have calm := begun.calm (leaves_evaluate test)
  -- The other side is left out, for the value of the test chose this one.
  have other (side : Bool) (differs : given.truthy ≠ side) :
      LeftOut settings ⟨test, side⟩ state.scope (before ++ after) :=
    ⟨before, state, given, middle, (List.prefix_append ..).isInfix, rfl, begun, differs⟩
  have within {path : List Fork} (side : Bool)
      (chosen : ∃ fork ∈ path, LeftOut settings fork middle.scope after) :
      ∃ fork ∈ ⟨test, side⟩ :: path, LeftOut settings fork state.scope (before ++ after) := by
    obtain ⟨fork, listed, leftOut⟩ := chosen
    exact ⟨fork, List.mem_cons_of_mem _ listed, leftOut.of_part calm (List.suffix_append ..).isInfix⟩
  have sides : (∀ path ∈ paths₁, ∃ fork ∈ ⟨test, true⟩ :: path,
        LeftOut settings fork state.scope (before ++ after)) ∧
      (∀ path ∈ paths₂, ∃ fork ∈ ⟨test, false⟩ :: path,
        LeftOut settings fork state.scope (before ++ after)) ∧
      Ends (if given.truthy then yes' given else no' given) middle after (.ok value) behind := by
    by_cases truth : given.truthy = true
    · rw [if_pos truth] at ended
      obtain ⟨chosen, ended'⟩ := left given _ _ _ _ ended
      rw [if_pos truth]
      exact ⟨fun path mem => within true (chosen path mem),
        fun path _ => ⟨_, List.mem_cons_self, other false (by simp [truth])⟩, ended'⟩
    · rw [if_neg truth] at ended
      obtain ⟨chosen, ended'⟩ := right given _ _ _ _ ended
      rw [if_neg truth]
      exact ⟨fun path _ => ⟨_, List.mem_cons_self, other true truth⟩,
        fun path mem => within false (chosen path mem), ended'⟩
  obtain ⟨onLeft, onRight, ended'⟩ := sides
  refine ⟨fun path mem => ?_, begun'.bind ended'⟩
  simp only [List.mem_append, List.mem_map] at mem
  rcases mem with mem | ⟨path, mem, rfl⟩ | ⟨path, mem, rfl⟩
  · obtain ⟨fork, listed, leftOut⟩ := tested path mem
    exact ⟨fork, listed, leftOut.of_part rfl (List.prefix_append ..).isInfix⟩
  · exact onLeft path mem
  · exact onRight path mem

/-- An expression that is refused gives no value. -/
theorem guarded_refused {e : Expr} {restriction : Restriction}
    (refused : Restriction.of? e = some restriction) (body : RenderM Value) {result : Except Failure Value}
    (ends : Ends (guarded settings e body) state history result behind) :
    ∃ error, result = .error (.failed error) := by
  have failing := Ends.behind_done ends (start_saveToken _ _)
  rw [refused] at failing
  exact ⟨_, (failing.done_inv (start_fail ..)).2.1⟩

theorem Bypasses.guarded {e e' : Expr} {body body' : RenderM Value} (span : e'.span = e.span)
    (restriction : Restriction.of? e' = Restriction.of? e) (inner : Bypasses settings paths body body') :
    Bypasses settings paths (guarded settings e body) (guarded settings e' body') := by
  intro state history value behind ends
  cases allowed : Restriction.of? e with
  | some restriction =>
    obtain ⟨error, same⟩ := guarded_refused allowed body ends
    exact nomatch same
  | none =>
    have open_ (e : Expr) (body : RenderM Value) (allowed : Restriction.of? e = none) :
        RenderM.guarded settings e body = (do saveToken e.span; body) := by
      rw [RenderM.guarded, allowed]
    rw [open_ e body allowed] at ends
    rw [open_ e' body' (restriction.trans allowed), span]
    obtain ⟨bypassed, ended⟩ := inner _ _ _ _ (Ends.behind_done ends (start_saveToken _ _))
    refine ⟨fun path mem => ?_, .of_done (start_saveToken _ _) ended⟩
    obtain ⟨fork, listed, leftOut⟩ := bypassed path mem
    exact ⟨fork, listed, leftOut.of_part rfl (List.infix_refl _)⟩

theorem bypasses_fail (kind : Kind) (message : String) :
    Bypasses settings paths (fail settings kind message : RenderM α) m' :=
  bypasses_never fun _ _ _ _ ends => nomatch (ends.done_inv (start_fail ..)).2.1

/-- An expression whose form is never evaluated bypasses everything. -/
theorem bypasses_unsupported (e : Expr) (what : String) (m' : RenderM Value) :
    Bypasses settings paths (RenderM.guarded settings e (unsupported settings what)) m' := by
  refine bypasses_never fun state history value behind ends => ?_
  cases allowed : Restriction.of? e with
  | some restriction =>
    obtain ⟨error, same⟩ := guarded_refused allowed _ ends
    exact nomatch same
  | none =>
    rw [RenderM.guarded, allowed] at ends
    exact nomatch ((Ends.behind_done ends (start_saveToken _ _)).done_inv (start_fail ..)).2.1

/-- The callee matters to the error only. -/
theorem bypasses_apply (function : Value) (callee callee' : Expr) (args : List Value) :
    Bypasses settings [] (apply settings function callee args) (apply settings function callee' args) := by
  cases function with
  | function handle => exact bypasses_same _
  | _ => exact bypasses_fail _ _

theorem strict_refused {op : BinaryOp} (strict : op.isStrict = true) (s : Option Span) (left right : Expr) :
    ∃ restriction, Restriction.of? (.binary s op left right) = some restriction := by
  cases op with
  | strictEq => exact ⟨.strictEquality, rfl⟩
  | strictNe => exact ⟨.strictInequality, rfl⟩
  | _ => exact nomatch strict

/-! ## Expressions -/

variable (f : Expr → Expr)

mutual

/-- An expression that gives a value gives it with any others in place of its strict equalities, and
each of them is left out by a short circuit. -/
theorem bypasses_evaluate : ∀ e : Expr,
    Bypasses settings e.strictEqualities (evaluate settings e) (evaluate settings (e.replaceStrict f))
  | .num .. | .string .. | .atom .. | .name .. => by
    rw [Expr.strictEqualities, Expr.replaceStrict] <;> first | exact bypasses_same _ | simp
  | .array s items => by
    rw [Expr.strictEqualities, Expr.replaceStrict, evaluate, evaluate]
    exact .guarded rfl rfl ((bypasses_evaluateAll items).ends_with (leaves_evaluateAll items) _)
  | .object s properties => by
    rw [Expr.strictEqualities, Expr.replaceStrict, evaluate, evaluate]
    exact .guarded rfl rfl
      ((bypasses_evaluateProperties [] properties).ends_with (leaves_evaluateProperties [] properties) _)
  | .dot s target property => by
    rw [Expr.strictEqualities, Expr.replaceStrict, evaluate, evaluate]
    exact .guarded rfl rfl ((bypasses_evaluate target).ends_with (leaves_evaluate target) _)
  | .sub s target index => by
    rw [Expr.strictEqualities, Expr.replaceStrict, evaluate, evaluate]
    exact .guarded rfl rfl ((bypasses_evaluate target).bind (leaves_evaluate target) fun base =>
      ((bypasses_evaluate index).keeping [base]).ends_with (leaves_evaluate index).keeping _)
  | .call s callee args => by
    rw [Expr.strictEqualities, Expr.replaceStrict, evaluate, evaluate]
    refine .guarded rfl rfl ((bypasses_evaluate callee).bind (leaves_evaluate callee) fun function => ?_)
    have applied (values : List Value) := (bypasses_same (saveToken s)).bind
      (leaves_modifyScope fun scope => lasting_calm.token scope s) fun _ =>
        (bypasses_apply function callee (callee.replaceStrict f) values : Bypasses settings _ _ _)
    simpa using ((bypasses_evaluateAll args).keeping [function]).bind (leaves_evaluateAll args).keeping applied
  | .prefixOp s op operand => by
    rw [Expr.strictEqualities, Expr.replaceStrict, evaluate, evaluate]
    exact .guarded rfl rfl ((bypasses_evaluate operand).ends_with (leaves_evaluate operand) _)
  | .binary s op left right => by
    have first := bypasses_evaluate left
    have second (value : Value) := (bypasses_evaluate right).keeping [value]
    have returned (value : Value) : Bypasses settings [] (pure value : RenderM Value) (pure value) :=
      bypasses_same (pure value)
    by_cases strict : op.isStrict = true
    · obtain ⟨restriction, refused⟩ := strict_refused strict s left right
      refine bypasses_never fun state history value behind ends => ?_
      rw [evaluate] at ends
      obtain ⟨error, same⟩ := guarded_refused refused _ ends
      exact nomatch same
    rw [Expr.strictEqualities, Expr.replaceStrict, if_neg strict, if_neg strict, List.nil_append,
      evaluate, evaluate]
    refine .guarded rfl rfl ?_
    cases op with
    | and => simpa [BinaryOp.forks] using first.forked second returned
    | or => simpa [BinaryOp.forks] using first.forked returned second
    | _ =>
      simp only [BinaryOp.forks, List.nil_append, List.map_id']
      exact first.bind (leaves_evaluate left) fun value =>
        (second value).ends_with (leaves_evaluate right).keeping _
  | .conditional s test yes no => by
    rw [Expr.strictEqualities, Expr.replaceStrict, evaluate, evaluate]
    exact .guarded rfl rfl ((bypasses_evaluate test).forked (fun _ => bypasses_evaluate yes) fun _ =>
      bypasses_evaluate no)
  | .regexp .. | .new .. | .postfixOp .. | .assign .. | .seq .. | .function .. => by
    rw [evaluate]
    exact bypasses_unsupported _ _ _

theorem bypasses_evaluateAll : ∀ es : List Expr,
    Bypasses settings (strictEqualitiesOf es) (evaluateAll settings es)
      (evaluateAll settings (replaceStrictOf f es))
  | [] => bypasses_same _
  | e :: rest => by
    rw [strictEqualitiesOf, replaceStrictOf, evaluateAll, evaluateAll]
    exact (bypasses_evaluate e).bind (leaves_evaluate e) fun value =>
      ((bypasses_evaluateAll rest).keeping [value]).ends_with (leaves_evaluateAll rest).keeping _

theorem bypasses_evaluateProperties (entries : List (String × Value)) : ∀ properties : List Property,
    Bypasses settings (strictEqualitiesIn properties) (evaluateProperties settings entries properties)
      (evaluateProperties settings entries (replaceStrictIn f properties))
  | [] => bypasses_same _
  | .init key value :: rest => by
    rw [strictEqualitiesIn, replaceStrictIn, evaluateProperties, evaluateProperties]
    exact ((bypasses_evaluate value).keeping _).bind (leaves_evaluate value).keeping fun given =>
      bypasses_evaluateProperties (Table.put entries key given) rest
  | .getter .. :: _ | .setter .. :: _ => bypasses_fail _ _

end

/-! ## Every evaluation -/

/-- Evaluation that gives no value fails with an error. -/
theorem Evaluates.failed {places : Places} {m : RenderM α} (evaluates : Evaluates settings places m) :
    ∀ {state history failure behind}, Ends m state history (.error failure) behind →
      ∃ error, failure = .failed error := by
  induction evaluates with
  | pure result => exact fun ends => nomatch (ends.done_inv (start_pure ..)).2.1
  | failWith kind message cause =>
    intro state history failure behind ends
    cases (ends.done_inv (start_failWith ..)).2.1
    exact ⟨_, rfl⟩
  | bind _ _ first rest =>
    intro state history failure behind ends
    rcases ends.bind_inv with ⟨_, same, begun⟩ | ⟨_, _, value, _, -, -, ended⟩
    · cases same
      exact first begun
    · exact rest value ended
  | scope => exact fun ends => nomatch (ends.done_inv (start_scope _)).2.1
  | saveToken known => exact fun ends => nomatch (ends.done_inv (start_saveToken ..)).2.1
  | freshIdentity => exact fun ends => nomatch (ends.done_inv (start_freshIdentity _)).2.1
  | ask apart =>
    intro state history failure behind ends
    obtain ⟨answer, -, same, -⟩ := ends.ask_inv
    exact nomatch same
  | keeping values _ inner =>
    intro state history failure behind ends
    obtain ⟨_, inside, -⟩ := ends.keeping_inv
    exact inner inside

/-- However an evaluation ends, in whatever scope it is begun and whatever is answered, it has failed,
or a short circuit has left out each strict equality outside function literals: one of the sides that
it stands on was not chosen by the value that the test had in that evaluation. In that case the
evaluation is the same with any other expressions in place of the strict equalities. -/
theorem strict_equality_not_evaluated {e : Expr} {result : Except Failure Value}
    (ends : Ends (evaluate settings e) state history result behind) :
    (∃ error, result = .error (.failed error)) ∨
      (∀ path ∈ e.strictEqualities, ∃ fork ∈ path, LeftOut settings fork state.scope history) ∧
        ∀ f : Expr → Expr, Ends (evaluate settings (e.replaceStrict f)) state history result behind := by
  cases result with
  | error failure =>
    obtain ⟨error, rfl⟩ :=
      (evaluates_evaluate e fun part _ => Places.all_have part).failed ends
    exact .inl ⟨error, rfl⟩
  | ok value =>
    exact .inr ⟨(bypasses_evaluate id e _ _ _ _ ends).1, fun f => (bypasses_evaluate f e _ _ _ _ ends).2⟩

/-- `false && 1 === 2`. -/
def falseAndStrict : Expr :=
  .binary none .and (.atom none .false) (.binary none .strictEq (.num none 1) (.num none 2))

/-- A strict equality that a short circuit leaves out does not keep the expression from a value. -/
theorem strict_equality_left_out :
    falseAndStrict.strictEqualities = [[⟨.atom none .false, true⟩]] ∧
      ∃ behind, Ends (evaluate {} falseAndStrict) ⟨⟨.ofTemplate "index" .null, []⟩, 0, []⟩ []
        (.ok (.bool false)) behind :=
  ⟨rfl, _, .here _⟩

theorem strict_equality_not_evaluated_and :
    ∃ state behind, Ends (evaluate {} falseAndStrict) state [] (.ok (.bool false)) behind ∧
      LeftOut {} ⟨.atom none .false, true⟩ state.scope [] := by
  have ends : Ends (evaluate {} falseAndStrict) ⟨⟨.ofTemplate "index" .null, []⟩, 0, []⟩ []
      (.ok (.bool false)) _ := .here _
  refine ⟨_, _, ends, ?_⟩
  rcases strict_equality_not_evaluated ends with ⟨_, same⟩ | ⟨bypassed, -⟩
  · exact nomatch same
  · obtain ⟨fork, listed, leftOut⟩ := bypassed [⟨.atom none .false, true⟩] (List.mem_singleton.mpr rfl)
    rwa [List.mem_singleton.mp listed] at leftOut

end RenderM

end Stencil.Render
