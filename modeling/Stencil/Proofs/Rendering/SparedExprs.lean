import Stencil.Proofs.Rendering.Likeness
/-!
# Expressions that spare a collection

An expression that spares the collection evaluates alike on twin data, to the same value. One that goes
along the path to it evaluates to twins, with what is left of the path (`alike_evaluate`).
-/

set_option autoImplicit false

namespace Stencil.Render

open Stencil.Error (Kind)
open Stencil.Syntax
open Stencil.Text (Span)

/-- An expression that spares the collection does not go along the path to it. -/
theorem trail_of_spares (path : List String) : ∀ {e : Expr}, ExprSpares path e → trail path e = none
  | .name _ _, spares => spares.1
  | .dot _ target property, spares => by
    rw [trail]
    rcases spares with ⟨key, rest, along, differs⟩ | inner
    · simp [along, differs]
    · simp [trail_of_spares path inner]
  | .num .., _ | .string .., _ | .atom .., _ | .array .., _ | .object .., _ | .sub .., _ | .call .., _
  | .prefixOp .., _ | .binary .., _ | .conditional .., _ | .regexp .., _ | .new .., _
  | .postfixOp .., _ | .assign .., _ | .seq .., _ | .function .., _ => rfl

namespace RenderM

variable {α : Type} {swap : Swap} {provider : Provider} {settings : Settings} {rel : α → α → Prop}

/-- How values correspond from which something is left of the path to the collection, or nothing. -/
def Corresponds (swap : Swap) (left : Option (List String)) (value value' : Value) : Prop :=
  match left with
  | some rest => Pair swap.array swap.stream rest value value'
  | none => value = value'

theorem corresponds_refl (left : Option (List String)) (value : Value) :
    Corresponds swap left value value := by
  cases left with
  | none => rfl
  | some rest => exact .inl rfl

/-- How the values of an expression correspond on twin data. -/
def Sight (swap : Swap) (e : Expr) : Value → Value → Prop := Corresponds swap (trail swap.path e)

theorem eq_of_sight {e : Expr} (spares : ExprSpares swap.path e) {value value' : Value}
    (sight : Sight swap e value value') : value = value' := by
  rw [Sight, trail_of_spares _ spares] at sight
  exact sight

/-! ## Failures and answers -/

theorem alike_failWith (kind : Kind) (message : String) (cause : Option String) :
    Alike swap provider rel (failWith settings kind message cause) (failWith settings kind message cause) :=
  .of_done fun state state' scopes fresh => by
    refine ⟨_, _, state, state', rfl, rfl, ?_, scopes, fresh, le_rfl⟩
    rw [scopes.stackOf, scopes.frame.lastToken]
    exact .error _

theorem alike_fail (kind : Kind) (message : String) :
    Alike swap provider rel (fail settings kind message) (fail settings kind message) :=
  alike_failWith kind message none

theorem alike_accept (answer : Except Cause α) :
    Alike swap provider Eq (accept settings answer) (accept settings answer) := by
  cases answer with
  | ok result => exact alike_pure rfl
  | error cause => exact alike_failWith _ _ _

theorem alike_lookup (handle : Nat) (name : String) :
    Alike swap provider Eq (ask (.lookup handle name) >>= accept settings)
      (ask (.lookup handle name) >>= accept settings) :=
  (alike_ask rfl).bind fun answer answer' same => by
    subst same
    exact alike_accept answer

theorem alike_call (handle : Nat) (args : List Value) :
    Alike swap provider Eq (ask (.call handle args) >>= accept settings)
      (ask (.call handle args) >>= accept settings) :=
  (alike_ask rfl).bind fun answer answer' same => by
    subst same
    exact alike_accept answer

theorem alike_saveToken (span : Option Span) :
    Alike swap provider Eq (saveToken span) (saveToken span) :=
  alike_modifyScope fun _ _ twins => twins.modifyFrame fun _ _ inner => inner.saveToken span

/-! ## Names and members -/

/-- A name that is not the next of the path is the same in twins. -/
theorem own?_of_spares {s : Option Span} {name : String} (spares : ExprSpares swap.path (.name s name))
    {value value' : Value} (twins : Twins swap.array swap.stream swap.path value value') :
    value.own? name = value'.own? name := by
  obtain ⟨off, foreign⟩ := spares
  generalize swap.path = path at *
  cases path with
  | nil =>
    cases twins
    have absent : swap.array.own? name = none ∧ swap.stream.own? name = none :=
      Twins.own?_here (foreign rfl)
    exact absent.1.trans absent.2.symm
  | cons key rest =>
    refine twins.own?_of_ne fun same => ?_
    simp only [trail, same, if_true] at off
    split at off <;> exact nomatch off

/-- A name that goes along the path has values that correspond in twins, or is the name of all data. -/
theorem own?_of_trail {s : Option Span} {name : String} {rest : List String}
    (along : trail swap.path (.name s name) = some rest) (differs : name ≠ "$data")
    {value value' : Value} (twins : Twins swap.array swap.stream swap.path value value') :
    ∃ inner inner', value.own? name = some inner ∧ value'.own? name = some inner' ∧
      Twins swap.array swap.stream rest inner inner' := by
  generalize swap.path = path at *
  simp only [trail, if_neg differs] at along
  cases path with
  | nil => exact nomatch along
  | cons key rest' =>
    dsimp only at along
    split at along
    · rename_i same
      cases along
      exact same ▸ twins.own?_key
    · exact nomatch along

theorem resolveIn_local {name : String} {frame : Frame} {value : Value} (outer : List Frame)
    (named : frame.local? name = some value) :
    resolveIn settings name (frame :: outer) = pure value := by
  rw [resolveIn, named]

/-- In a frame whose data is no lookup, a name that is no local one is a member of the data. -/
theorem resolveIn_plain {name : String} {frame : Frame} (outer : List Frame)
    (absent : frame.local? name = none) (plain : ∀ handle, frame.data ≠ .dynamic handle) :
    resolveIn settings name (frame :: outer) =
      match frame.data.own? name with
      | some value => pure value
      | none => resolveIn settings name outer := by
  rw [resolveIn, absent]
  cases data : frame.data with
  | dynamic handle => exact absurd data (plain handle)
  | _ => rfl

theorem resolveIn_dynamic {name : String} {frame : Frame} (outer : List Frame) {handle : Nat}
    (absent : frame.local? name = none) (data : frame.data = .dynamic handle) :
    resolveIn settings name (frame :: outer) = (do
      let value ← ask (.lookup handle name) >>= accept settings
      if value.isUndefined then resolveIn settings name outer else return value) := by
  rw [resolveIn, absent, data]
  exact (bind_assoc _ _ _).symm

theorem alike_resolveIn {s : Option Span} {name : String} (near : Near swap.path (.name s name))
    {frames frames' : List Frame}
    (twins : List.Forall₂ (FrameTwins swap.array swap.stream swap.path) frames frames') :
    Alike swap provider (Sight swap (.name s name)) (resolveIn settings name frames)
      (resolveIn settings name frames') := by
  have same : ∀ value : Value, Sight swap (.name s name) value value := corresponds_refl _
  induction twins with
  | nil => exact alike_fail _ _
  | @cons frame frame' outer outer' head tail ih =>
    cases found : frame.local? name with
    | some value =>
      obtain ⟨value', found', pair⟩ : ∃ value', frame'.local? name = some value' ∧
          (value = value' ∨ name = "$data" ∧ Twins swap.array swap.stream swap.path value value') := by
        have locals := head.locals name
        rw [found] at locals
        cases other : frame'.local? name with
        | none =>
          rw [other] at locals
          exact nomatch locals
        | some value' =>
          rw [other] at locals
          cases locals with
          | some pair => exact ⟨value', rfl, pair⟩
      rw [resolveIn_local _ found, resolveIn_local _ found']
      refine alike_pure ?_
      rcases pair with rfl | ⟨rfl, twins⟩
      · exact same _
      · exact .inr twins
    | none =>
      have found' : frame'.local? name = none := by
        have locals := head.locals name
        rw [found] at locals
        cases other : frame'.local? name with
        | none => rfl
        | some value' =>
          rw [other] at locals
          exact nomatch locals
      rcases head.data with equal | twins
      · by_cases lookup : ∃ handle, frame.data = .dynamic handle
        · obtain ⟨handle, data⟩ := lookup
          rw [resolveIn_dynamic _ found data, resolveIn_dynamic _ found' (equal ▸ data)]
          refine (alike_lookup handle name).bind fun value value' equal => ?_
          subst equal
          split
          · exact ih
          · exact alike_pure (same _)
        · have plain : ∀ handle, frame.data ≠ .dynamic handle := fun handle data => lookup ⟨handle, data⟩
          rw [resolveIn_plain _ found plain, resolveIn_plain _ found' (equal ▸ plain), ← equal]
          split
          · exact alike_pure (same _)
          · exact ih
      · rw [resolveIn_plain _ found fun handle => twins.ne_dynamic.1,
          resolveIn_plain _ found' fun handle => twins.ne_dynamic.2]
        rcases near with spares | ⟨rest, along⟩
        · -- The name is another member of the data, or none.
          rw [own?_of_spares spares twins]
          split
          · exact alike_pure (same _)
          · exact ih
        · have differs : name ≠ "$data" := by
            rintro rfl
            rcases head.named with equal | named
            · exact twins.differs equal
            · rw [found] at named
              exact nomatch named
          obtain ⟨inner, inner', here, here', correspond⟩ := own?_of_trail along differs twins
          rw [here, here']
          refine alike_pure ?_
          rw [Sight, along]
          exact .inr correspond

theorem alike_member (base : Value) (key : String) :
    Alike swap provider Eq (member settings base key) (member settings base key) := by
  unfold member
  split
  · exact alike_fail _ _
  · exact alike_fail _ _
  · refine ((alike_ask rfl).keeping _ _).bind fun answer answer' same => ?_
    subst same
    exact alike_accept answer
  · exact alike_pure rfl

/-- A value that is twin to another has its members. -/
theorem member_of_twins (settings : Settings) {path : List String} {value value' : Value}
    (twins : Twins swap.array swap.stream path value value') (key : String) :
    member settings value key = pure ((value.own? key).getD .undefined) ∧
      member settings value' key = pure ((value'.own? key).getD .undefined) := by
  cases twins with
  | here => exact ⟨rfl, rfl⟩
  | inside => exact ⟨rfl, rfl⟩

/-- The member of a target that goes along the path, or of one that spares the collection. -/
theorem alike_member_near {s : Option Span} {target : Expr} {property : String}
    (near : Near swap.path (.dot s target property)) {base base' : Value}
    (sight : Sight swap target base base') :
    Alike swap provider (Sight swap (.dot s target property)) (member settings base property)
      (member settings base' property) := by
  have same : ∀ value : Value, Sight swap (.dot s target property) value value := corresponds_refl _
  cases left : trail swap.path target with
  | none =>
    rw [Sight, left] at sight
    obtain rfl : base = base' := sight
    exact (alike_member base property).mono fun value value' equal => equal ▸ same value
  | some remaining =>
    rw [Sight, left] at sight
    rcases sight with rfl | twins
    · exact (alike_member base property).mono fun value value' equal => equal ▸ same value
    · obtain ⟨here, here'⟩ := member_of_twins settings twins property
      rw [here, here']
      refine alike_pure ?_
      cases remaining with
      | nil =>
        -- Behind the path there is no member that could be named.
        rcases near with spares | ⟨rest, along⟩
        · rcases spares with ⟨key, rest, along, -⟩ | inner
          · exact nomatch left.symm.trans along
          · exact nomatch left.symm.trans (trail_of_spares _ inner)
        · simp [trail, left] at along
      | cons key rest =>
        by_cases next : property = key
        · subst next
          obtain ⟨inner, inner', found, found', correspond⟩ := twins.own?_key
          rw [found, found', Sight, trail, left]
          simp only [if_true]
          exact .inr correspond
        · rw [twins.own?_of_ne next]
          exact same _

theorem alike_apply (function : Value) (callee : Expr) (args : List Value) :
    Alike swap provider Eq (apply settings function callee args) (apply settings function callee args) := by
  unfold apply
  split
  · exact alike_call _ _
  · exact alike_fail _ _

theorem alike_applyUnary (op : UnaryOp) (operand : Value) :
    Alike swap provider Eq (applyUnary settings op operand) (applyUnary settings op operand) := by
  unfold applyUnary
  split
  · exact alike_pure rfl
  · exact alike_pure rfl
  · exact alike_pure rfl
  · exact alike_fail _ _

theorem alike_applyBinary (op : BinaryOp) (left right : Value) :
    Alike swap provider Eq (applyBinary settings op left right) (applyBinary settings op left right) := by
  unfold applyBinary
  split
  · exact alike_pure rfl
  · exact alike_fail _ _

/-! ## Expressions -/

theorem alike_guarded {e : Expr} {body body' : RenderM Value} {rel : Value → Value → Prop}
    (inner : Alike swap provider rel body body') :
    Alike swap provider rel (guarded settings e body) (guarded settings e body') := by
  refine (alike_saveToken e.span).bind fun _ _ _ => ?_
  split
  · exact alike_fail _ _
  · exact inner

/-- An expression whose values are the same is one that spares the collection. -/
theorem Alike.sight {e : Expr} {m m' : RenderM Value} (alike : Alike swap provider Eq m m') :
    Alike swap provider (Sight swap e) m m' :=
  alike.mono fun value _ same => same ▸ corresponds_refl _ value

theorem spares_of_near {e : Expr} (off : trail swap.path e = none) (near : Near swap.path e) :
    ExprSpares swap.path e := by
  rcases near with spares | ⟨rest, along⟩
  · exact spares
  · exact nomatch off.symm.trans along

/-- The target of a member that is near the path is near it. -/
theorem near_target {s : Option Span} {target : Expr} {property : String}
    (near : Near swap.path (.dot s target property)) : Near swap.path target := by
  rcases near with (⟨key, rest, along, -⟩ | inner) | ⟨rest, along⟩
  · exact .inr ⟨_, along⟩
  · exact .inl inner
  · cases found : trail swap.path target with
    | none => simp [trail, found] at along
    | some left => exact .inr ⟨left, found⟩

mutual

/-- On twin data an expression near the path has values that correspond. -/
theorem alike_evaluate : ∀ e : Expr, Near swap.path e →
    Alike swap provider (Sight swap e) (evaluate settings e) (evaluate settings e)
  | .num .., _ | .string .., _ | .atom .., _ => by
    rw [evaluate]
    exact (alike_guarded (alike_pure rfl)).sight
  | .name s name, near => by
    rw [evaluate]
    exact alike_guarded (alike_scope.bind fun scope scope' twins => alike_resolveIn near twins)
  | .array s items, near => by
    have spares : ListSpares swap.path items := spares_of_near rfl near
    rw [evaluate]
    refine (alike_guarded ((alike_evaluateAll items spares).bind fun values values' same => ?_)).sight
    exact alike_freshIdentity.bind fun number number' equal => alike_pure (by rw [same, equal])
  | .object s properties, near => by
    have spares : PropertiesSpare swap.path properties := spares_of_near rfl near
    rw [evaluate]
    refine (alike_guarded
      ((alike_evaluateProperties properties spares []).bind fun entries entries' same => ?_)).sight
    exact alike_freshIdentity.bind fun number number' equal => alike_pure (by rw [same, equal])
  | .dot s target property, near => by
    rw [evaluate]
    exact alike_guarded ((alike_evaluate target (near_target near)).bind fun base base' sight =>
      alike_member_near near sight)
  | .sub s target index, near => by
    obtain ⟨target_, index_⟩ : ExprSpares swap.path target ∧ ExprSpares swap.path index :=
      spares_of_near rfl near
    rw [evaluate]
    refine (alike_guarded ((alike_spared target target_).bind fun base base' same => ?_)).sight
    subst same
    refine ((alike_spared index index_).keeping _ _).bind fun key key' same => ?_
    subst same
    exact alike_member base key.display
  | .call s callee args, near => by
    obtain ⟨callee_, args_⟩ : ExprSpares swap.path callee ∧ ListSpares swap.path args :=
      spares_of_near rfl near
    rw [evaluate]
    refine (alike_guarded ((alike_spared callee callee_).bind fun function function' same => ?_)).sight
    subst same
    refine ((alike_evaluateAll args args_).keeping _ _).bind fun values values' same => ?_
    subst same
    exact (alike_saveToken s).bind fun _ _ _ => alike_apply function callee values
  | .prefixOp s op operand, near => by
    have spares : ExprSpares swap.path operand := spares_of_near (e := .prefixOp s op operand) rfl near
    rw [evaluate]
    refine (alike_guarded ((alike_spared operand spares).bind fun value value' same => ?_)).sight
    subst same
    exact alike_applyUnary op value
  | .binary s op left right, near => by
    obtain ⟨left_, right_⟩ : ExprSpares swap.path left ∧ ExprSpares swap.path right :=
      spares_of_near rfl near
    rw [evaluate]
    refine (alike_guarded ((alike_spared left left_).bind fun first first' same => ?_)).sight
    subst same
    have second := (alike_spared right right_).keeping [first] [first]
    split
    · split
      · exact second
      · exact alike_pure rfl
    · split
      · exact alike_pure rfl
      · exact second
    · refine second.bind fun value value' same => ?_
      subst same
      exact alike_applyBinary _ first value
  | .conditional s test yes no, near => by
    obtain ⟨test_, yes_, no_⟩ : ExprSpares swap.path test ∧ ExprSpares swap.path yes ∧
        ExprSpares swap.path no := spares_of_near rfl near
    rw [evaluate]
    refine (alike_guarded ((alike_spared test test_).bind fun value value' same => ?_)).sight
    subst same
    split
    · exact alike_spared yes yes_
    · exact alike_spared no no_
  | .regexp .., _ | .new .., _ | .postfixOp .., _ | .assign .., _ | .seq .., _ | .function .., _ => by
    rw [evaluate]
    exact (alike_guarded (alike_fail _ _)).sight

/-- On twin data an expression that spares the collection has the same value. -/
theorem alike_spared (e : Expr) (spares : ExprSpares swap.path e) :
    Alike swap provider Eq (evaluate settings e) (evaluate settings e) :=
  (alike_evaluate e (.inl spares)).mono fun _ _ => eq_of_sight spares

theorem alike_evaluateAll : ∀ items : List Expr, ListSpares swap.path items →
    Alike swap provider Eq (evaluateAll settings items) (evaluateAll settings items)
  | [], _ => alike_pure rfl
  | e :: rest, ⟨first, others⟩ => by
    rw [evaluateAll]
    refine (alike_spared e first).bind fun value value' same => ?_
    refine ((alike_evaluateAll rest others).keeping _ _).bind fun values values' equal => ?_
    exact alike_pure (by rw [same, equal])

theorem alike_evaluateProperties : ∀ properties : List Property, PropertiesSpare swap.path properties →
    ∀ entries : List (String × Value), Alike swap provider Eq
      (evaluateProperties settings entries properties) (evaluateProperties settings entries properties)
  | [], _, entries => alike_pure rfl
  | .init key value :: rest, ⟨first, others⟩, entries => by
    rw [evaluateProperties]
    refine ((alike_spared value first).keeping _ _).bind fun value value' same => ?_
    subst same
    exact alike_evaluateProperties rest others (Table.put entries key value)
  | .getter .. :: _, _, _ | .setter .. :: _, _, _ => by
    rw [evaluateProperties]
    exact alike_fail _ _

end

end RenderM

end Stencil.Render
