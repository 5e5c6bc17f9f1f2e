import Stencil.Proofs.Parsing.ExtentRules
/-!
# Every node that is read carries a span

A tree that is read with spans is `Whole`: every node carries one, but for what stands in the place of
an expression that an array literal lacks. The rule that reads such an array is the only one that makes
a node without asking for its span.

Where a rule is begun does not matter here, so `Makes` says what a rule makes at every cursor, with one
law for each way rules are put together. The rules of one depth are followed one by one, given those
that are entered again from within (`Rules.Making`), and the depths by induction.
-/

set_option autoImplicit false
set_option linter.unusedSectionVars false

namespace Stencil.Syntax

/-- The part carries a span, and so does every node below it, but for the elements that arrays lack. -/
inductive Part.Whole : Part → Prop where
  /-- A node over others. -/
  | node {part : Part} (own : part.span.isSome = true) (below : ∀ child ∈ part.children, child.Whole) :
    part.Whole
  /-- An array, some of whose elements may be missing. -/
  | array {part : Part} {s : Option Text.Span} {items : List Expr} (same : part = .expr (.array s items))
    (own : part.span.isSome = true)
    (below : ∀ item ∈ items, Part.expr item ≠ .missing → (Part.expr item).Whole) : part.Whole

theorem Part.Whole.own {part : Part} (whole : part.Whole) : part.span.isSome = true := by
  cases whole with
  | node own _ => exact own
  | array _ own _ => exact own

/-- Below a whole part every node is whole, but for the elements that an array lacks. -/
theorem Part.Whole.child {part child : Part} (whole : part.Whole) (below : child ∈ part.children) :
    child.Whole ∨ child = .missing ∧ ∃ s items, part = .expr (.array s items) := by
  cases whole with
  | node _ all => exact .inl (all child below)
  | array same _ all =>
    subst same
    obtain ⟨item, listed, rfl⟩ := List.mem_map.mp below
    by_cases lacking : Part.expr item = .missing
    · exact .inr ⟨lacking, _, _, rfl⟩
    · exact .inl (all item listed lacking)

/-- Nothing stands below what stands in the place of a missing element. -/
theorem Part.children_missing : Part.missing.children = [] := rfl

/-- At and below whole parts every node is whole, but for the elements that arrays lack. -/
theorem Part.Within.whole {roots : List Part} {part : Part} (within : part.Within roots)
    (whole : ∀ root ∈ roots, root.Whole) : part.Whole ∨ part = .missing := by
  induction within with
  | root listed => exact .inl (whole _ listed)
  | child _ below ih =>
    rcases ih with above | rfl
    · exact (above.child below).imp_right And.left
    · exact nomatch Part.children_missing ▸ below

/-- Every node of a tree carries a span, but for what stands in the place of the elements that arrays
lack. -/
structure Spanned (roots parts : List Part) : Prop where
  /-- The roots carry spans. -/
  tops : ∀ root ∈ roots, root.span.isSome = true
  /-- So does every node below another, but for the elements that an array lacks. -/
  below : ∀ part : Part, part.Within roots → ∀ child ∈ part.children,
    child.span.isSome = true ∨ child = .missing ∧ ∃ s items, part = .expr (.array s items)
  /-- Where no array lacks an element, every node among the parts carries a span. -/
  complete : (∀ s items, (Part.expr (.array s items)).Within roots → .atom none .undefined ∉ items) →
    ∀ part ∈ parts, part.isNode = true → part.span.isSome = true

/-- The spans of a tree with whole roots. -/
theorem Spanned.of_whole {roots parts : List Part} (whole : ∀ root ∈ roots, root.Whole)
    (rooted : Rooted roots parts) : Spanned roots parts := by
  have below (part : Part) (within : part.Within roots) (child : Part) (listed : child ∈ part.children) :
      child.span.isSome = true ∨ child = .missing ∧ ∃ s items, part = .expr (.array s items) := by
    rcases within.whole whole with all | rfl
    · exact (all.child listed).imp_left Part.Whole.own
    · exact nomatch Part.children_missing ▸ listed
  refine ⟨fun root listed => (whole root listed).own, below, fun gapless part listed node => ?_⟩
  cases rooted part listed node with
  | root listed => exact (whole part listed).own
  | child above inside =>
    rcases below _ above part inside with own | ⟨rfl, s, items, rfl⟩
    · exact own
    · obtain ⟨item, lacking, same⟩ := List.mem_map.mp inside
      cases same
      exact absurd lacking (gapless s items above)

end Stencil.Syntax

namespace Stencil.Grammar

open Stencil.Syntax
open Stencil.Text (Position Span)
open Stencil.Grammar.Parser

variable {α β σ : Type}

/-- Wherever a rule is run with spans, what it gives is as described. -/
def Makes (strict : Bool) (p : Parser α) (good : α → Prop) : Prop :=
  ∀ c, Gives (withSpans strict) c p fun a _ => good a

section Laws

variable {strict : Bool} {p : Parser α} {good : α → Prop} {goal : β → Prop}

theorem makes_pure {a : α} (holds : good a) : Makes strict (pure a) good :=
  fun _ => holds

/-- What goes on with a result that is as described. -/
theorem Makes.bind {f : α → Parser β} (first : Makes strict p good)
    (rest : ∀ a, good a → Makes strict (f a) goal) : Makes strict (p >>= f) goal := by
  intro c
  rw [Gives, ends_bind]
  exact (first c).next fun a behind holds => rest a holds behind

/-- What goes on with a result that does not matter. -/
theorem makes_then {f : α → Parser β} (rest : ∀ a, Makes strict (f a) goal) :
    Makes strict (p >>= f) goal := by
  have first : Makes strict p fun _ => True := by
    intro c
    unfold Gives Ends
    split <;> trivial
  exact first.bind fun a _ => rest a

/-- What goes on with a value. -/
theorem makes_with {a : α} {f : α → Parser β} (rest : Makes strict (f a) goal) :
    Makes strict (pure a >>= f) goal := by
  rwa [pure_bind]

/-- What goes on with the span of what was read. -/
theorem makes_spanFrom {start : Position} {f : Option Span → Parser β}
    (rest : ∀ s, Makes strict (f (some s)) goal) : Makes strict (spanFrom start >>= f) goal := by
  intro c
  rw [Gives, ends_bind, ends_spanFrom]
  exact rest _ c

/-- A loop whose steps keep what is known of its state. -/
theorem makes_loop (known : σ → Prop) {step : σ → Parser (σ ⊕ α)}
    (steps : ∀ state, known state → Makes strict (step state) (Sum.elim known good)) {state : σ}
    (start : known state) : Makes strict (loop step state) good := by
  intro c
  refine gives_loop (fun state _ => known state) (fun state behind holds => ?_) state start
  refine (steps state holds behind).next fun outcome _ kept => ?_
  cases outcome with
  | inl state => exact kept
  | inr result => exact kept

theorem makes_ite {condition : Prop} [Decidable condition] {q : Parser α} (first : Makes strict p good)
    (second : Makes strict q good) : Makes strict (if condition then p else q) good := by
  split
  · exact first
  · exact second

theorem makes_refuse (error : Error.ParseError) : Makes strict (refuse error : Parser α) good :=
  fun _ => trivial

theorem makes_unexpected : Makes strict (unexpected : Parser α) good :=
  fun _ => trivial

end Laws

/-- The rules that are entered again from within make whole trees. -/
structure Rules.Making (strict : Bool) (R : Rules) : Prop where
  expression : ∀ commas noIn, Makes strict (R.expression commas noIn) fun e => (Part.expr e).Whole
  assignment : ∀ noIn, Makes strict (R.assignment noIn) fun e => (Part.expr e).Whole
  operators : ∀ {left : Expr}, (Part.expr left).Whole → ∀ start bound noIn,
    Makes strict (R.operators left start bound noIn) fun e => (Part.expr e).Whole
  unary : ∀ calls, Makes strict (R.unary calls) fun e => (Part.expr e).Whole
  primary : ∀ calls, Makes strict (R.primary calls) fun e => (Part.expr e).Whole
  statement : ∀ around, Makes strict (R.statement around) fun s => (Part.stmt s).Whole
  chunk : Makes strict R.chunk fun c => (Part.chunk c).Whole

/-- The parts are all whole. -/
def Wholes (parts : List Part) : Prop := Everywhere Part.Whole parts

namespace Wholes

variable {parts more : List Part} {part : Part}

theorem nil : Wholes [] := everywhere_nil

theorem one (whole : part.Whole) : Wholes [part] :=
  fun _ listed => List.mem_singleton.mp listed ▸ whole

theorem append (first : Wholes parts) (second : Wholes more) : Wholes (parts ++ more) :=
  (everywhere_append parts more).2 ⟨first, second⟩

/-- The parts of one item more. -/
theorem snoc {γ : Type} {below : γ → List Part} {items : List γ} {item : γ}
    (first : Wholes (items.flatMap below)) (last : Wholes (below item)) :
    Wholes ((items ++ [item]).flatMap below) := by
  rw [List.flatMap_append, List.flatMap_singleton]
  exact first.append last

theorem snocMap {γ : Type} {make : γ → Part} {items : List γ} {item : γ}
    (first : Wholes (items.map make)) (last : (make item).Whole) :
    Wholes ((items ++ [item]).map make) := by
  rw [List.map_append]
  exact first.append (one last)

/-- A node with a span, over parts that are whole. -/
theorem node (below : Wholes parts) (own : part.span.isSome = true) (same : part.children = parts) :
    part.Whole :=
  .node own (same ▸ below)

end Wholes

/-- The expressions are whole, but for those that are missing, if some may be. -/
def WholeBut (gaps : Bool) (items : List Expr) : Prop :=
  ∀ item ∈ items, (gaps = true → Part.expr item ≠ .missing) → (Part.expr item).Whole

theorem WholeBut.snoc {gaps : Bool} {items : List Expr} {e : Expr} (read : WholeBut gaps items)
    (last : (gaps = true → Part.expr e ≠ .missing) → (Part.expr e).Whole) :
    WholeBut gaps (items ++ [e]) := by
  intro item listed
  rcases List.mem_append.mp listed with listed | same
  · exact read item listed
  · exact List.mem_singleton.mp same ▸ last

section Rules

variable {strict : Bool} {R : Rules} (making : R.Making strict)

include making

/-! ## Expressions -/

/-- The expressions of a list are whole, but for those that are missing where they may be. -/
theorem makes_expressionList (closing : Char) (trailing gaps : Bool) :
    Makes strict (expressionList R closing trailing gaps) (WholeBut gaps) := by
  have item (items : List Expr) (read : WholeBut gaps items) :
      Makes strict
        (do
          if trailing && (← atPunctuation closing) then return .inr items
          if gaps && (← atPunctuation ',') then return .inl (items ++ [.atom none .undefined])
          return .inl (items ++ [← R.expression false false]) : Parser (List Expr ⊕ List Expr))
        (Sum.elim (WholeBut gaps) (WholeBut gaps)) := by
    refine makes_then fun closed => makes_ite (makes_pure read) (makes_then fun comma => ?_)
    split
    · next gap =>
      exact makes_pure (read.snoc fun present =>
        absurd rfl (present (Bool.and_eq_true_iff.mp gap).1))
    · exact (making.expression false false).bind fun e whole => makes_pure (read.snoc fun _ => whole)
  refine (makes_loop (WholeBut gaps) (fun items read => ?_) ?_).bind fun items read =>
    makes_then fun _ => makes_pure read
  · exact makes_then fun closed => makes_ite (makes_pure read)
      (makes_ite (makes_then fun _ => item items read) (item items read))
  · exact fun _ listed => absurd listed List.not_mem_nil

/-- Where no expression of a list may be missing, all are whole. -/
theorem makes_arguments :
    Makes strict (expressionList R ')' false false) fun items => Wholes (items.map .expr) := by
  intro c
  refine (makes_expressionList making ')' false false c).next fun items _ read part listed => ?_
  obtain ⟨item, inside, rfl⟩ := List.mem_map.mp listed
  exact read item inside fun gap => nomatch gap

theorem makes_block (around : Surroundings) :
    Makes strict (block R around) fun body => Wholes (body.map .stmt) := by
  refine makes_then fun _ => (makes_loop (fun body => Wholes (body.map .stmt))
    (fun body read => ?_) .nil).bind fun body read => makes_then fun _ => makes_pure read
  refine makes_then fun closed => makes_ite (makes_pure read) (makes_then fun token =>
    makes_ite (makes_then fun _ => ?_) ?_)
  all_goals exact (making.statement around).bind fun s whole => makes_pure (read.snocMap whole)

theorem makes_function (declaration : Bool) :
    Makes strict (function R declaration) fun fn => Wholes fn.children := by
  refine makes_then fun kind => ?_
  have behind (name : Option String) : Makes strict
      (do
        expectPunctuation '('
        let names ← parameters
        return .mk name names (← block R .ofFunction) : Parser Function) fun fn => Wholes fn.children :=
    makes_then fun _ => makes_then fun names => (makes_block making .ofFunction).bind fun body read =>
      makes_pure read
  split
  · exact makes_then fun _ => behind _
  · exact makes_ite (makes_then fun _ => behind _) (behind none)

theorem makes_property : Makes strict (property R) fun p => Wholes p.children := by
  refine makes_then fun kind => makes_then fun key => makes_then fun colon => ?_
  have accessor {make : String → Function → Property}
      (same : ∀ key fn, (make key fn).children = fn.children) : Makes strict
      (do
        let key ← anyName
        return make key (← function R false)) fun p => Wholes p.children :=
    makes_then fun key => (makes_function making false).bind fun fn read => makes_pure (by rwa [same])
  split
  · exact accessor fun _ _ => rfl
  · exact accessor fun _ _ => rfl
  · exact makes_then fun _ => (making.expression false false).bind fun value whole =>
      makes_pure (.one whole)

theorem makes_objectBody :
    Makes strict (objectBody R) fun properties => Wholes (properties.flatMap Property.children) := by
  refine makes_then fun options => (makes_loop (fun properties : List Property =>
    Wholes (properties.flatMap Property.children)) (fun properties read => ?_) ?start).bind
      fun properties read => makes_then fun _ => makes_pure read
  case start => exact .nil
  have next : Makes strict
      (do
        if !options.strict && (← atPunctuation '\x7d') then return .inr properties
        return .inl (properties ++ [← property R]) : Parser (List Property ⊕ List Property))
      (Sum.elim (fun properties => Wholes (properties.flatMap Property.children))
        fun properties => Wholes (properties.flatMap Property.children)) :=
    makes_then fun closed => makes_ite (makes_pure read)
      ((makes_property making).bind fun p whole => makes_pure (read.snoc whole))
  exact makes_then fun closed => makes_ite (makes_pure read)
    (makes_ite (makes_then fun _ => next) next)

theorem makes_subscripts {operand : Expr} (read : (Part.expr operand).Whole) (start : Position)
    (calls : Bool) : Makes strict (subscripts R operand start calls) fun e => (Part.expr e).Whole := by
  refine makes_loop (fun operand => (Part.expr operand).Whole) (fun operand read => ?_) read
  refine makes_then fun point => makes_ite ?_ (makes_then fun bracket => makes_ite ?_
    (makes_then fun paren => makes_ite ?_ (makes_pure read)))
  · exact makes_then fun _ => makes_then fun name => makes_spanFrom fun s =>
      makes_pure ((Wholes.one read).node rfl rfl)
  · exact makes_then fun _ => (making.expression true false).bind fun index inside =>
      makes_then fun _ => makes_spanFrom fun s =>
        makes_pure (((Wholes.one read).append (.one inside)).node rfl rfl)
  · exact makes_then fun _ => (makes_arguments making).bind fun args listed =>
      makes_spanFrom fun s => makes_pure (((Wholes.one read).append listed).node rfl rfl)

theorem makes_newExpression (start : Position) :
    Makes strict (newExpression R start) fun e => (Part.expr e).Whole := by
  refine (making.primary false).bind fun callee read => ?_
  have called {args : List Expr} (listed : Wholes (args.map .expr)) : Makes strict
      (do subscripts R (.new (← spanFrom start) callee args) start true) fun e => (Part.expr e).Whole :=
    makes_spanFrom fun s =>
      makes_subscripts making (((Wholes.one read).append listed).node rfl rfl) start true
  exact makes_then fun paren => makes_ite
    (makes_then fun _ => (makes_arguments making).bind fun args listed => called listed) (called .nil)

theorem makes_atom (start : Position) : Makes strict (atom R start) fun e => (Part.expr e).Whole := by
  have single {make : Option Span → Expr} (own : ∀ s, (make s).span = s)
      (leaf : ∀ s, (make s).children = []) : Makes strict
      (do
        advance
        return make (← spanFrom start)) fun e => (Part.expr e).Whole :=
    makes_then fun _ => makes_spanFrom fun s => makes_pure
      (Wholes.nil.node (congrArg Option.isSome (own (some s))) (leaf (some s)))
  refine makes_then fun kind => ?_
  split
  · refine makes_then fun _ => makes_then fun options => (makes_expressionList making _ _ true).bind
      fun items read => makes_spanFrom fun s => makes_pure ?_
    exact .array rfl rfl fun item listed present => read item listed fun _ => present
  · exact makes_then fun _ => (makes_objectBody making).bind fun properties read =>
      makes_spanFrom fun s => makes_pure (read.node rfl rfl)
  · exact makes_then fun _ => (makes_function making false).bind fun fn read =>
      makes_spanFrom fun s => makes_pure (read.node rfl rfl)
  · exact single (fun _ => rfl) fun _ => rfl
  · exact single (fun _ => rfl) fun _ => rfl
  · exact single (fun _ => rfl) fun _ => rfl
  · exact single (fun _ => rfl) fun _ => rfl
  · exact single (fun _ => rfl) fun _ => rfl
  · exact makes_unexpected

theorem makes_primary (calls : Bool) :
    Makes strict (primary R calls) fun e => (Part.expr e).Whole := by
  refine makes_then fun start => makes_then fun new => makes_ite ?_
    (makes_then fun paren => makes_ite ?_ ?_)
  · exact makes_then fun _ => makes_newExpression making start
  · exact makes_then fun _ => (making.expression true false).bind fun inner read =>
      makes_then fun _ => makes_subscripts making read start calls
  · exact (makes_atom making start).bind fun operand read => makes_subscripts making read start calls

theorem makes_unary (calls : Bool) : Makes strict (unary R calls) fun e => (Part.expr e).Whole := by
  refine makes_then fun start => makes_then fun kind => ?_
  split
  · exact makes_then fun _ => (making.unary calls).bind fun operand read =>
      makes_then fun _ => makes_spanFrom fun s => makes_pure ((Wholes.one read).node rfl rfl)
  · refine (makes_primary making calls).bind fun operand read =>
      makes_loop (fun operand => (Part.expr operand).Whole) (fun operand read => ?_) read
    refine makes_then fun token => ?_
    split
    · exact makes_then fun _ => makes_then fun _ => makes_spanFrom fun s =>
        makes_pure ((Wholes.one read).node rfl rfl)
    · exact makes_pure read

theorem makes_operators {left : Expr} (read : (Part.expr left).Whole) (start : Position) (bound : Nat)
    (noIn : Bool) :
    Makes strict (operators R left start bound noIn) fun e => (Part.expr e).Whole := by
  refine makes_then fun kind => ?_
  split
  · exact makes_pure read
  · exact makes_ite (makes_pure read) (makes_then fun _ => makes_then fun rightStart =>
      (makes_unary making true).bind fun operand operated =>
        (making.operators operated rightStart _ noIn).bind fun right whole => makes_spanFrom fun s =>
          making.operators (((Wholes.one read).append (.one whole)).node rfl rfl) start bound noIn)

theorem makes_conditional (noIn : Bool) :
    Makes strict (conditional R noIn) fun e => (Part.expr e).Whole := by
  refine makes_then fun start => (makes_unary making true).bind fun operand operated =>
    (makes_operators making operated start 0 noIn).bind fun test tested => makes_then fun mark =>
      makes_ite (makes_then fun _ => ?_) (makes_pure tested)
  exact (making.expression false false).bind fun yes one => makes_then fun _ =>
    (making.expression false noIn).bind fun no other => makes_spanFrom fun s =>
      makes_pure ((((Wholes.one tested).append (.one one)).append (.one other)).node rfl rfl)

theorem makes_assignment (noIn : Bool) :
    Makes strict (assignment R noIn) fun e => (Part.expr e).Whole := by
  refine makes_then fun start => (makes_conditional making noIn).bind fun target aimed =>
    makes_then fun kind => ?_
  split
  · exact makes_pure aimed
  · have next (op : Option BinaryOp) : Makes strict
        (do
          advance
          let value ← R.assignment noIn
          return .assign (← spanFrom start) op target value) fun e => (Part.expr e).Whole :=
      makes_then fun _ => (making.assignment noIn).bind fun value read => makes_spanFrom fun s =>
        makes_pure (((Wholes.one aimed).append (.one read)).node rfl rfl)
    exact makes_then fun options => makes_ite (makes_then fun _ => next _) (next _)

theorem makes_expression (commas noIn : Bool) :
    Makes strict (expression R commas noIn) fun e => (Part.expr e).Whole := by
  refine makes_then fun start => (makes_assignment making noIn).bind fun first read =>
    makes_then fun comma => makes_ite (makes_then fun _ => ?_) (makes_pure read)
  exact (making.expression true noIn).bind fun rest others => makes_spanFrom fun s =>
    makes_pure (((Wholes.one read).append (.one others)).node rfl rfl)

theorem makes_definitions (noIn : Bool) :
    Makes strict (definitions R noIn) fun defs => Wholes (defs.flatMap VarDef.children) := by
  refine makes_loop (fun defs : List VarDef => Wholes (defs.flatMap VarDef.children))
    (fun defs read => makes_then fun name => makes_then fun sign => ?_) .nil
  have next {value : Option Expr} (given : Wholes (optionalChild value)) : Makes strict
      (do
        if ← atPunctuation ',' then
          advance
          return .inl (defs ++ [.mk name value])
        else return .inr (defs ++ [.mk name value]) : Parser (List VarDef ⊕ List VarDef))
      (Sum.elim (fun defs => Wholes (defs.flatMap VarDef.children))
        fun defs => Wholes (defs.flatMap VarDef.children)) :=
    makes_then fun comma => makes_ite (makes_then fun _ => makes_pure (read.snoc given))
      (makes_pure (read.snoc given))
  exact makes_ite (makes_then fun _ => (making.expression false noIn).bind fun value whole =>
    next (.one whole)) (next .nil)

theorem makes_parenthesised : Makes strict (parenthesised R) fun e => (Part.expr e).Whole :=
  makes_then fun _ => (making.expression true false).bind fun _ read => makes_then fun _ =>
    makes_pure read

/-! ## Statements -/

theorem makes_expressionStatement (start : Position) :
    Makes strict (expressionStatement R start) fun s => (Part.stmt s).Whole :=
  (makes_expression making true false).bind fun _ read => makes_then fun _ =>
    makes_spanFrom fun _ => makes_pure ((Wholes.one read).node rfl rfl)

theorem makes_labelledStatement (around : Surroundings) (start : Position) (label : String) :
    Makes strict (labelledStatement R around start label) fun s => (Part.stmt s).Whole := by
  have next : Makes strict
      (do
        let body ← R.statement (around.labelled label)
        return .labelled (← spanFrom start) label body) fun s => (Part.stmt s).Whole :=
    (making.statement _).bind fun body read => makes_spanFrom fun s =>
      makes_pure ((Wholes.one read).node rfl rfl)
  exact makes_ite (makes_then fun _ => next) next

theorem makes_doStatement (around : Surroundings) (start : Position) :
    Makes strict (doStatement R around start) fun s => (Part.stmt s).Whole := by
  refine (making.statement around.looping).bind fun body read => makes_then fun keyword => ?_
  have next : Makes strict
      (do
        advance
        let condition ← parenthesised R
        semicolon
        return .doWhile (← spanFrom start) body condition) fun s => (Part.stmt s).Whole :=
    makes_then fun _ => (makes_parenthesised making).bind fun condition tested => makes_then fun _ =>
      makes_spanFrom fun s => makes_pure (((Wholes.one read).append (.one tested)).node rfl rfl)
  exact makes_ite (makes_then fun _ => next) next

theorem makes_optionalBefore (closing : Char) :
    Makes strict (optionalBefore R closing) fun value => Wholes (optionalChild value) :=
  makes_then fun _ => makes_ite (makes_pure .nil)
    ((making.expression true false).bind fun _ read => makes_pure (.one read))

theorem makes_conditionalFor (around : Surroundings) (start : Position) {head : Option ForHead}
    (begun : Wholes (head.toList.flatMap ForHead.children)) :
    Makes strict (conditionalFor R around start head) fun s => (Part.stmt s).Whole :=
  makes_then fun _ => (makes_optionalBefore making ';').bind fun _ tested => makes_then fun _ =>
    (makes_optionalBefore making ')').bind fun _ stepped => makes_then fun _ =>
      (making.statement around.looping).bind fun _ read => makes_spanFrom fun _ =>
        makes_pure ((((begun.append tested).append stepped).append (.one read)).node rfl rfl)

theorem makes_iteratingFor (around : Surroundings) (start : Position) {head : ForHead}
    (begun : Wholes head.children) :
    Makes strict (iteratingFor R around start head) fun s => (Part.stmt s).Whole := by
  have next : Makes strict
      (do
        advance
        let object ← R.expression true false
        expectPunctuation ')'
        let body ← R.statement around.looping
        return .forIn (← spanFrom start) head object body) fun s => (Part.stmt s).Whole :=
    makes_then fun _ => (making.expression true false).bind fun object listed => makes_then fun _ =>
      (making.statement around.looping).bind fun body read => makes_spanFrom fun s =>
        makes_pure ((begun.append ((Wholes.one listed).append (.one read))).node rfl rfl)
  unfold iteratingFor
  split
  · exact makes_then fun _ => next
  · exact next

theorem makes_forStatement (around : Surroundings) (start : Position) :
    Makes strict (forStatement R around start) fun s => (Part.stmt s).Whole := by
  have behind {head : ForHead} (begun : Wholes head.children) : Makes strict
      (do
        if ← atOperator "in" then iteratingFor R around start head
        else conditionalFor R around start (some head)) fun s => (Part.stmt s).Whole := by
    have alone : Wholes ((some head).toList.flatMap ForHead.children) := by simpa using begun
    exact makes_then fun _ => makes_ite (makes_iteratingFor making around start begun)
      (makes_conditionalFor making around start alone)
  refine makes_then fun _ => makes_then fun _ => makes_then fun _ => makes_ite ?_ (makes_ite ?_ ?_)
  · exact makes_with (makes_conditionalFor making around start .nil)
  · exact makes_then fun _ => (makes_definitions making true).bind fun defs read =>
      makes_with (behind read)
  · exact (making.expression true true).bind fun value read => makes_with (behind (.one read))

theorem makes_ifStatement (around : Surroundings) (start : Position) :
    Makes strict (ifStatement R around start) fun s => (Part.stmt s).Whole := by
  refine (makes_parenthesised making).bind fun condition tested =>
    (making.statement around).bind fun thenBranch read => makes_then fun keyword => makes_ite ?_ ?_
  · exact makes_then fun _ => (making.statement around).bind fun elseBranch other =>
      makes_with (makes_spanFrom fun s =>
        makes_pure (((Wholes.one tested).append ((Wholes.one read).append (.one other))).node rfl rfl))
  · exact makes_with (makes_spanFrom fun s =>
      makes_pure (((Wholes.one tested).append (.one read)).node rfl rfl))

theorem makes_returnStatement (around : Surroundings) (start : Position) :
    Makes strict (returnStatement R around start) fun s => (Part.stmt s).Whole := by
  have next (value : Option Expr) (given : Wholes (optionalChild value)) : Makes strict
      (do return .return (← spanFrom start) value) fun s => (Part.stmt s).Whole :=
    makes_spanFrom fun s => makes_pure (given.node rfl rfl)
  have read : Makes strict
      (do
        let value ←
          if ← atPunctuation ';' then do
            advance
            pure none
          else if ← mayOmitSemicolon then pure none
          else do
            let value ← R.expression true false
            semicolon
            pure (some value)
        return .return (← spanFrom start) value) fun s => (Part.stmt s).Whole :=
    makes_then fun _ => makes_then fun _ => makes_ite (makes_then fun _ => makes_with (next none .nil))
      (makes_ite (makes_with (next none .nil))
        ((making.expression true false).bind fun value whole => makes_then fun _ =>
          makes_with (next (some value) (.one whole))))
  exact makes_ite (makes_then fun _ => read) read

theorem makes_switchStatement (around : Surroundings) (start : Position) :
    Makes strict (switchStatement R around start) fun s => (Part.stmt s).Whole := by
  refine (makes_parenthesised making).bind fun discriminant chosen => makes_then fun _ =>
    (makes_loop (fun cases : List SwitchCase => Wholes (cases.flatMap SwitchCase.children))
      (fun cases read => ?_) ?start).bind fun cases read => makes_then fun _ => makes_spanFrom fun s =>
        makes_pure (((Wholes.one chosen).append read).node rfl rfl)
  case start => exact .nil
  refine makes_then fun closed => makes_ite (makes_pure read) (makes_then fun labelled =>
    makes_ite ?_ (makes_then fun default => makes_ite ?_ ?_))
  · exact makes_then fun _ => (making.expression true false).bind fun test whole => makes_then fun _ =>
      makes_pure (read.snoc (.one whole))
  · exact makes_then fun _ => makes_then fun _ => makes_pure (read.snoc .nil)
  · split
    · exact (makes_unexpected : Makes strict unexpected fun _ => False).bind fun _ => False.elim
    · next some =>
      refine (making.statement around.looping).bind fun statement whole => makes_pure ?_
      show Wholes _
      rw [children_addToLast statement (by simpa using some)]
      exact read.append (.one whole)

/-- What is left of a `try` statement behind its handler. -/
theorem makes_finalizer (around : Surroundings) (start : Position) {body : List Stmt}
    {handler : Option Handler}
    (handled : Wholes (body.map .stmt ++ handler.toList.flatMap Handler.children)) :
    Makes strict
      (do
        let finalizer ←
          if ← atKeyword .finally then do
            advance
            pure (some (← block R around))
          else pure none
        if handler.isNone && finalizer.isNone then faultHere .bareTry
        return .tryCatch (← spanFrom start) body handler finalizer : Parser Stmt)
      fun s => (Part.stmt s).Whole := by
  have next {finalizer : Option (List Stmt)} (final : Wholes ((finalizer.getD []).map .stmt)) :
      Makes strict
        (do
          if handler.isNone && finalizer.isNone then faultHere .bareTry
          return .tryCatch (← spanFrom start) body handler finalizer : Parser Stmt)
        fun s => (Part.stmt s).Whole := by
    have made : Makes strict
        (do return .tryCatch (← spanFrom start) body handler finalizer) fun s => (Part.stmt s).Whole :=
      makes_spanFrom fun s => makes_pure ((handled.append final).node rfl rfl)
    exact makes_ite (makes_then fun _ => made) made
  exact makes_then fun keyword => makes_ite
    (makes_then fun _ => (makes_block making around).bind fun body final => next final) (next .nil)

theorem makes_tryStatement (around : Surroundings) (start : Position) :
    Makes strict (tryStatement R around start) fun s => (Part.stmt s).Whole := by
  refine (makes_block making around).bind fun body tried => makes_then fun keyword => makes_ite ?_ ?_
  · refine makes_then fun _ => makes_then fun _ => makes_then fun name => makes_then fun _ =>
      (makes_block making around).bind fun handling handled => makes_finalizer making around start ?_
    simpa [Handler.children] using tried.append handled
  · exact makes_finalizer making around start (by simpa using tried)

theorem makes_throwStatement (start : Position) :
    Makes strict (throwStatement R start) fun s => (Part.stmt s).Whole := by
  have next : Makes strict
      (do
        let value ← R.expression true false
        semicolon
        return .throw (← spanFrom start) value) fun s => (Part.stmt s).Whole :=
    (making.expression true false).bind fun value read => makes_then fun _ => makes_spanFrom fun s =>
      makes_pure ((Wholes.one read).node rfl rfl)
  exact makes_then fun token => makes_ite (makes_then fun _ => next) next

theorem makes_keywordStatement (around : Surroundings) (start : Position) (keyword : Keyword) :
    Makes strict (keywordStatement R around start keyword) fun s => (Part.stmt s).Whole := by
  have declared {make : Option Span → List VarDef → Stmt} (own : ∀ s defs, (make s defs).span = s)
      (below : ∀ s defs, (make s defs).children = defs.flatMap VarDef.children) : Makes strict
      (do
        let defs ← definitions R false
        semicolon
        return make (← spanFrom start) defs) fun s => (Part.stmt s).Whole :=
    (makes_definitions making false).bind fun defs read => makes_then fun _ => makes_spanFrom fun s =>
      makes_pure (read.node (congrArg Option.isSome (own (some s) defs)) (below _ _))
  have looped {make : Option Span → Expr → Stmt → Stmt} (inner : Surroundings)
      (own : ∀ s e body, (make s e body).span = s)
      (below : ∀ s e body, (make s e body).children = [.expr e, .stmt body]) : Makes strict
      (do
        let head ← parenthesised R
        let body ← R.statement inner
        return make (← spanFrom start) head body) fun s => (Part.stmt s).Whole :=
    (makes_parenthesised making).bind fun head tested => (making.statement inner).bind fun body read =>
      makes_spanFrom fun s => makes_pure (((Wholes.one tested).append (.one read)).node
        (congrArg Option.isSome (own (some s) head body)) (below _ _ _))
  cases keyword with
  | «break» | «continue» =>
    exact makes_then fun label => makes_spanFrom fun s => makes_pure (Wholes.nil.node rfl rfl)
  | debugger => exact makes_then fun _ => makes_spanFrom fun s => makes_pure (Wholes.nil.node rfl rfl)
  | «do» => exact makes_doStatement making around start
  | «for» => exact makes_forStatement making around start
  | function =>
    exact (makes_function making true).bind fun fn read => makes_spanFrom fun s =>
      makes_pure (read.node rfl rfl)
  | «if» => exact makes_ifStatement making around start
  | «return» => exact makes_returnStatement making around start
  | switch => exact makes_switchStatement making around start
  | throw => exact makes_throwStatement making start
  | «try» => exact makes_tryStatement making around start
  | var => exact declared (fun _ _ => rfl) fun _ _ => rfl
  | const => exact declared (fun _ _ => rfl) fun _ _ => rfl
  | «while» => exact looped around.looping (fun _ _ _ => rfl) fun _ _ _ => rfl
  | «with» => exact looped around (fun _ _ _ => rfl) fun _ _ _ => rfl
  | case | «catch» | default | «else» | «finally» => exact makes_unexpected

/-- A statement that begins with no slash that is to be read again. -/
theorem makes_statementFrom (around : Surroundings) :
    Makes strict (statementFrom R around) fun s => (Part.stmt s).Whole := by
  refine makes_then fun start => makes_then fun kind => ?_
  split
  · exact makes_then fun token => makes_ite
      (makes_then fun _ => makes_then fun _ => makes_labelledStatement making around start _)
      (makes_expressionStatement making start)
  · exact makes_expressionStatement making start
  · exact makes_expressionStatement making start
  · exact makes_expressionStatement making start
  · exact makes_expressionStatement making start
  · exact makes_expressionStatement making start
  · exact makes_expressionStatement making start
  · exact makes_expressionStatement making start
  · exact (makes_block making around).bind fun body read => makes_spanFrom fun s =>
      makes_pure (read.node rfl rfl)
  · exact makes_then fun _ => makes_spanFrom fun s => makes_pure (Wholes.nil.node rfl rfl)
  · exact makes_ite (makes_then fun _ => makes_keywordStatement making around start _) makes_unexpected
  · exact makes_unexpected

theorem makes_statement (around : Surroundings) :
    Makes strict (statement R around) fun s => (Part.stmt s).Whole :=
  makes_then fun _ => makes_then fun _ => makes_ite
    (makes_then fun _ => makes_statementFrom making around) (makes_statementFrom making around)

/-! ## Chunks -/

theorem makes_commandExpression : Makes strict (commandExpression R) fun e => (Part.expr e).Whole :=
  (making.expression true false).bind fun _ read => makes_then fun _ => makes_pure read

theorem makes_blockBody (name : String) (opening : Span) (branches : Bool) :
    Makes strict (blockBody R name opening branches) fun chunks => Wholes (chunks.map .chunk) := by
  refine makes_loop (fun chunks => Wholes (chunks.map .chunk)) (fun chunks read => ?_) .nil
  have chunk : Makes strict (do return .inl (chunks ++ [← R.chunk]) : Parser (List Chunk ⊕ List Chunk))
      (Sum.elim (fun chunks => Wholes (chunks.map .chunk)) fun chunks => Wholes (chunks.map .chunk)) :=
    making.chunk.bind fun c whole => makes_pure (read.snocMap whole)
  have inside (token : Token) : Makes strict
      (do
        if token.isMarker .closerOpen then return .inr chunks
        if branches && token.isMarker .commandOpen then
          if (← following).isKeyword .else then return .inr chunks
        return .inl (chunks ++ [← R.chunk]) : Parser (List Chunk ⊕ List Chunk))
      (Sum.elim (fun chunks => Wholes (chunks.map .chunk)) fun chunks => Wholes (chunks.map .chunk)) :=
    makes_ite (makes_pure read)
      (makes_ite (makes_then fun _ => makes_ite (makes_pure read) chunk) chunk)
  exact makes_then fun token => makes_ite (makes_then fun _ => inside token) (inside token)

/-- The names that an iteration binds are parts of no tree. -/
theorem makes_eachHead : Makes strict (eachHead R) fun head => (Part.expr head.2).Whole := by
  have alone : Makes strict (do return ((none : Option (List String)), ← R.expression true false))
      fun head => (Part.expr head.2).Whole :=
    (making.expression true false).bind fun collection read => makes_pure read
  refine makes_then fun token => makes_then fun paren => makes_ite (makes_then fun _ =>
    (makes_arguments making).bind fun items listed => makes_then fun closed => makes_ite ?_ ?_) alone
  · split
    · exact makes_pure (listed _ (List.mem_singleton_self _))
    · exact makes_then fun token => makes_refuse _
  · exact makes_then fun names => (making.expression true false).bind fun collection read =>
      makes_pure read

theorem makes_eachBlock (opening : Span) :
    Makes strict (eachBlock R opening) fun c => (Part.chunk c).Whole :=
  (makes_eachHead making).bind fun _ read => makes_then fun _ =>
    (makes_blockBody making "each" opening false).bind fun _ inside => makes_then fun _ =>
      makes_spanFrom fun _ => makes_pure (((Wholes.one read).append inside).node rfl rfl)

/-- The branches of a conditional behind the first one. -/
theorem makes_elseBranches (opening : Span) :
    Makes strict (elseBranches R opening) fun branches =>
      Wholes (branches.1.flatMap ElseIf.children) ∧ Wholes ((branches.2.getD []).map .chunk) := by
  refine makes_loop (fun branches : List ElseIf × Option (List Chunk) =>
    Wholes (branches.1.flatMap ElseIf.children) ∧ Wholes ((branches.2.getD []).map .chunk))
    (fun branches read => ?_) ⟨.nil, .nil⟩
  obtain ⟨elseIfs, elseBranch⟩ := branches
  obtain ⟨others, default⟩ := read
  have refused {β : Type} {fault : Error.ParseError} {f : Unit → Parser β} {goal : β → Prop} :
      Makes strict (refuse fault >>= f) goal :=
    (makes_refuse fault : Makes strict (refuse fault : Parser Unit) fun _ => False).bind fun _ =>
      False.elim
  refine makes_then fun _ => makes_ite (makes_pure ⟨others, default⟩) (makes_then fun _ =>
    makes_then fun token => makes_then fun _ => makes_then fun _ => makes_ite (makes_ite refused ?_)
      (makes_ite refused ?_))
  · exact makes_then fun _ => (makes_blockBody making "if" opening true).bind fun body inside =>
      makes_pure ⟨others, inside⟩
  · exact (makes_commandExpression making).bind fun condition tested =>
      (makes_blockBody making "if" opening true).bind fun body inside =>
        makes_pure ⟨others.snoc ((Wholes.one tested).append inside), default⟩

theorem makes_ifBlock (opening : Span) :
    Makes strict (ifBlock R opening) fun c => (Part.chunk c).Whole :=
  (makes_commandExpression making).bind fun _ tested =>
    (makes_blockBody making "if" opening true).bind fun _ inside =>
      (makes_elseBranches making opening).bind fun _ others => makes_then fun _ =>
        makes_spanFrom fun _ => makes_pure
          (((Wholes.one tested).append ((inside.append others.1).append others.2)).node rfl rfl)

theorem makes_inclusion (opening : Span) :
    Makes strict (inclusion R opening) fun c => (Part.chunk c).Whole := by
  have named {args : Option (List Expr)} (listed : Wholes ((args.getD []).map .expr)) : Makes strict
      (do
        let name ← commandExpression R
        return .include (← spanFrom opening.start) args name) fun c => (Part.chunk c).Whole :=
    (makes_commandExpression making).bind fun name read => makes_spanFrom fun s =>
      makes_pure ((listed.append (.one read)).node rfl rfl)
  exact makes_then fun paren => makes_ite
    (makes_then fun _ => (makes_arguments making).bind fun args listed => named listed) (named .nil)

theorem makes_command (opening : Span) :
    Makes strict (command R opening) fun c => (Part.chunk c).Whole := by
  have simple {make : Option Span → Expr → Chunk} (own : ∀ s e, (make s e).span = s)
      (below : ∀ s e, (make s e).children = [.expr e]) : Makes strict
      (do
        advance
        let value ← commandExpression R
        return make (← spanFrom opening.start) value) fun c => (Part.chunk c).Whole :=
    makes_then fun _ => (makes_commandExpression making).bind fun value read => makes_spanFrom fun s =>
      makes_pure ((Wholes.one read).node (congrArg Option.isSome (own (some s) value)) (below _ _))
  refine makes_then fun kind => ?_
  split
  · exact makes_then fun _ => makes_eachBlock making opening
  · exact makes_then fun _ => makes_inclusion making opening
  · exact simple (fun _ _ => rfl) fun _ _ => rfl
  · exact simple (fun _ _ => rfl) fun _ _ => rfl
  · exact makes_then fun _ => makes_ifBlock making opening
  · exact makes_then fun _ => (makes_definitions making false).bind fun defs read => makes_then fun _ =>
      makes_spanFrom fun s => makes_pure (read.node rfl rfl)
  · exact makes_unexpected

theorem makes_chunk : Makes strict (chunk R) fun c => (Part.chunk c).Whole := by
  refine makes_then fun token => ?_
  dsimp only
  split
  · exact makes_then fun _ => makes_spanFrom fun s => makes_pure (Wholes.nil.node rfl rfl)
  · exact makes_then fun _ => (making.expression true false).bind fun value read => makes_then fun _ =>
      makes_spanFrom fun s => makes_pure ((Wholes.one read).node rfl rfl)
  · exact makes_then fun _ => makes_command making token.span
  · exact makes_unexpected

/-! ## Whole texts -/

theorem makes_program : Makes strict (program R) fun script => Wholes (script.body.map .stmt) := by
  refine (makes_loop (fun body => Wholes (body.map .stmt)) (fun body read => ?_) .nil).bind
    fun body read => makes_pure read
  exact makes_then fun token => makes_ite (makes_pure read)
    ((makes_statement making .outermost).bind fun s whole => makes_pure (read.snocMap whole))

theorem makes_template : Makes strict (template R) fun t => Wholes (t.chunks.map .chunk) := by
  refine (makes_loop (fun chunks => Wholes (chunks.map .chunk)) (fun chunks read => ?_) .nil).bind
    fun chunks read => makes_pure read
  exact makes_then fun token => makes_ite (makes_pure read)
    ((makes_chunk making).bind fun c whole => makes_pure (read.snocMap whole))

theorem makes_wholeExpression : Makes strict (wholeExpression R) fun e => Wholes [.expr e] :=
  (makes_expression making true false).bind fun _ read => makes_then fun _ =>
    makes_ite (makes_pure (.one read)) makes_unexpected

/-! ## All depths -/

/-- Unfolded once more, the rules still make whole trees. -/
theorem making_unfold : R.unfold.Making strict where
  expression := makes_expression making
  assignment := makes_assignment making
  operators read := makes_operators making read
  unary := makes_unary making
  primary := makes_primary making
  statement := makes_statement making
  chunk := makes_chunk making

end Rules

/-- The rules of every depth make whole trees: by induction on the depth. -/
theorem making_upTo (strict : Bool) (depth : Nat) : (Rules.upTo depth).Making strict := by
  induction depth with
  | zero => constructor <;> intros <;> exact fun _ => trivial
  | succ depth ih => exact making_unfold ih

end Stencil.Grammar

namespace Stencil

open Stencil.Syntax
open Stencil.Grammar

/-- A rule that makes whole trees reads whole texts so. -/
theorem whole_run {α : Type} {template strict : Bool} {source : List Char} {rule : Rules → Parser α}
    {roots : α → List Part} {tree : α}
    (makes : ∀ R : Rules, R.Making strict → Makes strict (rule R) fun a => Wholes (roots a))
    (read : (run template ⟨true, strict⟩ source rule).mapError (·.toError) = .ok tree) :
    Wholes (roots tree) := by
  obtain ⟨_, whole⟩ := gives_run (fun depth c _ => makes _ (making_upTo strict depth) c) read
  exact whole

/-- Every node of every template, script and expression that is read with spans carries one, but for
what stands in the place of the elements that arrays lack. -/
theorem nodes_carry_spans (strict : Bool) (source : String) :
    (∀ t, parseTemplate ⟨true, strict⟩ source = .ok t → Spanned (t.chunks.map .chunk) t.parts) ∧
      (∀ script, parseScript ⟨true, strict⟩ source = .ok script →
        Spanned (script.body.map .stmt) script.parts) ∧
      ∀ e, parseExpression ⟨true, strict⟩ source = .ok e → Spanned [.expr e] e.parts := by
  refine ⟨fun t read => ?_, fun script read => ?_, fun e read => ?_⟩
  · have whole := whole_run (fun _ => makes_template) read
    exact .of_whole whole t.rooted_parts
  · have whole := whole_run (fun _ => makes_program) read
    exact .of_whole whole script.rooted_parts
  · have whole := whole_run (fun _ => makes_wholeExpression) read
    exact .of_whole whole e.rooted_parts

/-- The number of the nodes among the parts, and of those with spans. -/
def Syntax.spannedNodes (parts : List Part) : Nat × Nat :=
  ((parts.filter Part.isNode).length, (parts.filter fun part => part.span.isSome).length)

/-- A branching with a function, whose body is a statement, and an array that lacks its first element:
of the nodes this one alone is without a span. -/
theorem nodes_carry_spans_branching :
    ∃ t, parseTemplate ⟨true, false⟩
        "{{if f(function () { return [, a]; })}}b{{else}}${c}{{/if}}" = .ok t ∧
      spannedNodes t.parts = (11, 10) ∧ Spanned (t.chunks.map .chunk) t.parts := by
  have found : (parseTemplate ⟨true, false⟩
      "{{if f(function () { return [, a]; })}}b{{else}}${c}{{/if}}").toOption.map
        (fun t => spannedNodes t.parts) = some (11, 10) := by
    decide +kernel
  cases read : parseTemplate ⟨true, false⟩
      "{{if f(function () { return [, a]; })}}b{{else}}${c}{{/if}}" with
  | error e => simp [read, Except.toOption] at found
  | ok t =>
    simp only [read, Except.toOption, Option.map_some, Option.some.injEq] at found
    exact ⟨t, rfl, found, (nodes_carry_spans false _).1 t read⟩

/-- What stands in the place of a missing element is an expression without a span. -/
theorem missing_element_spanless :
    ∃ e, parseExpression ⟨true, false⟩ "[,1]" = .ok e ∧
      ∃ part ∈ e.parts, part.isNode = true ∧ part.span = none := by
  have found : (parseExpression ⟨true, false⟩ "[,1]").toOption.map
      (fun e => e.parts.any fun part => part.isNode && part.span.isNone) = some true := by
    decide +kernel
  cases read : parseExpression ⟨true, false⟩ "[,1]" with
  | error e => simp [read, Except.toOption] at found
  | ok e =>
    simp only [read, Except.toOption, Option.map_some, Option.some.injEq] at found
    obtain ⟨part, listed, both⟩ := List.any_eq_true.mp found
    obtain ⟨node, bare⟩ := Bool.and_eq_true_iff.mp both
    exact ⟨e, rfl, part, listed, node, Option.isNone_iff_eq_none.mp bare⟩

end Stencil
