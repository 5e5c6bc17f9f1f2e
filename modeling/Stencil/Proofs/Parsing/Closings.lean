import Stencil.Proofs.Parsing.SeamRuns
import Stencil.Proofs.Printing.Faithful
/-!
# Operands that end with the text
-/

set_option autoImplicit false

namespace Stencil.Syntax

open Stencil.Print (isHot)

/-- The word that an expression ends in, written without parentheses: that of a member access, or of the
callee of a construction without arguments. -/
def Expr.lastWord? : Expr → Option String
  | .dot _ _ word => some word
  | .new _ callee [] => callee.lastWord?
  | _ => none

/-- The expression does not end in a word behind which an expression may begin. -/
def Expr.EndsCold (e : Expr) : Prop := ∀ word, e.lastWord? = some word → isHot word = false

end Stencil.Syntax

namespace Stencil.Grammar

open Stencil.Syntax
open Stencil.Text (Position Span)
open Stencil.Print (isHot)
open Stencil.Grammar.Parser

variable {closer : Closer} {more rest : List Char} {strict : Bool} {c d : Cursor} {α β σ ι : Type}

/-! ## Lists -/

/-- Rules behind each other, of which the first does not come to the end of the text. -/
theorem closes_onward {p q : Parser α} {f g : α → Parser β} {post : List Part → α → Cursor → Prop}
    {cold : β → Prop} (alongside : Alongside more c d)
    (follows : (seamSides more strict).Follows c d p q post)
    (going : ∀ a behind, p (withoutSpans strict) c = .ok (a, behind) → behind.token.isEof = false)
    (onward : ∀ a behind behind', Alongside more behind behind' →
      p (withoutSpans strict) c = .ok (a, behind) →
      Closes closer rest strict cold behind behind' (f a) (g a)) :
    Closes closer rest strict cold c d (p >>= f) (q >>= g) := by
  intro b later ran ended fine
  obtain ⟨a, behind, ranFirst, ranSecond⟩ := run_bind ran
  obtain ⟨behind', same, alongside'⟩ := alongside.carried follows ranFirst (.inl (going a behind ranFirst))
  rw [run_behind same]
  exact onward a behind behind' alongside' ranFirst b later ranSecond ended fine

/-- A loop ends where the last of its steps does. -/
theorem ends_of_loop {o : Options} {step : σ → Parser (σ ⊕ α)} (known : Cursor → Prop)
    (last : ∀ state c a behind, step state o c = .ok (.inr a, behind) → known behind) {state : σ}
    {a : α} {behind : Cursor} (ran : loop step state o c = .ok (a, behind)) : known behind := by
  have whole : Gives o c (loop step state) fun _ behind => known behind := by
    refine gives_loop (fun _ _ => True) (fun state c' _ => ?_) state trivial
    unfold Gives Ends
    cases stepped : step state o c' with
    | error failure => trivial
    | ok outcome =>
      obtain ⟨next | a, later⟩ := outcome
      · trivial
      · exact last state c' a later stepped
  exact ends_of_run ran whole

/-- A loop gives no result where its first step gives none. -/
theorem loop_never {o : Options} {step : σ → Parser (σ ⊕ α)} {state : σ}
    (never : ∀ outcome behind, step state o c ≠ .ok (outcome, behind)) {a : α} {behind : Cursor} :
    loop step state o c ≠ .ok (a, behind) := by
  intro ran
  unfold loop at ran
  rw [run_behind (a := c) rfl, loopWithin] at ran
  obtain ⟨outcome, later, stepped, -⟩ := run_bind ran
  exact never outcome later stepped

/-- The end of the text is no punctuation. -/
theorem ended_punctuation (ended : c.token.isEof = true) (char : Char) :
    c.token.isPunctuation char = false := by
  simp [Token.isPunctuation, kind_of_isEof ended]

theorem expectPunctuation_ended {o : Options} (ended : c.token.isEof = true) {char : Char}
    {a : Unit} {behind : Cursor} : expectPunctuation char o c ≠ .ok (a, behind) := by
  intro ran
  unfold expectPunctuation at ran
  rw [run_behind (a := c.token) rfl, ended_punctuation ended, if_neg (by simp)] at ran
  cases ran

theorem anyName_ended {o : Options} (ended : c.token.isEof = true) {name : String} {behind : Cursor} :
    anyName o c ≠ .ok (name, behind) := by
  intro ran
  unfold anyName at ran
  rw [run_behind (a := c.token.kind) rfl, kind_of_isEof ended] at ran
  cases ran

/-- No list begins with the end of the text, if its items do not. -/
theorem listStep_ended {o : Options} (ended : c.token.isEof = true) {closing : Char}
    {item : List ι → Parser (List ι ⊕ List ι)}
    (never : ∀ outcome behind, item [] o c ≠ .ok (outcome, behind)) {a : List ι} {behind : Cursor} :
    loop (listStep closing item) [] o c ≠ .ok (a, behind) := by
  refine loop_never fun outcome behind ran => ?_
  unfold listStep at ran
  rw [run_behind (a := c.token.isPunctuation closing) rfl, ended_punctuation ended,
    if_neg (by simp), if_neg (by simp)] at ran
  exact never outcome behind ran

/-- A rule that makes something of what another one reads, without reading on. -/
theorem closes_made {p q : Parser α} {f g : α → Parser β} {post : List Part → α → Cursor → Prop}
    {first : α → Prop} {cold : β → Prop} (alongside : Alongside more c d)
    (follows : (seamSides more strict).Follows c d p q post)
    (ending : Closes closer rest strict first c d p q)
    (resting : ∀ a, Rests closer rest strict cold (first a) (f a) (g a))
    (stays : ∀ a b c behind, f a (withoutSpans strict) c = .ok (b, behind) → behind = c) :
    Closes closer rest strict cold c d (p >>= f) (q >>= g) := by
  refine closes_bind alongside follows ending resting fun a behind behind' _ going _ => ?_
  intro b later ran ended
  rw [stays a b behind later ran, going] at ended
  cases ended

/-- A list ends at its closing punctuation. -/
theorem closing_of_list {o : Options} {closing : Char} {item : List ι → Parser (List ι ⊕ List ι)}
    (items : ∀ items c a behind, item items o c = .ok (.inr a, behind) →
      behind.token.isPunctuation closing = true) {a : List ι} {behind : Cursor}
    (ran : loop (listStep closing item) [] o c = .ok (a, behind)) :
    behind.token.isPunctuation closing = true := by
  refine ends_of_loop (·.token.isPunctuation closing = true) (fun state c' a behind stepped => ?_) ran
  unfold listStep at stepped
  rw [run_behind (a := c'.token.isPunctuation closing) rfl] at stepped
  split_ifs at stepped with here comma
  · cases stepped
    exact here
  · obtain ⟨_, middle, -, stepped⟩ := run_bind stepped
    exact items state middle a behind stepped
  · exact items state c' a behind stepped

/-- A closing bracket or brace ends an operand. -/
theorem ends_of_closing {closing : Char} (known : closing ∈ ")]\x7d".toList)
    (here : c.token.isPunctuation closing = true) : closer.Ends c.token.kind := by
  intro _
  rw [kind_of_punctuation here]
  have table : ∀ closing ∈ ")]\x7d".toList,
      (TokenKind.punctuation closing).precedesExpression = false := by decide
  exact table closing known

/-- A list whose items end before closing punctuation, and that punctuation. -/
theorem closes_closing {closing : Char} {items items' : Parser ι} {post : List Part → ι → Cursor → Prop}
    {cold : ι → Prop} (begins : closer.Begins rest more) (alongside : Alongside more c d)
    (known : closing ∈ ")]\x7d".toList)
    (follows : (seamSides more strict).Follows c d items items' post)
    (ends : ∀ a behind, items (withoutSpans strict) c = .ok (a, behind) →
      behind.token.isPunctuation closing = true) :
    Closes closer rest strict cold c d (do let a ← items; Parser.advance; return a)
      (do let a ← items'; Parser.advance; return a) := by
  refine closes_onward alongside follows
    (fun a behind ran => going_of_punctuation (ends a behind ran))
    fun a behind behind' alongside' ran => ?_
  have here := ends a behind ran
  exact closes_takes begins alongside' (going_of_punctuation here) fun _ => ends_of_closing known here

/-- Two lists, up to the closing punctuation, whose items follow each other. -/
theorem follows_items {closing : Char} {item item' : List ι → Parser (List ι ⊕ List ι)}
    (parts : List ι → List Part) (ends : ItemEnds Failure.Any item')
    (items : ∀ items c' d', Everywhere (seamSides more strict).Good (parts items) →
      (seamSides more strict).Follows c' d' (item items) (item' items) fun read outcome _ =>
        (seamSides more strict).Grows parts parts items read outcome)
    (none_ : parts [] = []) :
    (seamSides more strict).Follows c d (loop (listStep closing item) [])
      (loop (listStep closing item') []) fun read items _ =>
        parts [] ⊆ parts items ∧ (seamSides more strict).Holds parts read items := by
  have descends : Descends Failure.Any listSize (listStep closing item') := fun _ _ _ =>
    (ends.listStep closing).mono (fun _ _ both next same => (both next same).1) fun _ real => real
  refine follows_loopOnly parts parts descends listSize_le (fun state c' d' good _ => ?_)
    (by simp [none_])
  unfold listStep
  refine follows_alikePunctuation ?_
  split_ifs
  · exact follows_pure [] ⟨List.Subset.refl _, by simp, good⟩
  · exact (follows_expectPunctuation ',').next fun _ c'' d'' _ _ => items state c'' d'' good
  · exact items state c' d' good

section Rules

variable {R R' : Rules} (sided : R.Sided (seamSides more strict) R')

include sided

/-- The items of a list of expressions, up to the closing punctuation. -/
theorem follows_expressions {closing : Char} {trailing gaps : Bool} :
    (seamSides more strict).Follows c d
      (loop (listStep closing (expressionItem R closing trailing gaps)) [])
      (loop (listStep closing (expressionItem R' closing trailing gaps)) [])
      fun read items _ => partsOfExprs [] ⊆ partsOfExprs items ∧
        (seamSides more strict).Holds partsOfExprs read items := by
  refine follows_items partsOfExprs (itemEnds_expressionItem sided.settling closing trailing gaps)
    (fun items c' d' good => ?_) (by simp [partsOfExprs])
  unfold expressionItem
  refine follows_alikePunctuation ?_
  split_ifs
  · exact follows_pure [] ⟨List.Subset.refl _, by simp, good⟩
  · refine follows_alikePunctuation ?_
    split_ifs
    · exact follows_pure [] (Sides.Grows.snoc (partsOfExprs_append items _) good
        ⟨by simp, by simp [(seamSides more strict).missing]⟩)
    · exact (sided.expression false false).next fun e _ _ known _ => follows_pure []
        (Sides.Grows.snoc (partsOfExprs_append items e) good ⟨by simp, known⟩)

theorem closes_expressionList {closing : Char} {trailing gaps : Bool} {cold : List Expr → Prop}
    (begins : closer.Begins rest more) (alongside : Alongside more c d)
    (known : closing ∈ ")]\x7d".toList) :
    Closes closer rest strict cold c d (expressionList R closing trailing gaps)
      (expressionList R' closing trailing gaps) := by
  rw [expressionList_eq, expressionList_eq]
  refine closes_closing begins alongside known (follows_expressions sided) fun a behind ran => ?_
  refine closing_of_list (fun items c' a behind stepped => ?_) ran
  unfold expressionItem at stepped
  rw [run_behind (a := c'.token.isPunctuation closing) rfl] at stepped
  split_ifs at stepped with here
  · cases stepped
    exact (Bool.and_eq_true_iff.1 here).2
  · rw [run_behind (a := c'.token.isPunctuation ',') rfl] at stepped
    split_ifs at stepped
    · cases stepped
    · obtain ⟨_, _, -, stepped⟩ := run_bind stepped
      cases stepped

omit sided in
/-- No list of expressions ends with the end of the text. -/
theorem expressionList_ended {o : Options} (begins : ∀ {commas noIn e behind},
    R.expression commas noIn o c = .ok (e, behind) → BeginsValue c.token)
    (ended : c.token.isEof = true) {closing : Char} {trailing gaps : Bool} {items : List Expr}
    {behind : Cursor} : expressionList R closing trailing gaps o c ≠ .ok (items, behind) := by
  intro ran
  rw [expressionList_eq] at ran
  obtain ⟨_, _, ran, -⟩ := run_bind ran
  refine listStep_ended ended (fun outcome behind ran => ?_) ran
  unfold expressionItem at ran
  rw [run_behind (a := c.token.isPunctuation closing) rfl, ended_punctuation ended,
    if_neg (by simp), run_behind (a := c.token.isPunctuation ',') rfl, ended_punctuation ended,
    if_neg (by simp)] at ran
  obtain ⟨_, _, ran, -⟩ := run_bind ran
  rw [(begins ran).1] at ended
  cases ended

omit sided in
/-- No object literal ends with the end of the text. -/
theorem objectBody_ended {o : Options} (ended : c.token.isEof = true) {properties : List Property}
    {behind : Cursor} : objectBody R o c ≠ .ok (properties, behind) := by
  intro ran
  rw [objectBody_eq, run_behind (a := o) rfl] at ran
  obtain ⟨_, _, ran, -⟩ := run_bind ran
  refine listStep_ended ended (fun outcome behind ran => ?_) ran
  unfold propertyItem at ran
  rw [run_behind (a := c.token.isPunctuation '\x7d') rfl, ended_punctuation ended,
    if_neg (by simp)] at ran
  obtain ⟨_, _, ran, -⟩ := run_bind ran
  unfold property at ran
  rw [run_behind (a := c.token.kind) rfl] at ran
  obtain ⟨_, _, ran, -⟩ := run_bind ran
  unfold propertyKey at ran
  rw [run_behind (a := c.token.kind) rfl, kind_of_isEof ended] at ran
  exact anyName_ended ended ran

/-- The properties of an object literal, up to the closing brace. -/
theorem follows_properties :
    (seamSides more strict).Follows c d
      (loop (listStep '\x7d' (propertyItem R strict)) [])
      (loop (listStep '\x7d' (propertyItem R' strict)) [])
      fun read properties _ => partsOfProperties [] ⊆ partsOfProperties properties ∧
        (seamSides more strict).Holds partsOfProperties read properties := by
  refine follows_items partsOfProperties (consuming_propertyItem sided.settling strict).itemEnds
    (fun items c' d' good => ?_) (by simp [partsOfProperties])
  unfold propertyItem
  refine follows_alikePunctuation ?_
  split_ifs
  · exact follows_pure [] ⟨List.Subset.refl _, by simp, good⟩
  · exact (follows_property sided).next fun p _ _ known _ => follows_pure []
      (Sides.Grows.snoc (partsOfProperties_append items p) good ⟨by simp, known⟩)

theorem closes_objectBody {cold : List Property → Prop} (begins : closer.Begins rest more)
    (alongside : Alongside more c d) :
    Closes closer rest strict cold c d (objectBody R) (objectBody R') := by
  rw [objectBody_eq, objectBody_eq]
  refine closes_looks (a := withoutSpans strict) rfl rfl ?_
  refine closes_closing begins alongside (by decide : '\x7d' ∈ ")]\x7d".toList)
    (follows_properties sided) fun a behind ran => ?_
  refine closing_of_list (fun items c' a behind stepped => ?_) ran
  unfold propertyItem at stepped
  rw [run_behind (a := c'.token.isPunctuation '\x7d') rfl] at stepped
  split_ifs at stepped with here
  · cases stepped
    exact (Bool.and_eq_true_iff.1 here).2
  · obtain ⟨_, _, -, stepped⟩ := run_bind stepped
    cases stepped

/-- The statements of a block, up to the closing brace. -/
theorem follows_statements (around : Surroundings) :
    (seamSides more strict).Follows c d (loop (blockStep R around) [])
      (loop (blockStep R' around) []) fun read body _ =>
        partsOfStmts [] ⊆ partsOfStmts body ∧
          (seamSides more strict).Holds partsOfStmts read body := by
  refine follows_loopOnly partsOfStmts partsOfStmts (consuming_blockStep sided.settling around)
    (fun _ _ => Nat.le_refl _) (fun body c' d' good _ => ?_) (by simp [partsOfStmts])
  unfold blockStep
  refine follows_alikePunctuation ?_
  split_ifs
  · exact follows_pure [] ⟨List.Subset.refl _, by simp, good⟩
  · refine follows_alike fun token kind => ?_
    rw [isEof_congr kind]
    split_ifs
    · exact follows_unexpected
    · exact (sided.statement around).next fun s _ _ known _ => follows_pure []
        (Sides.Grows.snoc (partsOfStmts_append body s) good ⟨by simp, known⟩)

theorem closes_block (around : Surroundings) {cold : List Stmt → Prop}
    (begins : closer.Begins rest more) (alongside : Alongside more c d) :
    Closes closer rest strict cold c d (block R around) (block R' around) := by
  rw [block_eq, block_eq]
  refine closes_next alongside (follows_expectPunctuation '\x7b') (fun _ b c behind ended ran => ?_)
    fun _ behind behind' alongside _ _ => ?_
  · obtain ⟨_, _, ran, -⟩ := run_bind ran
    refine loop_never (fun outcome behind ran => ?_) ran
    unfold blockStep at ran
    rw [run_behind (a := c.token.isPunctuation '\x7d') rfl, ended_punctuation ended,
      if_neg (by simp), run_behind (a := c.token) rfl, if_pos ended] at ran
    cases ran
  · refine closes_closing begins alongside (by decide : '\x7d' ∈ ")]\x7d".toList)
      (follows_statements sided around) fun a behind ran => ?_
    refine ends_of_loop (·.token.isPunctuation '\x7d' = true) (fun state c' a behind stepped => ?_) ran
    unfold blockStep at stepped
    rw [run_behind (a := c'.token.isPunctuation '\x7d') rfl] at stepped
    split_ifs at stepped with here
    · cases stepped
      exact here
    · rw [run_behind (a := c'.token) rfl] at stepped
      split_ifs at stepped
      · cases stepped
      · obtain ⟨_, _, -, stepped⟩ := run_bind stepped
        cases stepped

theorem closes_function {declaration : Bool} {cold : Function → Prop}
    (begins : closer.Begins rest more) (alongside : Alongside more c d) :
    Closes closer rest strict cold c d (function R declaration) (function R' declaration) := by
  have behind {c d : Cursor} (alongside : Alongside more c d) (name : Option String) :
      Closes closer rest strict cold c d
        (do
          expectPunctuation '('
          let names ← parameters
          return .mk name names (← block R .ofFunction))
        (do
          expectPunctuation '('
          let names ← parameters
          return .mk name names (← block R' .ofFunction)) := by
    refine closes_next alongside (follows_expectPunctuation '(') (fun _ b c behind ended ran => ?_)
      fun _ behind behind' alongside _ _ => ?_
    · obtain ⟨_, _, ran, -⟩ := run_bind ran
      rw [parameters_eq] at ran
      obtain ⟨_, _, ran, -⟩ := run_bind ran
      refine listStep_ended ended (fun outcome behind ran => ?_) ran
      unfold parameterItem plainName at ran
      rw [bind_assoc, run_behind (a := c.token.kind) rfl, kind_of_isEof ended] at ran
      cases ran
    · refine closes_next alongside follows_parameters (fun names b c behind ended ran => ?_)
        fun names behind behind' alongside _ _ => ?_
      · obtain ⟨_, _, ran, -⟩ := run_bind ran
        obtain ⟨_, _, ran, -⟩ := run_bind ran
        exact expectPunctuation_ended ended ran
      · refine closes_made alongside (follows_block sided _) (closes_block sided _ begins alongside)
          (fun body => rests_pure fun fine => fine) fun body b c behind ran => ?_
        cases ran
        rfl
  unfold function
  refine closes_kind alongside ?_
  split
  · next word kind =>
    have going := going_of_kind kind (by simp)
    simp only [pure_bind]
    exact closes_take begins alongside going
      (rests_stuck fun _ _ _ ended => expectPunctuation_ended ended)
      fun later later' alongside _ => behind alongside (some word)
  · split_ifs
    · intro b later ran
      cases ran
    · simp only [pure_bind]
      exact behind alongside none

end Rules

/-! ## Operands -/

/-- The closer is read as such behind the expression. -/
def Closer.EndsExpr (closer : Closer) (e : Expr) : Prop := closer = .slash → e.EndsCold

/-- A word behind a point ends an operand, if a slash divides behind it. -/
theorem closes_anyName (begins : closer.Begins rest more) (alongside : Alongside more c d) :
    Closes closer rest strict (fun name => closer = .slash → isHot name = false) c d anyName
      anyName := by
  have takes {name : String} (going : c.token.isEof = false)
      (ends : isHot name = false → c.token.kind.precedesExpression = false) :
      Closes closer rest strict (fun name => closer = .slash → isHot name = false) c d
        (do Parser.advance; return name) (do Parser.advance; return name) :=
    closes_takes begins alongside going fun cold slash => ends (cold slash)
  unfold anyName
  refine closes_kind alongside ?_
  split
  · next word kind =>
    exact takes (going_of_kind kind (by simp)) fun _ => by rw [kind]; rfl
  · next word kind =>
    refine takes (going_of_kind kind (by simp)) fun cold => ?_
    rw [kind]
    have table : isHot word.spelling = (TokenKind.keyword word).precedesExpression := by
      cases word <;> decide
    rwa [table] at cold
  · next word kind =>
    exact takes (going_of_kind kind (by simp)) fun _ => by rw [kind]; rfl
  · next word kind =>
    split_ifs with known
    · refine takes (going_of_kind kind (by simp)) fun cold => ?_
      unfold isHot wordKind at cold
      rwa [if_pos known, ← kind] at cold
    · intro b later ran
      cases ran
  · intro b later ran
    cases ran

/-- Closing punctuation that is asked for. -/
theorem closes_expectClosing {closing : Char} {cold : Unit → Prop} (begins : closer.Begins rest more)
    (alongside : Alongside more c d) (known : closing ∈ ")]\x7d".toList) :
    Closes closer rest strict cold c d (expectPunctuation closing) (expectPunctuation closing) := by
  unfold expectPunctuation
  refine closes_current alongside fun token kind => ?_
  rw [isPunctuation_congr kind]
  split_ifs with here
  · exact closes_advance begins alongside fun _ => ends_of_closing known here
  · intro _ behind ran
    cases ran

/-- Loops over the operators and accesses behind an operand. The steps rest where there is none. -/
theorem closes_loop {size : Expr → Cursor → Nat} {step step' : Expr → Parser (Expr ⊕ Expr)}
    {post : Expr → List Part → Expr ⊕ Expr → Cursor → Prop} {cold : Expr → Prop}
    (descends : Descends Failure.Any size step') (within : ∀ e c, size e c ≤ c.ahead)
    (follows : ∀ e c' d', (seamSides more strict).Follows c' d' (step e) (step' e) (post e))
    (closes : ∀ e c' d', Alongside more c' d' →
      Closes closer rest strict (Sum.elim cold cold) c' d' (step e) (step' e))
    (stops : ∀ e c', c'.token.isEof = true → step e (withoutSpans strict) c' = .ok (.inr e, c'))
    (stops' : ∀ e d', closer.Closed rest d' → step' e (withoutSpans strict) d' = .ok (.inr e, d'))
    (alongside : Alongside more c d) (e : Expr) :
    Closes closer rest strict cold c d (loop step e) (loop step' e) := by
  have rounds {n : Nat} {c' d' : Cursor} {e : Expr} (alongside : Alongside more c' d') :
      Closes closer rest strict cold c' d' (loopWithin step n e) (loop step' e) := by
    induction n generalizing c' d' e with
    | zero =>
      intro a behind ran
      cases ran
    | succ n ih =>
      intro a behind ran ended fine
      rw [loopWithin] at ran
      obtain ⟨outcome, middle, stepped, ran⟩ := run_bind ran
      cases outcome with
      | inr result =>
        cases ran
        obtain ⟨later, same, closed⟩ := closes e c' d' alongside _ _ stepped ended fine
        exact ⟨later, loop_done same, closed⟩
      | inl next =>
        cases going : middle.token.isEof with
        | false =>
          obtain ⟨later, same, alongside'⟩ := alongside.carried (follows e c' d') stepped (.inl going)
          obtain ⟨last, same', closed⟩ := ih alongside' a behind ran ended fine
          exact ⟨last, (loop_more descends within same).trans same', closed⟩
        | true =>
          -- the text has ended, and so the next step is the last
          replace ran : loopWithin step n next (withoutSpans strict) middle = .ok (a, behind) := ran
          cases n with
          | zero => cases ran
          | succ n =>
            rw [loopWithin, run_behind (stops next middle going)] at ran
            cases ran
            obtain ⟨later, same, closed⟩ := closes e c' d' alongside _ _ stepped going fine
            exact ⟨later, (loop_more descends within same).trans
              (loop_done (stops' _ later closed)), closed⟩
  intro a behind ran
  unfold loop at ran
  rw [run_behind (a := c) rfl] at ran
  exact rounds alongside a behind ran

section Operands

variable {R R' : Rules} (sided : R.Sided (seamSides more strict) R')

include sided

omit sided in
/-- Nothing is consumed to make a tree of what was read. -/
theorem stays_spanFrom {o : Options} {start : Position} {f : Option Span → α} {b : α}
    {behind : Cursor}
    (ran : (spanFrom start >>= fun span => pure (f span) : Parser α) o c = .ok (b, behind)) :
    behind = c := by
  rw [run_behind (run_spanFrom _ _ _)] at ran
  cases ran
  rfl

theorem closes_subscriptStep (begins : closer.Begins rest more) (alongside : Alongside more c d)
    (operand : Expr) (start start' : Position) (calls : Bool) :
    Closes closer rest strict (Sum.elim closer.EndsExpr closer.EndsExpr) c d
      (subscriptStep R start calls operand) (subscriptStep R' start' calls operand) := by
  unfold subscriptStep
  refine closes_atPunctuation alongside ?_
  split_ifs with point
  · refine closes_take begins alongside (going_of_punctuation point)
      (rests_stuck fun _ _ _ ended => anyName_ended ended) fun behind behind' alongside _ => ?_
    refine closes_made alongside follows_anyName (closes_anyName begins alongside)
      (fun name => rests_spanFrom (rests_pure fun cold slash => ?_)) fun _ _ _ _ ran => stays_spanFrom ran
    exact cold slash name rfl
  refine closes_atPunctuation alongside ?_
  split_ifs with bracket
  · refine closes_take begins alongside (going_of_punctuation bracket)
      (rests_stuck fun _ _ _ ended ran => ?_) fun behind behind' alongside _ => ?_
    · rw [(sided.begins ran).1] at ended
      cases ended
    refine closes_next alongside (sided.expression true false) (fun _ _ _ _ ended ran => ?_)
      fun index behind behind' alongside _ _ => ?_
    · obtain ⟨_, _, ran, -⟩ := run_bind ran
      exact expectPunctuation_ended ended ran
    exact closes_made alongside (follows_expectPunctuation ']')
      (closes_expectClosing begins alongside (by decide))
      (fun _ => rests_spanFrom (rests_pure fun _ => trivial)) fun _ _ _ _ ran => stays_spanFrom ran
  refine closes_atPunctuation alongside ?_
  split_ifs with paren
  · refine closes_take begins alongside (going_of_punctuation (Bool.and_eq_true_iff.1 paren).2)
      (rests_stuck fun _ _ _ ended ran => ?_) fun behind behind' alongside _ => ?_
    · exact expressionList_ended sided.begins ended ran
    exact closes_made alongside (follows_expressionList sided (by decide) id)
      (closes_expressionList sided begins alongside (by decide))
      (fun _ => rests_spanFrom (rests_pure fun _ => trivial)) fun _ _ _ _ ran => stays_spanFrom ran
  · exact closes_pure begins alongside

omit sided in
/-- Member accesses and calls begin with punctuation. -/
theorem subscriptStep_stops {o : Options} {e : Expr} {start : Position} {calls : Bool}
    (none_ : ∀ char ∈ ".[(".toList, c.token.isPunctuation char = false) :
    subscriptStep R start calls e o c = .ok (.inr e, c) := by
  unfold subscriptStep
  rw [run_behind (a := c.token.isPunctuation '.') rfl, none_ '.' (by simp), if_neg (by simp),
    run_behind (a := c.token.isPunctuation '[') rfl, none_ '[' (by simp), if_neg (by simp),
    run_behind (a := c.token.isPunctuation '(') rfl, none_ '(' (by simp), if_neg (by simp)]
  rfl

omit sided in
/-- Before the closer there are no member accesses and calls. -/
theorem subscriptStep_closed {o : Options} {e : Expr} {start : Position} {calls : Bool}
    (closed : closer.Closed rest d) : subscriptStep R start calls e o d = .ok (.inr e, d) := by
  refine subscriptStep_stops fun char listed => closed.punctuation ?_
  rintro rfl
  exact absurd listed (by decide)

omit sided in
theorem rests_subscripts {operand : Expr} {start start' : Position} {calls : Bool}
    {cold : Expr → Prop} {before : Prop} (known : cold operand → before) :
    Rests closer rest strict cold before (subscripts R operand start calls)
      (subscripts R' operand start' calls) := by
  intro e c behind ended ran fine
  rw [subscripts_ended ended] at ran
  cases ran
  refine ⟨known fine, fun d closed => ⟨d, ?_, closed⟩⟩
  rw [subscripts_eq]
  exact loop_done (subscriptStep_closed closed)

omit sided in
theorem unplaced {start start' : Position} :
    (seamSides more strict).first.positions = true → start' = start := by
  intro positions
  cases positions

theorem closes_subscripts (begins : closer.Begins rest more) (alongside : Alongside more c d)
    {operand : Expr} {start start' : Position} {calls : Bool} :
    Closes closer rest strict closer.EndsExpr c d (subscripts R operand start calls)
      (subscripts R' operand start' calls) := by
  rw [subscripts_eq, subscripts_eq]
  refine closes_loop (consuming_subscriptStep sided.settling start' calls) (fun _ _ => Nat.le_refl _)
    (fun e c' d' => follows_subscriptStep sided (fun _ _ => trivial) unplaced)
    (fun e c' d' alongside => closes_subscriptStep sided begins alongside e start start' calls)
    (fun e c' ended => subscriptStep_stops fun char _ => ended_punctuation ended char)
    (fun e d' closed => subscriptStep_closed closed) alongside operand

omit sided in
theorem function_ended {o : Options} (ended : c.token.isEof = true) {declaration : Bool}
    {fn : Function} {behind : Cursor} : function R declaration o c ≠ .ok (fn, behind) := by
  intro ran
  unfold function at ran
  rw [run_behind (a := c.token.kind) rfl, kind_of_isEof ended] at ran
  dsimp only at ran
  split_ifs at ran
  · cases ran
  · obtain ⟨_, _, named, ran⟩ := run_bind ran
    cases named
    obtain ⟨_, _, ran, -⟩ := run_bind ran
    exact expectPunctuation_ended ended ran

theorem closes_atom (begins : closer.Begins rest more) (alongside : Alongside more c d)
    {start start' : Position} :
    Closes closer rest strict closer.EndsExpr c d (atom R start) (atom R' start') := by
  have leaf {make : Option Span → Expr} (going : c.token.isEof = false)
      (ends : c.token.kind.precedesExpression = false) :
      Closes closer rest strict closer.EndsExpr c d (do Parser.advance; return make (← spanFrom start))
        (do Parser.advance; return make (← spanFrom start')) :=
    closes_take begins alongside going (rests_spanFrom (rests_pure fun _ _ => ends))
      fun _ _ alongside _ => closes_spanFrom (closes_pure begins alongside)
  unfold atom
  refine closes_kind alongside ?_
  split
  · next kind =>
    refine closes_take begins alongside (going_of_kind kind (by simp))
      (rests_never fun _ c _ ended ran => ?_) fun _ _ alongside _ => ?_
    · rw [run_behind (a := withoutSpans strict) rfl] at ran
      obtain ⟨_, _, ran, -⟩ := run_bind ran
      exact expressionList_ended sided.begins ended ran
    refine closes_looks (a := withoutSpans strict) rfl rfl ?_
    exact closes_made alongside (follows_expressionList sided (by decide) id)
      (closes_expressionList sided begins alongside (by decide))
      (fun _ => rests_spanFrom (rests_pure fun _ => trivial)) fun _ _ _ _ ran => stays_spanFrom ran
  · next kind =>
    refine closes_take begins alongside (going_of_kind kind (by simp))
      (rests_stuck fun _ _ _ ended => objectBody_ended ended) fun _ _ alongside _ => ?_
    exact closes_made alongside (follows_objectBody sided) (closes_objectBody sided begins alongside)
      (fun _ => rests_spanFrom (rests_pure fun _ => trivial)) fun _ _ _ _ ran => stays_spanFrom ran
  · next kind =>
    refine closes_take begins alongside (going_of_kind kind (by simp))
      (rests_stuck fun _ _ _ ended => function_ended ended) fun _ _ alongside _ => ?_
    exact closes_made alongside (follows_function sided false)
      (closes_function sided begins alongside)
      (fun _ => rests_spanFrom (rests_pure fun _ => trivial)) fun _ _ _ _ ran => stays_spanFrom ran
  · next kind => exact leaf (going_of_kind kind (by simp)) (by rw [kind]; rfl)
  · next kind => exact leaf (going_of_kind kind (by simp)) (by rw [kind]; rfl)
  · next kind => exact leaf (going_of_kind kind (by simp)) (by rw [kind]; rfl)
  · next kind => exact leaf (going_of_kind kind (by simp)) (by rw [kind]; rfl)
  · next kind => exact leaf (going_of_kind kind (by simp)) (by rw [kind]; rfl)
  · intro _ _ ran
    cases ran

end Operands

/-! ## Rules that are entered again -/

/-- The rules that are entered again from within others, when they read the text to its end. Behind a
slash only operands are read. -/
structure Rules.Closing (closer : Closer) (more rest : List Char) (strict : Bool) (R R' : Rules) : Prop
    where
  sided : R.SidedExprs (seamSides more strict) R'
  primary : ∀ calls {c d}, Alongside more c d →
    Closes closer rest strict closer.EndsExpr c d (R.primary calls) (R'.primary calls)

section Primary

variable {R R' : Rules} (closing : R.Closing closer more rest strict R')

/-- A rule that consumes a token does not begin at the end of the text. -/
theorem going_of_follows {p q : Parser α} {parts : α → List Part}
    (follows : ∀ {d}, (seamSides more strict).Follows c d p q ((seamSides more strict).Read parts c))
    {a : α} {behind : Cursor} (ran : p (withoutSpans strict) c = .ok (a, behind)) :
    c.token.isEof = false := by
  obtain ⟨-, reaches, _, known, -⟩ := follows (d := c) a behind trivial ran
  obtain rfl | ⟨_, _, plain, -⟩ | ⟨_, _, _, _, slash, -⟩ := reaches.first
  · exact absurd known.2 (Nat.lt_irrefl _)
  · exact plain
  · exact slash.going

include closing

theorem closes_newOperand (begins : closer.Begins rest more) (alongside : Alongside more c d)
    {start start' : Position} :
    Closes closer rest strict closer.EndsExpr c d (newOperand R start) (newOperand R' start') := by
  have sided := closing.sided.toSided
  unfold newOperand
  refine closes_bind alongside (closing.sided.primary false) (closing.primary false alongside)
    (fun callee => rests_atPunctuation (by decide) ?_) fun callee behind behind' alongside _ _ => ?_
  · simp only [Bool.false_eq_true, if_false, pure_bind]
    refine rests_spanFrom (rests_pure fun cold slash word last => ?_)
    exact cold slash word last
  · refine closes_atPunctuation alongside ?_
    split_ifs with paren
    · refine closes_take begins alongside (going_of_punctuation paren)
        (rests_stuck fun _ _ _ ended ran => expressionList_ended sided.begins ended ran)
        fun _ _ alongside _ => ?_
      exact closes_made alongside (follows_expressionList sided (by decide) id)
        (closes_expressionList sided begins alongside (by decide))
        (fun _ => rests_spanFrom (rests_pure fun _ => trivial)) fun _ _ _ _ ran => stays_spanFrom ran
    · simp only [pure_bind]
      exact closes_spanFrom (closes_pure begins alongside)

theorem closes_primary (begins : closer.Begins rest more) (alongside : Alongside more c d)
    (calls : Bool) :
    Closes closer rest strict closer.EndsExpr c d (primary R calls) (primary R' calls) := by
  have sided := closing.sided.toSided
  unfold primary
  refine closes_startOfToken fun start start' => closes_atOperator alongside ?_
  split_ifs with new
  · refine closes_take begins alongside (going_of_operator new) (rests_never fun _ _ _ ended ran => ?_)
      fun _ _ alongside _ => ?_
    · unfold newExpression at ran
      obtain ⟨_, _, ran, -⟩ := run_bind ran
      rw [going_of_follows (closing.sided.primary false) ran] at ended
      cases ended
    rw [newExpression_eq, newExpression_eq]
    exact closes_bind alongside
      (follows_newOperand sided (closing.sided.primary false) unplaced)
      (closes_newOperand closing begins alongside) (fun _ => rests_subscripts id)
      fun _ _ _ alongside _ _ => closes_subscripts sided begins alongside
  refine closes_atPunctuation alongside ?_
  split_ifs with paren
  · refine closes_take begins alongside (going_of_punctuation paren)
      (rests_stuck fun _ _ _ ended ran => ?_) fun _ _ alongside _ => ?_
    · rw [(sided.begins ran).1] at ended
      cases ended
    refine closes_next alongside (sided.expression true false) (fun _ _ _ _ ended ran => ?_)
      fun inner behind behind' alongside _ _ => ?_
    · obtain ⟨_, _, ran, -⟩ := run_bind ran
      exact expectPunctuation_ended ended ran
    exact closes_bind alongside (follows_expectPunctuation ')')
      (closes_expectClosing begins alongside (by decide))
      (fun _ => rests_subscripts fun _ => trivial)
      fun _ _ _ alongside _ _ => closes_subscripts sided begins alongside
  · exact closes_bind alongside (follows_atom sided unplaced) (closes_atom sided begins alongside)
      (fun _ => rests_subscripts id)
      fun _ _ _ alongside _ _ => closes_subscripts sided begins alongside

end Primary

end Stencil.Grammar
