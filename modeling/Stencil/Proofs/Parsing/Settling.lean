import Stencil.Proofs.Parsing.Blocks
import Stencil.Proofs.Parsing.Scripts
/-!
# Rules that settle

A rule settles when it gives a result or refuses the text, wherever it is run: no bound of a loop in
it is ever too small. A loop settles when each of its steps that goes on makes something smaller
(`Descends`), and that is what lies ahead: a step that goes on consumes a token (`Consuming`). The
one step that may go on without is the first of a list, before a comma: it adds the element that is
missing there, and leaves the comma to the next step (`ConsumingItems`).

The rules of the grammar are followed one by one, given those that are entered again from within
(`Rules.Settling`).
-/

set_option autoImplicit false
set_option linter.unusedSectionVars false

namespace Stencil.Grammar

open Stencil.Error (Fault ParseError)
open Stencil.Syntax
open Stencil.Text (Position Span)
open Stencil.Grammar.Parser

variable {α β σ : Type}

/-! ## Laws -/

/-- A condition on failures that every error of the text meets. -/
class Tolerant (bad : Failure → Prop) : Prop where
  refused (error : ParseError) : bad (.refused error)

/-- The failure is an error of the text. -/
def Failure.Real (failure : Failure) : Prop := failure ≠ .exhausted

instance : Tolerant Failure.Real := ⟨nofun⟩

/-- Any failure. -/
def Failure.Any (_ : Failure) : Prop := True

instance : Tolerant Failure.Any := ⟨fun _ => trivial⟩

/-- The rule gives a result, or fails as told. -/
def Settles (bad : Failure → Prop) (p : Parser α) : Prop := ∀ o c, Ends p o c (fun _ _ => True) bad

/-- The rule consumes a token, or fails as told. -/
def Moves (bad : Failure → Prop) (p : Parser α) : Prop :=
  ∀ o c, Ends p o c (fun _ behind => behind.ahead < c.ahead) bad

variable {bad : Failure → Prop} [Tolerant bad]

theorem Moves.settles {p : Parser α} (moves : Moves bad p) : Settles bad p :=
  fun o c => (moves o c).mono (fun _ _ _ => trivial) fun _ real => real

/-- A rule that settles and consumes a token. -/
theorem Settles.moves {p : Parser α} (settles : Settles bad p) (takes : ∀ o c, Takes o c p) : Moves bad p :=
  fun o c => ((settles o c).and (takes o c)).mono (fun _ _ both => both.2.2) fun _ real => real

theorem Settles.bind {p : Parser α} {f : α → Parser β} (first : Settles bad p)
    (second : ∀ a, Settles bad (f a)) : Settles bad (p >>= f) := by
  intro o c
  rw [ends_bind]
  exact (first o c).mono (fun a behind _ => second a o behind) fun _ real => real

theorem settles_pure (a : α) : Settles bad (pure a : Parser α) := fun _ _ => trivial

theorem settles_refuse (error : ParseError) : Settles bad (refuse error : Parser α) :=
  fun _ _ => Tolerant.refused error

theorem settles_unexpected : Settles bad (unexpected : Parser α) := fun _ _ => Tolerant.refused _

theorem settles_faultHere (fault : Fault) : Settles bad (faultHere fault : Parser α) :=
  fun _ _ => Tolerant.refused _

theorem settles_expected (wanted : String) : Settles bad (expected wanted : Parser α) :=
  fun _ _ => Tolerant.refused _

theorem settles_ite {p q : Parser α} {condition : Prop} [Decidable condition] (yes : Settles bad p)
    (no : Settles bad q) : Settles bad (if condition then p else q) := by
  split
  · exact yes
  · exact no

theorem settles_current : Settles bad current := fun _ _ => trivial

theorem settles_currentKind : Settles bad currentKind := fun _ _ => trivial

theorem settles_startOfToken : Settles bad startOfToken := fun _ _ => trivial

theorem settles_read : Settles bad (read : Parser Options) := fun _ _ => trivial

theorem settles_atPunctuation (char : Char) : Settles bad (atPunctuation char) := fun _ _ => trivial

theorem settles_atOperator (spelling : String) : Settles bad (atOperator spelling) :=
  fun _ _ => trivial

theorem settles_atKeyword (keyword : Keyword) : Settles bad (atKeyword keyword) := fun _ _ => trivial

theorem settles_atMarker (marker : Marker) : Settles bad (atMarker marker) := fun _ _ => trivial

theorem settles_mayOmitSemicolon : Settles bad mayOmitSemicolon := fun _ _ => trivial

theorem settles_spanFrom (start : Position) : Settles bad (spanFrom start) :=
  fun _ _ => (ends_spanFrom start).2 trivial

theorem settles_advance : Settles bad advance := by
  intro o c
  rw [ends_advance]
  split
  · trivial
  · exact Tolerant.refused _

theorem settles_following : Settles bad following := by
  intro o c
  rw [ends_following]
  split
  · trivial
  · exact Tolerant.refused _

/-- Giving a tree its span. -/
theorem settles_spanned {start : Position} {make : Option Span → α} :
    Settles bad (do return make (← spanFrom start)) :=
  (settles_spanFrom start).bind fun _ => settles_pure _

/-- Consuming a token for a result. -/
theorem settles_advance_pure {a : α} : Settles bad (do advance; return a) :=
  settles_advance.bind fun _ => settles_pure a

theorem settles_expectPunctuation (char : Char) : Settles bad (expectPunctuation char) :=
  settles_current.bind fun _ => settles_ite settles_advance
    (settles_current.bind fun _ => settles_expected _)

theorem settles_expectMarker (marker : Marker) : Settles bad (expectMarker marker) :=
  settles_current.bind fun _ => settles_ite settles_advance
    (settles_current.bind fun _ => settles_expected _)

theorem settles_semicolon : Settles bad semicolon :=
  (settles_atPunctuation ';').bind fun _ => settles_ite settles_advance
    (settles_mayOmitSemicolon.bind fun _ => settles_ite (settles_pure ()) settles_unexpected)

theorem settles_rereadRegexp : Settles bad rereadRegexp := by
  intro o c
  unfold rereadRegexp
  rw [ends_bind, ends_get]
  dsimp only
  split
  · trivial
  · exact Tolerant.refused _

theorem settles_plainName : Settles bad plainName := by
  refine settles_currentKind.bind fun kind => ?_
  split
  · exact settles_advance_pure
  · exact settles_unexpected

theorem settles_anyName : Settles bad anyName := by
  refine settles_currentKind.bind fun kind => ?_
  split
  · exact settles_advance_pure
  · exact settles_advance_pure
  · exact settles_advance_pure
  · exact settles_ite settles_advance_pure settles_unexpected
  · exact settles_unexpected

theorem settles_propertyKey : Settles bad propertyKey := by
  refine settles_currentKind.bind fun kind => ?_
  split
  · exact settles_advance_pure
  · exact settles_advance_pure
  · exact settles_anyName

theorem moves_plainName : Moves bad plainName := settles_plainName.moves fun _ _ => takes_plainName

/-! ## Loops -/

/-- A step that goes on makes the size of its state smaller. -/
def Descends (bad : Failure → Prop) (size : σ → Cursor → Nat)
    (step : σ → Parser (σ ⊕ α)) : Prop :=
  ∀ o c state, Ends (step state) o c
    (fun outcome behind => ∀ next, outcome = .inl next → size next behind < size state c)
    bad

/-- A step that goes on consumes a token. -/
def Consuming (bad : Failure → Prop) (step : σ → Parser (σ ⊕ α)) : Prop :=
  ∀ o c state, Ends (step state) o c
    (fun outcome behind => ∀ next, outcome = .inl next → behind.ahead < c.ahead) bad

/-- What consumes a token consumes one when it goes on. -/
theorem Consumes.goesOn {o : Options} {c : Cursor} {p : Parser (σ ⊕ α)}
    (consumes : Consumes o c p p) :
    Gives o c p fun outcome behind => ∀ next, outcome = .inl next → behind.ahead < c.ahead :=
  consumes.takes.mono (fun _ _ taken _ _ => taken.2) fun _ _ => trivial

theorem consuming_of {step : σ → Parser (σ ⊕ α)} (settles : ∀ state, Settles bad (step state))
    (goesOn : ∀ o c state, Gives o c (step state) fun outcome behind =>
      ∀ next, outcome = .inl next → behind.ahead < c.ahead) : Consuming bad step := fun o c state =>
  ((settles state o c).and (goesOn o c state)).mono (fun _ _ both => both.2) fun _ real => real

/-- A loop of which each step makes something smaller settles when its bound is larger than that: by
induction on the bound. -/
theorem Descends.loopWithin {size : σ → Cursor → Nat} {step : σ → Parser (σ ⊕ α)}
    (descends : Descends bad size step) {n : Nat} {o : Options} {c : Cursor} {state : σ}
    (enough : size state c < n) :
    Ends (loopWithin step n state) o c (fun _ _ => True) bad := by
  induction n generalizing c state with
  | zero => exact absurd enough (Nat.not_lt_zero _)
  | succ n ih =>
    rw [Parser.loopWithin, ends_bind]
    refine (descends o c state).mono (fun outcome behind smaller => ?_) fun _ real => real
    cases outcome with
    | inl next => exact ih (Nat.lt_of_lt_of_le (smaller next rfl) (Nat.le_of_lt_succ enough))
    | inr result => trivial

/-- A loop has enough rounds when what becomes smaller is at most what lies ahead. -/
theorem Descends.loop {size : σ → Cursor → Nat} {step : σ → Parser (σ ⊕ α)}
    (descends : Descends bad size step) (within : ∀ state c, size state c ≤ c.ahead) (state : σ) :
    Settles bad (loop step state) := by
  intro o c
  rw [Parser.loop, ends_bind, ends_get]
  refine descends.loopWithin (Nat.lt_of_le_of_lt (within state c) ?_)
  unfold Cursor.ahead
  split_ifs <;> omega

theorem Consuming.loop {step : σ → Parser (σ ⊕ α)} (consuming : Consuming bad step) (state : σ) :
    Settles bad (Parser.loop step state) := by
  have descends : Descends bad (fun _ c => c.ahead) step := consuming
  exact descends.loop (fun _ _ => Nat.le_refl _) state

/-- A step that goes on consumes a token, or it is the first of a list and adds an item without. -/
def ConsumingItems (bad : Failure → Prop)
    (step : List α → Parser (List α ⊕ List α)) : Prop :=
  ∀ o c items, Ends (step items) o c
    (fun outcome behind => ∀ next, outcome = .inl next →
      behind.ahead < c.ahead ∨ items = [] ∧ next ≠ [] ∧ behind = c) bad

/-- What lies ahead of a list. A comma behind an item is as good as consumed. -/
def listSize (items : List α) (c : Cursor) : Nat :=
  if !items.isEmpty && c.token.isPunctuation ',' then c.lexer.rest.length else c.ahead

theorem listSize_le (items : List α) (c : Cursor) : listSize items c ≤ c.ahead := by
  unfold listSize
  split_ifs
  · exact Nat.le_add_right _ _
  · exact Nat.le_refl _

theorem listSize_comma {items : List α} {c : Cursor} (some_ : items ≠ [])
    (comma : c.token.isPunctuation ',' = true) : listSize items c < c.ahead := by
  have given : items.isEmpty = false := by simpa using some_
  simp [listSize, Cursor.ahead, given, comma, going_of_punctuation comma]

/-- What an item of a list may do: consume a token, or leave a comma for the next step. -/
def ItemEnds (bad : Failure → Prop) (item : List α → Parser (List α ⊕ List α)) : Prop :=
  ∀ o c items, Ends (item items) o c
    (fun outcome behind => ∀ next, outcome = .inl next →
      behind.ahead < c.ahead ∨ next ≠ [] ∧ behind = c ∧ c.token.isPunctuation ',' = true)
    bad

/-- The comma before an item that is not the first is consumed, and the item settles. -/
theorem ItemEnds.listStep {item : List α → Parser (List α ⊕ List α)} (ends : ItemEnds bad item)
    (closing : Char) {o : Options} {c : Cursor} {items : List α} :
    Ends (listStep closing item items) o c
      (fun outcome behind => ∀ next, outcome = .inl next →
        listSize next behind < listSize items c ∧
          (behind.ahead < c.ahead ∨ items = [] ∧ next ≠ [] ∧ behind = c)) bad := by
  unfold Grammar.listStep
  simp only [ends_bind, ends_atPunctuation, ends_ite, ends_pure]
  split
  · simp
  · split
    · next some_ =>
      have given : items ≠ [] := by simpa using some_
      simp only [expectPunctuation, ends_bind, ends_current, ends_ite]
      split
      · next comma =>
        have smaller : listSize items c = c.lexer.rest.length := by
          simp [listSize, given, comma]
        have more : c.ahead = c.lexer.rest.length + 1 := by
          simp [Cursor.ahead, going_of_punctuation comma]
        refine ((settles_advance o c).and (takes_advance (going_of_punctuation comma))).mono
          (fun _ later both => ?_) fun _ real => real
        refine (ends o later items).mono (fun outcome behind fine next same => ?_) fun _ real => real
        have shorter := both.2.2
        have size := listSize_le next behind
        obtain taken | ⟨nonempty, rfl, comma⟩ := fine next same
        · exact ⟨by omega, .inl (by omega)⟩
        · have := listSize_comma nonempty comma
          exact ⟨by omega, .inl (by omega)⟩
      · exact Tolerant.refused _
    · next none_ =>
      obtain rfl : items = [] := by simpa using none_
      refine (ends o c []).mono (fun outcome behind fine next same => ?_) fun _ real => real
      have size := listSize_le next behind
      have whole : listSize ([] : List α) c = c.ahead := by simp [listSize]
      obtain taken | ⟨nonempty, rfl, comma⟩ := fine next same
      · exact ⟨by omega, .inl taken⟩
      · have := listSize_comma nonempty comma
        exact ⟨by omega, .inr ⟨rfl, nonempty, rfl⟩⟩

theorem ItemEnds.consumingItems {item : List α → Parser (List α ⊕ List α)} (ends : ItemEnds bad item)
    (closing : Char) : ConsumingItems bad (Grammar.listStep closing item) := fun _ _ _ =>
  (ends.listStep closing).mono (fun _ _ both next same => (both next same).2) fun _ real => real

theorem ItemEnds.loop {item : List α → Parser (List α ⊕ List α)} (ends : ItemEnds bad item)
    (closing : Char) (items : List α) :
    Settles bad (Parser.loop (Grammar.listStep closing item) items) := by
  have descends : Descends bad listSize (Grammar.listStep closing item) := fun _ _ _ =>
    (ends.listStep closing).mono (fun _ _ both next same => (both next same).1) fun _ real => real
  exact descends.loop listSize_le items

/-- An item that always consumes a token. -/
theorem Consuming.itemEnds {item : List α → Parser (List α ⊕ List α)} (consuming : Consuming bad item) :
    ItemEnds bad item := fun o c items =>
  (consuming o c items).mono (fun _ _ taken next same => .inl (taken next same)) fun _ real => real

/-- A list of items that always consume a token. -/
theorem Consuming.listStep {item : List α → Parser (List α ⊕ List α)} (consuming : Consuming bad item)
    (closing : Char) : Consuming bad (Grammar.listStep closing item) := by
  intro o c items
  unfold Grammar.listStep
  simp only [ends_bind, ends_atPunctuation, ends_ite, ends_pure]
  split
  · simp
  · split
    · refine ((settles_expectPunctuation ',' o c).and (takes_expectPunctuation ',')).mono
        (fun _ later both => ?_) fun _ real => real
      exact (consuming o later items).mono
        (fun _ _ taken next same => Nat.lt_trans (taken next same) both.2.2) fun _ real => real
    · exact consuming o c items

/-- A step that adds what a rule reads. -/
theorem Moves.consuming {p : Parser α} (moves : Moves bad p) {add : σ → α → σ} :
    Consuming bad (fun state => do return .inl (add state (← p)) : σ → Parser (σ ⊕ β)) := by
  intro o c state
  simp only [ends_bind, ends_pure]
  exact (moves o c).mono (fun _ _ taken _ _ => taken) fun _ real => real

theorem consuming_parameterItem : Consuming bad parameterItem := moves_plainName.consuming

theorem settles_parameters : Settles bad parameters := by
  rw [parameters_eq]
  exact (consuming_parameterItem.itemEnds.loop ')' []).bind fun _ => settles_advance_pure

theorem settles_jumpTarget (around : Surroundings) (keyword : Keyword) :
    Settles bad (jumpTarget around keyword) := by
  have ended (label : Option String) : Settles bad (do semicolon; return label) :=
    settles_semicolon.bind fun _ => settles_pure label
  unfold jumpTarget
  refine settles_mayOmitSemicolon.bind fun omitted => settles_currentKind.bind fun kind => ?_
  split
  · refine settles_advance.bind fun _ => ?_
    split_ifs
    · exact (settles_faultHere _).bind fun _ => ended _
    · exact ended _
  · split_ifs
    · exact (settles_faultHere _).bind fun _ => ended _
    · exact ended _

theorem settles_closeBlock (name : String) (opening : Span) : Settles bad (closeBlock name opening) := by
  have ended : Settles bad (do advance; expectMarker .commandClose) :=
    settles_advance.bind fun _ => settles_expectMarker _
  unfold closeBlock
  refine (settles_expectMarker _).bind fun _ => settles_current.bind fun token => ?_
  dsimp only
  split_ifs
  · exact (settles_refuse _).bind fun _ => ended
  · exact ended

theorem settles_bindingNames (listSpan : Span) (items : List Expr) :
    Settles bad (bindingNames listSpan items) := by
  induction items with
  | nil => exact settles_pure _
  | cons item rest ih =>
    cases item with
    | name => exact ih.bind fun _ => settles_pure _
    | _ => exact settles_refuse _

theorem settles_checkUpdate (op : UnaryOp) (operand : Expr) : Settles bad (checkUpdate op operand) :=
  settles_read.bind fun _ => settles_ite (settles_faultHere _) (settles_pure ())

/-- An operator behind its operand is not the end of the text. -/
theorem going_of_behind {token : Token} {op : UnaryOp} (here : operatorBehind token = some op) :
    token.isEof = false := by
  unfold operatorBehind at here
  split at here
  · next kind => exact going_of_kind kind (by simp)
  · cases here

/-! ## Expressions -/

/-- The rules that are entered again from within others settle, and consume a token where a loop
relies on it. -/
structure Rules.Settling (bad : Failure → Prop) (R : Rules) : Prop where
  leads : ∀ k, Rules.Agree k R R
  expression : ∀ commas noIn, Moves bad (R.expression commas noIn)
  assignment : ∀ noIn, Settles bad (R.assignment noIn)
  operators : ∀ left start bound noIn, Settles bad (R.operators left start bound noIn)
  unary : ∀ calls, Settles bad (R.unary calls)
  primary : ∀ calls, Settles bad (R.primary calls)
  statement : ∀ around, Moves bad (R.statement around)
  chunk : Moves bad R.chunk

section Rules

variable {R : Rules} (settling : R.Settling bad)

include settling

/-- Where an element is missing before a comma the comma is left. -/
theorem itemEnds_expressionItem (closing : Char) (trailing gaps : Bool) :
    ItemEnds bad (expressionItem R closing trailing gaps) := by
  intro o c items
  unfold expressionItem
  simp only [ends_bind, ends_atPunctuation, ends_ite, ends_pure]
  split
  · simp
  · split
    · next missing =>
      rw [Bool.and_eq_true] at missing
      rintro next ⟨⟩
      exact .inr ⟨by simp, trivial, missing.2⟩
    · exact (settling.expression false false o c).mono (fun _ _ taken _ _ => .inl taken)
        fun _ real => real

theorem settles_expressionList (closing : Char) (trailing gaps : Bool) :
    Settles bad (expressionList R closing trailing gaps) := by
  rw [expressionList_eq]
  exact ((itemEnds_expressionItem settling closing trailing gaps).loop closing []).bind fun _ =>
    settles_advance_pure

theorem consuming_blockStep (around : Surroundings) : Consuming bad (blockStep R around) := by
  intro o c body
  unfold blockStep
  simp only [ends_bind, ends_atPunctuation, ends_current, ends_ite, ends_pure]
  split_ifs
  · simp
  · exact Tolerant.refused _
  · exact (settling.statement around o c).mono (fun _ _ taken _ _ => taken) fun _ real => real

theorem settles_block (around : Surroundings) : Settles bad (block R around) := by
  rw [block_eq]
  exact (settles_expectPunctuation _).bind fun _ =>
    ((consuming_blockStep settling around).loop []).bind fun _ => settles_advance_pure

theorem settles_function (declaration : Bool) : Settles bad (function R declaration) := by
  have behind (name : Option String) :
      Settles bad (do
        expectPunctuation '('
        let names ← parameters
        return .mk name names (← block R .ofFunction) : Parser Function) :=
    (settles_expectPunctuation '(').bind fun _ => settles_parameters.bind fun _ =>
      (settles_block settling _).bind fun _ => settles_pure _
  unfold function
  refine settles_currentKind.bind fun kind => ?_
  split
  · exact settles_advance.bind fun _ => behind _
  · split_ifs
    · exact settles_unexpected.bind fun _ => behind _
    · exact behind _

theorem settles_property : Settles bad (property R) := by
  have accessor (make : String → Function → Property) :
      Settles bad (do let key ← anyName; return make key (← function R false)) :=
    settles_anyName.bind fun _ => (settles_function settling false).bind fun _ => settles_pure _
  unfold property
  refine settles_currentKind.bind fun kind => settles_propertyKey.bind fun key =>
    (settles_atPunctuation ':').bind fun colon => ?_
  split
  · exact accessor _
  · exact accessor _
  · exact (settles_expectPunctuation ':').bind fun _ =>
      (settling.expression false false).settles.bind fun _ => settles_pure _

theorem moves_property : Moves bad (property R) :=
  (settles_property settling).moves fun _ c =>
    (consumes_property (settling.leads (c.ahead + 1)) (Nat.lt_succ_self _)).takes

theorem consuming_propertyItem (strict : Bool) : Consuming bad (propertyItem R strict) := by
  intro o c properties
  unfold propertyItem
  simp only [ends_bind, ends_atPunctuation, ends_ite, ends_pure]
  split_ifs
  · simp
  · exact (moves_property settling o c).mono (fun _ _ taken _ _ => taken) fun _ real => real

theorem settles_objectBody : Settles bad (objectBody R) := by
  rw [objectBody_eq]
  exact settles_read.bind fun _ =>
    ((consuming_propertyItem settling _).itemEnds.loop '\x7d' []).bind fun _ => settles_advance_pure

/-- A member access or call consumes the point or bracket it begins with. -/
theorem consuming_subscriptStep (start : Position) (calls : Bool) :
    Consuming bad (subscriptStep R start calls) := by
  refine consuming_of (fun operand => ?_) fun o c operand => ?_
  · unfold subscriptStep
    refine (settles_atPunctuation _).bind fun _ => settles_ite ?_ ?_
    · exact settles_advance.bind fun _ => settles_anyName.bind fun _ => settles_spanned
    · refine (settles_atPunctuation _).bind fun _ => settles_ite ?_ ?_
      · exact settles_advance.bind fun _ => (settling.expression true false).settles.bind fun _ =>
          (settles_expectPunctuation _).bind fun _ => settles_spanned
      · refine (settles_atPunctuation _).bind fun _ => settles_ite ?_ (settles_pure _)
        exact settles_advance.bind fun _ =>
          (settles_expressionList settling _ _ _).bind fun _ => settles_spanned
  · unfold subscriptStep
    rw [Gives, ends_bind, ends_atPunctuation]
    split_ifs with point
    · refine ((takes_advance (going_of_punctuation point)).followed fun _ _ _ _ => ?_).goesOn
      exact takes_anyName.same.bind fun _ _ _ => same_spanFrom.2 (same_pure _)
    rw [ends_bind, ends_atPunctuation]
    split_ifs with bracket
    · refine ((takes_advance (going_of_punctuation bracket)).followed fun _ _ _ shorter => ?_).goesOn
      exact ((settling.leads c.ahead).expression shorter true false).bind fun _ _ _ =>
        (takes_expectPunctuation _).same.bind fun _ _ _ => same_spanFrom.2 (same_pure _)
    rw [ends_bind, ends_atPunctuation]
    split_ifs with paren
    · rw [Bool.and_eq_true] at paren
      refine ((takes_advance (going_of_punctuation paren.2)).followed fun _ _ _ shorter => ?_).goesOn
      exact (same_expressionList (settling.leads c.ahead) shorter _ _ _).bind fun _ _ _ =>
        same_spanFrom.2 (same_pure _)
    · rintro next ⟨⟩

theorem settles_subscripts (operand : Expr) (start : Position) (calls : Bool) :
    Settles bad (subscripts R operand start calls) := by
  rw [subscripts_eq]
  exact (consuming_subscriptStep settling start calls).loop operand

theorem settles_newExpression (start : Position) : Settles bad (newExpression R start) := by
  have behind (callee : Expr) (args : List Expr) :
      Settles bad (do subscripts R (.new (← spanFrom start) callee args) start true) :=
    (settles_spanFrom start).bind fun _ => settles_subscripts settling _ _ _
  unfold newExpression
  refine (settling.primary false).bind fun callee => (settles_atPunctuation '(').bind fun _ => ?_
  split_ifs
  · exact settles_advance.bind fun _ =>
      (settles_expressionList settling _ _ _).bind fun _ => behind _ _
  · exact behind _ _

theorem settles_atom (start : Position) : Settles bad (atom R start) := by
  have leaf (make : Option Span → Expr) : Settles bad (do advance; return make (← spanFrom start)) :=
    settles_advance.bind fun _ => settles_spanned
  unfold atom
  refine settles_currentKind.bind fun kind => ?_
  split
  · exact settles_advance.bind fun _ => settles_read.bind fun _ =>
      (settles_expressionList settling _ _ _).bind fun _ => settles_spanned
  · exact settles_advance.bind fun _ => (settles_objectBody settling).bind fun _ => settles_spanned
  · exact settles_advance.bind fun _ => (settles_function settling false).bind fun _ =>
      settles_spanned
  · exact leaf _
  · exact leaf _
  · exact leaf _
  · exact leaf _
  · exact leaf _
  · exact settles_unexpected

theorem settles_primary (calls : Bool) : Settles bad (primary R calls) := by
  unfold primary
  refine settles_startOfToken.bind fun start => (settles_atOperator "new").bind fun _ =>
    settles_ite ?_ ?_
  · exact settles_advance.bind fun _ => settles_newExpression settling start
  · refine (settles_atPunctuation '(').bind fun _ => settles_ite ?_ ?_
    · exact settles_advance.bind fun _ => (settling.expression true false).settles.bind fun inner =>
        (settles_expectPunctuation ')').bind fun _ => settles_subscripts settling inner start calls
    · exact (settles_atom settling start).bind fun operand =>
        settles_subscripts settling operand start calls

omit settling in
/-- An operator behind an operand is consumed. -/
theorem consuming_postfixStep (start : Position) : Consuming bad (postfixStep start) := by
  refine consuming_of (fun operand => ?_) fun o c operand => ?_
  · unfold postfixStep
    refine settles_current.bind fun token => ?_
    split
    · exact settles_advance.bind fun _ => (settles_checkUpdate _ operand).bind fun _ =>
        settles_spanned
    · exact settles_pure _
  · unfold postfixStep
    rw [Gives, ends_bind, ends_current]
    split
    · next op behind =>
      refine ((takes_advance (going_of_behind behind)).followed fun _ _ _ _ => ?_).goesOn
      exact (same_checkUpdate op operand).bind fun _ _ _ => same_spanFrom.2 (same_pure _)
    · rintro next ⟨⟩

theorem settles_unary (calls : Bool) : Settles bad (unary R calls) := by
  rw [unary_eq]
  refine settles_startOfToken.bind fun start => settles_currentKind.bind fun kind => ?_
  split
  · exact settles_advance.bind fun _ => (settling.unary calls).bind fun operand =>
      (settles_checkUpdate _ operand).bind fun _ => settles_spanned
  · exact (settles_primary settling calls).bind fun operand =>
      (consuming_postfixStep start).loop operand

theorem settles_operators (left : Expr) (start : Position) (bound : Nat) (noIn : Bool) :
    Settles bad (operators R left start bound noIn) := by
  unfold operators
  refine settles_currentKind.bind fun kind => ?_
  split
  · exact settles_pure _
  · split_ifs
    · exact settles_pure _
    · exact settles_advance.bind fun _ => settles_startOfToken.bind fun _ =>
        (settles_unary settling true).bind fun _ => (settling.operators _ _ _ _).bind fun _ =>
          (settles_spanFrom _).bind fun _ => settling.operators _ _ _ _

theorem settles_conditional (noIn : Bool) : Settles bad (conditional R noIn) := by
  unfold conditional
  refine settles_startOfToken.bind fun start => (settles_unary settling true).bind fun _ =>
    (settles_operators settling _ _ _ _).bind fun _ => (settles_atOperator "?").bind fun _ =>
      settles_ite ?_ (settles_pure _)
  exact settles_advance.bind fun _ => (settling.expression false false).settles.bind fun _ =>
    (settles_expectPunctuation ':').bind fun _ =>
      (settling.expression false noIn).settles.bind fun _ => settles_spanned

theorem settles_assignment (noIn : Bool) : Settles bad (assignment R noIn) := by
  unfold assignment
  refine settles_startOfToken.bind fun start => (settles_conditional settling noIn).bind fun _ =>
    settles_currentKind.bind fun kind => ?_
  split
  · exact settles_pure _
  · next op _ =>
    have value (target : Expr) :
        Settles bad (do
          advance
          let value ← R.assignment noIn
          return .assign (← spanFrom start) op target value : Parser Expr) :=
      settles_advance.bind fun _ => (settling.assignment noIn).bind fun _ => settles_spanned
    refine settles_read.bind fun _ => ?_
    split_ifs
    · exact (settles_faultHere _).bind fun _ => value _
    · exact value _

theorem settles_expression (commas noIn : Bool) : Settles bad (expression R commas noIn) := by
  unfold expression
  refine settles_startOfToken.bind fun start => (settles_assignment settling noIn).bind fun _ =>
    (settles_atPunctuation ',').bind fun _ => settles_ite ?_ (settles_pure _)
  exact settles_advance.bind fun _ => (settling.expression true noIn).settles.bind fun _ =>
    settles_spanned

theorem moves_expression (commas noIn : Bool) : Moves bad (expression R commas noIn) :=
  (settles_expression settling commas noIn).moves fun _ c =>
    (consumes_expression (settling.leads c.ahead) (Nat.le_refl _) commas noIn).takes

/-- A variable consumes its name. -/
theorem consuming_definitionStep (noIn : Bool) : Consuming bad (definitionStep R noIn) := by
  refine consuming_of (fun defs => ?_) fun o c defs => ?_
  · refine settles_plainName.bind fun name => Settles.bind ?_ fun value => ?_
    · refine (settles_atOperator "=").bind fun _ => settles_ite ?_ (settles_pure _)
      exact settles_advance.bind fun _ => (settling.expression false noIn).settles.bind fun _ =>
        settles_pure _
    · exact (settles_atPunctuation ',').bind fun _ =>
        settles_ite settles_advance_pure (settles_pure _)
  · refine (takes_plainName.followed fun name c' leads shorter => ?_).goesOn
    refine Same.bind ?_ fun value _ _ => ?_
    · unfold definitionValue
      simp only [same_atOperator]
      split_ifs
      · exact same_advance.bind fun _ _ leads =>
          ((settling.leads c.ahead).expression (leads.lt shorter) false noIn).bind fun _ _ _ =>
            same_pure _
      · exact same_pure _
    · unfold definitionEnd
      simp only [same_atPunctuation]
      split_ifs
      · exact same_advance.bind fun _ _ _ => same_pure _
      · exact same_pure _

theorem settles_definitions (noIn : Bool) : Settles bad (definitions R noIn) := by
  rw [definitions_eq]
  exact (consuming_definitionStep settling noIn).loop []

theorem settles_parenthesised : Settles bad (parenthesised R) :=
  (settles_expectPunctuation '(').bind fun _ => (settling.expression true false).settles.bind fun _ =>
    (settles_expectPunctuation ')').bind fun _ => settles_pure _

/-! ## Statements -/

theorem settles_expressionStatement (start : Position) : Settles bad (expressionStatement R start) :=
  (settles_expression settling true false).bind fun _ => settles_semicolon.bind fun _ =>
    settles_spanned

theorem settles_labelledStatement (around : Surroundings) (start : Position) (label : String) :
    Settles bad (labelledStatement R around start label) := by
  have body :
      Settles bad (do
        let body ← R.statement (around.labelled label)
        return .labelled (← spanFrom start) label body : Parser Stmt) :=
    (settling.statement _).settles.bind fun _ => settles_spanned
  unfold labelledStatement
  dsimp only
  split_ifs
  · exact (settles_faultHere _).bind fun _ => body
  · exact body

theorem settles_doStatement (around : Surroundings) (start : Position) :
    Settles bad (doStatement R around start) := by
  have behind (body : Stmt) :
      Settles bad (do
        advance
        let condition ← parenthesised R
        semicolon
        return .doWhile (← spanFrom start) body condition : Parser Stmt) :=
    settles_advance.bind fun _ => (settles_parenthesised settling).bind fun _ =>
      settles_semicolon.bind fun _ => settles_spanned
  unfold doStatement
  refine (settling.statement _).settles.bind fun body => (settles_atKeyword _).bind fun _ => ?_
  split_ifs
  · exact (settles_currentKind.bind fun _ => settles_expected _).bind fun _ => behind _
  · exact behind _

theorem settles_optionalBefore (closing : Char) : Settles bad (optionalBefore R closing) :=
  (settles_atPunctuation closing).bind fun _ => settles_ite (settles_pure _)
    ((settling.expression true false).settles.bind fun _ => settles_pure _)

theorem settles_conditionalFor (around : Surroundings) (start : Position)
    (head : Option ForHead) : Settles bad (conditionalFor R around start head) :=
  (settles_expectPunctuation ';').bind fun _ => (settles_optionalBefore settling ';').bind fun _ =>
    (settles_expectPunctuation ';').bind fun _ => (settles_optionalBefore settling ')').bind fun _ =>
      (settles_expectPunctuation ')').bind fun _ => (settling.statement _).settles.bind fun _ =>
        settles_spanned

theorem settles_iteratingFor (around : Surroundings) (start : Position) (head : ForHead) :
    Settles bad (iteratingFor R around start head) := by
  have behind :
      Settles bad (do
        advance
        let object ← R.expression true false
        expectPunctuation ')'
        let body ← R.statement around.looping
        return .forIn (← spanFrom start) head object body : Parser Stmt) :=
    settles_advance.bind fun _ => (settling.expression true false).settles.bind fun _ =>
      (settles_expectPunctuation ')').bind fun _ => (settling.statement _).settles.bind fun _ =>
        settles_spanned
  unfold iteratingFor
  dsimp only
  split
  · exact (settles_faultHere _).bind fun _ => behind
  · exact behind

theorem settles_forStatement (around : Surroundings) (start : Position) :
    Settles bad (forStatement R around start) := by
  have behind (head : ForHead) :
      Settles bad (do
        if ← atOperator "in" then iteratingFor R around start head
        else conditionalFor R around start (some head)) :=
    (settles_atOperator "in").bind fun _ => settles_ite
      (settles_iteratingFor settling around start head)
      (settles_conditionalFor settling around start (some head))
  unfold forStatement
  refine (settles_expectPunctuation '(').bind fun _ => (settles_atPunctuation ';').bind fun _ => ?_
  split_ifs
  · exact settles_conditionalFor settling around start none
  · refine (settles_atKeyword .var).bind fun _ => ?_
    split_ifs
    · exact settles_advance.bind fun _ => (settles_definitions settling true).bind fun _ => behind _
    · exact (settling.expression true true).settles.bind fun _ => behind _

theorem settles_ifStatement (around : Surroundings) (start : Position) :
    Settles bad (ifStatement R around start) := by
  unfold ifStatement
  refine (settles_parenthesised settling).bind fun _ => (settling.statement _).settles.bind fun _ =>
    (settles_atKeyword .else).bind fun _ => ?_
  split_ifs
  · exact settles_advance.bind fun _ => (settling.statement _).settles.bind fun _ =>
      (settles_pure _).bind fun _ => settles_spanned
  · exact (settles_pure _).bind fun _ => settles_spanned

theorem settles_returnStatement (around : Surroundings) (start : Position) :
    Settles bad (returnStatement R around start) := by
  have behind :
      Settles bad (do
        let value ←
          if ← atPunctuation ';' then do
            advance
            pure none
          else if ← mayOmitSemicolon then pure none
          else do
            let value ← R.expression true false
            semicolon
            pure (some value)
        return .return (← spanFrom start) value : Parser Stmt) := by
    refine (settles_atPunctuation ';').bind fun _ => settles_mayOmitSemicolon.bind fun _ => ?_
    split_ifs
    · exact settles_advance.bind fun _ => (settles_pure _).bind fun _ => settles_spanned
    · exact (settles_pure _).bind fun _ => settles_spanned
    · exact (settling.expression true false).settles.bind fun _ => settles_semicolon.bind fun _ =>
        (settles_pure _).bind fun _ => settles_spanned
  unfold returnStatement
  split_ifs
  · exact (settles_faultHere _).bind fun _ => behind
  · exact behind

/-- A branch of a switch consumes its keyword, and a statement in a branch its first token. -/
theorem consuming_switchStep (around : Surroundings) : Consuming bad (switchStep R around) := by
  intro o c cases
  have labelled (going : c.token.isEof = false) {p : Parser (List SwitchCase ⊕ List SwitchCase)}
      (settles : Settles bad p) (leads : ∀ behind, behind.ahead < c.ahead → Same o behind p p) :
      Ends (do advance; p) o c
        (fun outcome behind => ∀ next, outcome = .inl next → behind.ahead < c.ahead)
        bad :=
    (((settles_advance.bind fun _ => settles) o c).and
      ((takes_advance going).followed fun _ behind _ shorter => leads behind shorter).goesOn).mono
        (fun _ _ both => both.2) fun _ real => real
  unfold switchStep
  rw [ends_bind, ends_atPunctuation]
  split
  · rintro next ⟨⟩
  rw [ends_bind, ends_atKeyword]
  split
  · next case =>
    refine labelled (going_of_keyword case) ?_ fun behind shorter => ?_
    · exact (settling.expression true false).settles.bind fun _ =>
        (settles_expectPunctuation ':').bind fun _ => settles_pure _
    · exact ((settling.leads c.ahead).expression shorter true false).bind fun _ _ _ =>
        (takes_expectPunctuation ':').same.bind fun _ _ _ => same_pure _
  rw [ends_bind, ends_atKeyword]
  split
  · next default =>
    refine labelled (going_of_keyword default) ?_ fun behind shorter => ?_
    · exact (settles_expectPunctuation ':').bind fun _ => settles_pure _
    · exact (takes_expectPunctuation ':').same.bind fun _ _ _ => same_pure _
  · simp only [ends_bind, ends_ite, ends_pure]
    split_ifs
    · exact Tolerant.refused _
    · exact (settling.statement _ o c).mono (fun _ _ taken _ _ => taken) fun _ real => real

theorem settles_switchStatement (around : Surroundings) (start : Position) :
    Settles bad (switchStatement R around start) := by
  rw [switchStatement_eq]
  exact (settles_parenthesised settling).bind fun _ => (settles_expectPunctuation _).bind fun _ =>
    ((consuming_switchStep settling around).loop []).bind fun _ => settles_advance.bind fun _ =>
      settles_spanned

theorem settles_tryStatement (around : Surroundings) (start : Position) :
    Settles bad (tryStatement R around start) := by
  have finish (body : List Stmt) (handler : Option Handler) (finalizer : Option (List Stmt)) :
      Settles bad (do
        if handler.isNone && finalizer.isNone then faultHere .bareTry
        return .tryCatch (← spanFrom start) body handler finalizer : Parser Stmt) := by
    split_ifs
    · exact (settles_faultHere _).bind fun _ => settles_spanned
    · exact settles_spanned
  have behind (body : List Stmt) (handler : Option Handler) :
      Settles bad (do
        let finalizer ←
          if ← atKeyword .finally then do
            advance
            pure (some (← block R around))
          else pure none
        if handler.isNone && finalizer.isNone then faultHere .bareTry
        return .tryCatch (← spanFrom start) body handler finalizer : Parser Stmt) := by
    refine (settles_atKeyword _).bind fun _ => ?_
    split_ifs
    · exact settles_advance.bind fun _ => (settles_block settling _).bind fun _ =>
        (settles_pure _).bind fun _ => finish _ _ _
    · exact (settles_pure _).bind fun _ => finish _ _ _
  unfold tryStatement
  refine (settles_block settling _).bind fun body => (settles_atKeyword _).bind fun _ => ?_
  split_ifs
  · exact settles_advance.bind fun _ => (settles_expectPunctuation '(').bind fun _ =>
      settles_plainName.bind fun _ => (settles_expectPunctuation ')').bind fun _ =>
        (settles_block settling _).bind fun _ => (settles_pure _).bind fun _ => behind _ _
  · exact (settles_pure _).bind fun _ => behind _ _

theorem settles_throwStatement (start : Position) : Settles bad (throwStatement R start) := by
  have behind :
      Settles bad (do
        let value ← R.expression true false
        semicolon
        return .throw (← spanFrom start) value : Parser Stmt) :=
    (settling.expression true false).settles.bind fun _ => settles_semicolon.bind fun _ =>
      settles_spanned
  unfold throwStatement
  refine settles_current.bind fun token => ?_
  split_ifs
  · exact (settles_faultHere _).bind fun _ => behind
  · exact behind

theorem settles_keywordStatement (around : Surroundings) (start : Position) (keyword : Keyword) :
    Settles bad (keywordStatement R around start keyword) := by
  cases keyword with
  | «break» => exact (settles_jumpTarget around .break).bind fun _ => settles_spanned
  | «continue» => exact (settles_jumpTarget around .continue).bind fun _ => settles_spanned
  | debugger => exact settles_semicolon.bind fun _ => settles_spanned
  | «do» => exact settles_doStatement settling around start
  | «for» => exact settles_forStatement settling around start
  | function => exact (settles_function settling true).bind fun _ => settles_spanned
  | «if» => exact settles_ifStatement settling around start
  | «return» => exact settles_returnStatement settling around start
  | switch => exact settles_switchStatement settling around start
  | throw => exact settles_throwStatement settling start
  | «try» => exact settles_tryStatement settling around start
  | var | const =>
    exact (settles_definitions settling false).bind fun _ => settles_semicolon.bind fun _ =>
      settles_spanned
  | «while» | «with» =>
    exact (settles_parenthesised settling).bind fun _ => (settling.statement _).settles.bind fun _ =>
      settles_spanned
  | case | «catch» | default | «else» | «finally» => exact settles_unexpected

theorem settles_statementFrom (around : Surroundings) : Settles bad (statementFrom R around) := by
  unfold statementFrom
  refine settles_startOfToken.bind fun start => settles_currentKind.bind fun kind => ?_
  have value := settles_expressionStatement settling start
  split
  · refine settles_following.bind fun _ => settles_ite ?_ value
    exact settles_advance.bind fun _ => settles_advance.bind fun _ =>
      settles_labelledStatement settling around start _
  · exact value
  · exact value
  · exact value
  · exact value
  · exact value
  · exact value
  · exact value
  · exact (settles_block settling around).bind fun _ => settles_spanned
  · exact settles_advance.bind fun _ => settles_spanned
  · exact settles_ite (settles_advance.bind fun _ => settles_keywordStatement settling around start _)
      settles_unexpected
  · exact settles_unexpected

theorem settles_statement (around : Surroundings) : Settles bad (statement R around) := by
  unfold statement
  refine (settles_atOperator "/").bind fun _ => (settles_atOperator "/=").bind fun _ => ?_
  split_ifs
  · exact settles_rereadRegexp.bind fun _ => settles_statementFrom settling around
  · exact settles_statementFrom settling around

theorem moves_statement (around : Surroundings) : Moves bad (statement R around) :=
  (settles_statement settling around).moves fun _ c =>
    (consumes_statement (settling.leads c.ahead) (Nat.le_refl _) around).takes

theorem consuming_programStep : Consuming bad (programStep R) := by
  intro o c body
  unfold programStep
  simp only [ends_bind, ends_current, ends_ite, ends_pure]
  split_ifs
  · simp
  · exact (moves_statement settling _ o c).mono (fun _ _ taken _ _ => taken) fun _ real => real

/-- Reading a script settles. -/
theorem settles_program : Settles bad (program R) := by
  rw [program_eq]
  exact ((consuming_programStep settling).loop []).bind fun _ => settles_pure _

/-- Reading an expression that is all of a text settles. -/
theorem settles_wholeExpression : Settles bad (wholeExpression R) :=
  (settles_expression settling true false).bind fun _ => settles_current.bind fun _ =>
    settles_ite (settles_pure _) settles_unexpected

/-! ## Templates -/

theorem settles_commandExpression : Settles bad (commandExpression R) :=
  (settling.expression true false).settles.bind fun _ => (settles_expectMarker _).bind fun _ =>
    settles_pure _

theorem consuming_bodyStep (block : OpenBlock) : Consuming bad (bodyStep R block) := by
  intro o c chunks
  have more : Ends R.chunk o c
      (fun chunk behind => ∀ next, (.inl (chunks ++ [chunk]) : List Chunk ⊕ List Chunk) = .inl next →
        behind.ahead < c.ahead) bad :=
    (settling.chunk o c).mono (fun _ _ taken _ _ => taken) fun _ real => real
  unfold bodyStep
  simp only [ends_bind, ends_current, ends_ite, ends_pure]
  split
  · exact Tolerant.refused _
  · split
    · simp
    · split
      · rw [ends_following]
        split
        · split
          · simp
          · exact more
        · exact Tolerant.refused _
      · exact more

theorem settles_blockBody (block : OpenBlock) :
    Settles bad (blockBody R block.name block.opening block.branches) := by
  rw [blockBody_eq]
  exact (consuming_bodyStep settling block).loop []

theorem same_branchBody {o : Options} {c : Cursor} (opening elseSpan : Span)
    (state : List ElseIf × Option (List Chunk)) :
    Same o c (branchBody R opening elseSpan state) (branchBody R opening elseSpan state) := by
  have body {c' : Cursor} :
      Same o c' (blockBody R "if" opening true) (blockBody R "if" opening true) :=
    same_blockBody (settling.leads (c'.ahead + 1)) (Nat.lt_succ_self _) _ opening true
  unfold branchBody
  simp only [same_atMarker]
  split_ifs
  · exact same_fails rfl
  · exact same_advance.bind fun _ _ _ => body.bind fun _ _ _ => same_pure _
  · exact same_fails rfl
  · exact (same_commandExpression (settling.leads (c.ahead + 1)) (Nat.lt_succ_self _)).bind
      fun _ _ _ => body.bind fun _ _ _ => same_pure _

/-- A branch consumes its marker. -/
theorem consuming_branchStep (opening : Span) : Consuming bad (branchStep R opening) := by
  have body (make : List Chunk → List ElseIf × Option (List Chunk)) :
      Settles bad (do
        let body ← blockBody R "if" opening true
        return .inl (make body) :
          Parser ((List ElseIf × Option (List Chunk)) ⊕ (List ElseIf × Option (List Chunk)))) :=
    (settles_blockBody settling (.cond opening true)).bind fun _ => settles_pure _
  have branch (elseSpan : Span) (state : List ElseIf × Option (List Chunk)) :
      Settles bad (branchBody R opening elseSpan state) := by
    unfold branchBody
    refine (settles_atMarker _).bind fun _ => ?_
    split_ifs
    · exact (settles_refuse _).bind fun _ => settles_advance.bind fun _ => body _
    · exact settles_advance.bind fun _ => body _
    · exact (settles_refuse _).bind fun _ => (settles_commandExpression settling).bind fun _ => body _
    · exact (settles_commandExpression settling).bind fun _ => body _
  refine consuming_of (fun state => ?_) fun o c state => ?_
  · unfold branchStep
    refine (settles_atMarker _).bind fun _ => ?_
    split_ifs
    · exact settles_pure _
    · exact settles_advance.bind fun _ => settles_current.bind fun _ => settles_advance.bind fun _ =>
        branch _ state
  · unfold branchStep
    rw [Gives, ends_bind, ends_atMarker]
    split_ifs with others
    · rintro next ⟨⟩
    · have going : c.token.isEof = false := going_of_marker (by simpa using others)
      refine ((takes_advance going).followed fun _ _ _ _ => same_current.2 ?_).goesOn
      exact same_advance.bind fun _ _ _ => same_branchBody settling opening _ state

theorem settles_elseBranches (opening : Span) : Settles bad (elseBranches R opening) := by
  rw [elseBranches_eq]
  exact (consuming_branchStep settling opening).loop _

theorem settles_eachHead : Settles bad (eachHead R) := by
  unfold eachHead
  refine settles_current.bind fun _ => (settles_atPunctuation '(').bind fun _ => ?_
  split_ifs
  · refine settles_advance.bind fun _ => (settles_expressionList settling _ _ _).bind fun items =>
      (settles_atMarker _).bind fun _ => ?_
    split_ifs
    · split
      · exact settles_pure _
      · exact settles_current.bind fun _ => settles_refuse _
    · exact (settles_bindingNames _ items).bind fun _ =>
        (settling.expression true false).settles.bind fun _ => settles_pure _
  · exact (settling.expression true false).settles.bind fun _ => settles_pure _

theorem settles_eachBlock (opening : Span) : Settles bad (eachBlock R opening) :=
  (settles_eachHead settling).bind fun _ => (settles_expectMarker _).bind fun _ =>
    (settles_blockBody settling (.each opening)).bind fun _ => (settles_closeBlock _ _).bind fun _ =>
      settles_spanned

theorem settles_ifBlock (opening : Span) : Settles bad (ifBlock R opening) :=
  (settles_commandExpression settling).bind fun _ =>
    (settles_blockBody settling (.cond opening true)).bind fun _ =>
      (settles_elseBranches settling opening).bind fun _ => (settles_closeBlock _ _).bind fun _ =>
        settles_spanned

theorem settles_inclusion (opening : Span) : Settles bad (inclusion R opening) := by
  have behind (args : Option (List Expr)) :
      Settles bad (do
        let name ← commandExpression R
        return .include (← spanFrom opening.start) args name : Parser Chunk) :=
    (settles_commandExpression settling).bind fun _ => settles_spanned
  unfold inclusion
  refine (settles_atPunctuation '(').bind fun _ => ?_
  split_ifs
  · exact settles_advance.bind fun _ => (settles_expressionList settling _ _ _).bind fun _ =>
      (settles_pure _).bind fun _ => behind _
  · exact (settles_pure _).bind fun _ => behind _

theorem settles_command (opening : Span) : Settles bad (command R opening) := by
  have single (make : Option Span → Expr → Chunk) :
      Settles bad (do
        advance
        let value ← commandExpression R
        return make (← spanFrom opening.start) value) :=
    settles_advance.bind fun _ => (settles_commandExpression settling).bind fun _ => settles_spanned
  unfold command
  refine settles_currentKind.bind fun kind => ?_
  split
  · exact settles_advance.bind fun _ => settles_eachBlock settling opening
  · exact settles_advance.bind fun _ => settles_inclusion settling opening
  · exact single _
  · exact single _
  · exact settles_advance.bind fun _ => settles_ifBlock settling opening
  · exact settles_advance.bind fun _ => (settles_definitions settling false).bind fun _ =>
      (settles_expectMarker _).bind fun _ => settles_spanned
  · exact settles_unexpected

theorem settles_chunk : Settles bad (chunk R) := by
  unfold chunk
  refine settles_current.bind fun token => ?_
  dsimp only
  split
  · exact settles_advance.bind fun _ => settles_spanned
  · exact settles_advance.bind fun _ => (settling.expression true false).settles.bind fun _ =>
      (settles_expectMarker _).bind fun _ => settles_spanned
  · exact settles_advance.bind fun _ => settles_command settling _
  · exact settles_unexpected

theorem moves_chunk : Moves bad (chunk R) :=
  (settles_chunk settling).moves fun _ c =>
    (consumes_chunk (settling.leads c.ahead) (Nat.le_refl _)).takes

theorem consuming_templateStep : Consuming bad (templateStep R) := by
  intro o c chunks
  unfold templateStep
  simp only [ends_bind, ends_current, ends_ite, ends_pure]
  split_ifs
  · simp
  · exact (moves_chunk settling o c).mono (fun _ _ taken _ _ => taken) fun _ real => real

/-- Reading a template settles. -/
theorem settles_template : Settles bad (template R) := by
  rw [template_eq]
  exact ((consuming_templateStep settling).loop []).bind fun _ => settles_pure _

/-! ## All depths -/

/-- Unfolded once more, the rules settle. -/
theorem settling_unfold : R.unfold.Settling bad where
  leads
    | 0 => agree_none
    | k + 1 => agree_unfold (settling.leads k)
  expression := moves_expression settling
  assignment := settles_assignment settling
  operators := settles_operators settling
  unary := settles_unary settling
  primary := settles_primary settling
  statement := moves_statement settling
  chunk := moves_chunk settling

end Rules

end Stencil.Grammar
