import Stencil.Proofs.Parsing.Blocks
import Stencil.Proofs.Parsing.Scripts
import Stencil.Proofs.Parsing.Spanless
import Stencil.Proofs.Parsing.SpanTrees
/-!
# Where errors are reported

An error is reported at a place of the text that was refused (`Refused.placed`). A rule that is run
in the text ends further on in the text, or blames a place of it (`Blames`). Most failures are
reported at the current token, and those of the lexer where it stands; the few that are reported
elsewhere are reported at a token that was current before, or at an expression that was read.

The rules of the grammar are followed one by one, given those that are entered again from within
(`Rules.Blaming`).
-/

set_option autoImplicit false
set_option linter.unusedSectionVars false

namespace Stencil

/-- An expression without spans has none of its own. -/
theorem Syntax.Expr.span_eraseSpans (e : Syntax.Expr) : e.eraseSpans.span = none := by
  cases e <;> rfl

namespace Grammar

open Stencil.Error (Fault ParseError)
open Stencil.Syntax
open Stencil.Text (Position Span normalize)
open Stencil.Grammar.Parser

variable {α β σ : Type} {o : Options} {text : List Char} {c : Cursor}

/-- The cursor stands in the text, with all that its lexer keeps. -/
structure Cursor.Stands (text : List Char) (c : Cursor) : Prop extends c.InText text where
  placed : Lexer.Placed text c.lexer

/-- The place at which a failure is reported lies in the text. -/
def Failure.PlacedIn (text : List Char) (failure : Failure) : Prop :=
  failure.toError.span.LiesIn text

/-- The cursor stands in the text, and no less is consumed than before another one. -/
structure Cursor.Later (text : List Char) (c behind : Cursor) : Prop where
  stands : behind.Stands text
  stop : c.stop.byte ≤ behind.stop.byte

/-- Run in the text, the rule ends further on in the text, or reports its failure at a place of
it. -/
def Blames (o : Options) (text : List Char) (p : Parser α) : Prop :=
  ∀ c, c.Stands text → Ends p o c (fun _ behind => c.Later text behind) (Failure.PlacedIn text)

theorem Cursor.Stands.here (stands : c.Stands text) : c.Later text c := ⟨stands, Nat.le_refl _⟩

theorem Cursor.Later.trans {middle behind : Cursor} (first : c.Later text middle)
    (second : middle.Later text behind) : c.Later text behind :=
  ⟨second.stands, first.stop.trans second.stop⟩

/-! ## Trees without spans -/

/-- A run without spans gives what was erased. -/
theorem Erases.gives {strict : Bool} {erase : α → β} {p : Parser α} {q : Parser β}
    (erases : Erases strict c erase p q) :
    Gives (withoutSpans strict) c q fun result _ => ∃ spanned, result = erase spanned := by
  unfold Erases at erases
  unfold Gives Ends
  cases first : p (withSpans strict) c with
  | error failure =>
    cases second : q (withoutSpans strict) c with
    | error failure' => trivial
    | ok outcome =>
      rw [first, second] at erases
      exact erases.elim
  | ok outcome =>
    cases second : q (withoutSpans strict) c with
    | error failure => trivial
    | ok outcome' =>
      rw [first, second] at erases
      exact ⟨outcome.1, erases.1⟩

/-! ## Laws -/

theorem Blames.bind {p : Parser α} {f : α → Parser β} (first : Blames o text p)
    (second : ∀ a, Blames o text (f a)) : Blames o text (p >>= f) := by
  intro c stands
  rw [ends_bind]
  refine (first c stands).mono (fun a middle later => ?_) fun _ placed => placed
  exact (second a middle later.stands).mono (fun _ _ further => later.trans further)
    fun _ placed => placed

theorem blames_pure (a : α) : Blames o text (pure a : Parser α) := fun _ stands => stands.here

theorem blames_ite {p q : Parser α} {condition : Prop} [Decidable condition] (yes : Blames o text p)
    (no : Blames o text q) : Blames o text (if condition then p else q) := by
  split
  · exact yes
  · exact no

/-- Refusing a text at a place of it. -/
theorem blames_refuse {error : ParseError} (lies : error.span.LiesIn text) :
    Blames o text (refuse error : Parser α) := fun _ _ => lies

/-- The bound on a recursion being too small is reported at the start of the text. -/
theorem blames_exhausted : Blames o text (throw .exhausted : Parser α) :=
  fun _ _ => ⟨[], [], text, rfl, rfl⟩

/-- Behind a look at the current token, which lies in the text. -/
theorem blames_current {f : Token → Parser α}
    (next : ∀ token : Token, token.span.LiesIn text → Blames o text (f token)) :
    Blames o text (current >>= f) := fun c stands => next c.token stands.span c stands

theorem blames_currentKind : Blames o text currentKind := fun _ stands => stands.here

theorem blames_startOfToken : Blames o text startOfToken := fun _ stands => stands.here

theorem blames_read : Blames o text (read : Parser Options) := fun _ stands => stands.here

theorem blames_atPunctuation (char : Char) : Blames o text (atPunctuation char) :=
  fun _ stands => stands.here

theorem blames_atOperator (spelling : String) : Blames o text (atOperator spelling) :=
  fun _ stands => stands.here

theorem blames_atKeyword (keyword : Keyword) : Blames o text (atKeyword keyword) :=
  fun _ stands => stands.here

theorem blames_atMarker (marker : Marker) : Blames o text (atMarker marker) :=
  fun _ stands => stands.here

theorem blames_mayOmitSemicolon : Blames o text mayOmitSemicolon := fun _ stands => stands.here

theorem blames_spanFrom (start : Position) : Blames o text (spanFrom start) :=
  fun _ stands => (ends_spanFrom start).2 stands.here

theorem blames_faultHere (fault : Fault) : Blames o text (faultHere fault : Parser α) :=
  blames_current fun _ lies => blames_refuse lies

theorem blames_unexpected : Blames o text (unexpected : Parser α) :=
  blames_current fun _ _ => blames_faultHere _

theorem blames_expected (wanted : String) : Blames o text (expected wanted : Parser α) :=
  blames_currentKind.bind fun _ => blames_faultHere _

/-- A token that is consumed stands in the text, and so does the next one or the error in its
place. -/
theorem blames_advance : Blames o text advance := by
  intro c stands
  have reports := stands.placed.next
  rw [ends_advance]
  split
  · next token lexer read =>
    rw [read] at reports
    obtain ⟨holds, le⟩ := stands.token.next read
    exact ⟨⟨⟨stands.span.stop, holds, le⟩, reports.behind⟩,
      stands.behind.trans stands.span.ordered⟩
  · next error lexer read =>
    rw [read] at reports
    exact reports.spans _ (List.mem_cons_self ..)

/-- Looking one token ahead. -/
theorem blames_following : Blames o text following := by
  intro c stands
  have reports := stands.placed.next
  rw [ends_following]
  split
  · exact stands.here
  · next error lexer read =>
    rw [read] at reports
    exact reports.spans _ (List.mem_cons_self ..)

/-- Reading a slash again, at a token that is not the end of the text. -/
theorem Cursor.Stands.rereadRegexp (stands : c.Stands text) (going : c.token.isEof = false) :
    Ends rereadRegexp o c (fun _ behind => c.Later text behind) (Failure.PlacedIn text) := by
  unfold Parser.rereadRegexp
  rw [ends_bind, ends_get]
  dsimp only
  split
  · next token lexer read =>
    have reports := stands.placed.rereadRegexp (if c.token.isOperator "/=" then "=" else "")
    rw [read] at reports
    obtain ⟨holds, start⟩ := stands.token.rereadRegexp going read
    refine ⟨⟨⟨stands.stop, ⟨holds.stands, holds.inHand⟩, ?_⟩, reports.behind⟩, Nat.le_refl _⟩
    rw [show _ = c.token.span.start from start]
    exact stands.behind
  · next error lexer read =>
    have reports := stands.placed.rereadRegexp (if c.token.isOperator "/=" then "=" else "")
    rw [read] at reports
    exact reports.spans _ (List.mem_cons_self ..)

/-- A loop of which each step blames places of the text: by induction on its bound. -/
theorem blames_loop {step : σ → Parser (σ ⊕ α)} (steps : ∀ state, Blames o text (step state))
    (state : σ) : Blames o text (loop step state) := by
  have within : ∀ n state, Blames o text (loopWithin step n state) := by
    intro n
    induction n with
    | zero => exact fun _ => blames_exhausted
    | succ n ih =>
      intro state
      refine (steps state).bind fun outcome => ?_
      cases outcome with
      | inl next => exact ih next
      | inr result => exact blames_pure result
  exact fun c stands => within _ state c stands

/-- Behind a check that may fail. -/
theorem blames_check {condition : Prop} [Decidable condition] {p : Parser Unit}
    {f : Unit → Parser α} (fails : Blames o text p) (more : ∀ u, Blames o text (f u)) :
    Blames o text (if condition then p >>= f else f ()) := blames_ite (fails.bind more) (more ())

/-! ## Rules that build no tree -/

/-- Giving a tree its span. -/
theorem blames_spanned {start : Position} {make : Option Span → α} :
    Blames o text (do return make (← spanFrom start)) :=
  (blames_spanFrom start).bind fun _ => blames_pure _

/-- Consuming a token for a result. -/
theorem blames_advance_pure {a : α} : Blames o text (do advance; return a) :=
  blames_advance.bind fun _ => blames_pure a

theorem blames_expectPunctuation (char : Char) : Blames o text (expectPunctuation char) :=
  blames_current fun _ _ => blames_ite blames_advance (blames_expected _)

theorem blames_expectMarker (marker : Marker) : Blames o text (expectMarker marker) :=
  blames_current fun _ _ => blames_ite blames_advance (blames_expected _)

/-- The loop over the items of a list. -/
theorem blames_listLoop {item : List α → Parser (List α ⊕ List α)}
    (items : ∀ before, Blames o text (item before)) (closing : Char) (before : List α) :
    Blames o text (loop (listStep closing item) before) := by
  refine blames_loop (fun before => (blames_atPunctuation closing).bind fun _ => ?_) before
  exact blames_ite (blames_pure _) <|
    blames_check (blames_expectPunctuation ',') fun _ => items before

theorem blames_semicolon : Blames o text semicolon :=
  (blames_atPunctuation ';').bind fun _ => blames_ite blames_advance
    (blames_mayOmitSemicolon.bind fun _ => blames_ite (blames_pure ()) blames_unexpected)

theorem blames_plainName : Blames o text plainName := by
  refine blames_currentKind.bind fun kind => ?_
  split
  · exact blames_advance_pure
  · exact blames_unexpected

theorem blames_anyName : Blames o text anyName := by
  refine blames_currentKind.bind fun kind => ?_
  split
  · exact blames_advance_pure
  · exact blames_advance_pure
  · exact blames_advance_pure
  · exact blames_ite blames_advance_pure blames_unexpected
  · exact blames_unexpected

theorem blames_propertyKey : Blames o text propertyKey := by
  refine blames_currentKind.bind fun kind => ?_
  split
  · exact blames_advance_pure
  · exact blames_advance_pure
  · exact blames_anyName

theorem blames_parameters : Blames o text parameters := by
  rw [parameters_eq]
  have item (names : List String) : Blames o text (parameterItem names) :=
    blames_plainName.bind fun _ => blames_pure _
  exact (blames_listLoop item ')' []).bind fun _ => blames_advance_pure

theorem blames_jumpTarget (around : Surroundings) (keyword : Keyword) :
    Blames o text (jumpTarget around keyword) := by
  have ended (label : Option String) : Blames o text (do semicolon; return label) :=
    blames_semicolon.bind fun _ => blames_pure label
  unfold jumpTarget
  refine blames_mayOmitSemicolon.bind fun omitted => blames_currentKind.bind fun kind => ?_
  split
  · exact blames_advance.bind fun _ => blames_check (blames_faultHere _) fun _ => ended _
  · exact blames_check (blames_faultHere _) fun _ => ended _

/-- A closer of another block is reported at its name. -/
theorem blames_closeBlock (name : String) (opening : Span) :
    Blames o text (closeBlock name opening) := by
  exact (blames_expectMarker _).bind fun _ => blames_current fun _ lies =>
    blames_check (blames_refuse lies) fun _ => blames_advance.bind fun _ => blames_expectMarker _

/-- What is no name is reported where it stands, or where the list does. -/
theorem blames_bindingNames {listSpan : Span} (lies : listSpan.LiesIn text) {items : List Expr}
    (each : ∀ item ∈ items, ∀ span ∈ item.span, span.LiesIn text) :
    Blames o text (bindingNames listSpan items) := by
  induction items with
  | nil => exact blames_pure _
  | cons item rest ih =>
    obtain ⟨here, later⟩ := List.forall_mem_cons.1 each
    have offender : (item.span.getD listSpan).LiesIn text := by
      cases own : item.span with
      | none => exact lies
      | some span => exact here span own
    cases item with
    | name => exact (ih later).bind fun _ => blames_pure _
    | _ => exact blames_refuse offender

theorem blames_checkUpdate (op : UnaryOp) (operand : Expr) :
    Blames o text (checkUpdate op operand) :=
  blames_read.bind fun _ => blames_ite (blames_faultHere _) (blames_pure ())

/-! ## Expressions -/

/-- The rules that are entered again from within others blame places of the text. Their trees, where
they have spans, have them in the text. -/
structure Rules.Blaming (o : Options) (text : List Char) (R : Rules) : Prop where
  placing : R.Placing o.strict text
  spanless : R.Spanless
  expression : ∀ commas noIn, Blames o text (R.expression commas noIn)
  assignment : ∀ noIn, Blames o text (R.assignment noIn)
  operators : ∀ left start bound noIn, Blames o text (R.operators left start bound noIn)
  unary : ∀ calls, Blames o text (R.unary calls)
  primary : ∀ calls, Blames o text (R.primary calls)
  statement : ∀ around, Blames o text (R.statement around)
  chunk : Blames o text R.chunk

section Rules

variable {R : Rules} (blaming : R.Blaming o text)

include blaming

theorem blames_expressionList (closing : Char) (trailing gaps : Bool) :
    Blames o text (expressionList R closing trailing gaps) := by
  have item (before : List Expr) : Blames o text (expressionItem R closing trailing gaps before) :=
    (blames_atPunctuation closing).bind fun _ => blames_ite (blames_pure _) <|
      (blames_atPunctuation ',').bind fun _ => blames_ite (blames_pure _) <|
        (blaming.expression false false).bind fun _ => blames_pure _
  rw [expressionList_eq]
  exact (blames_listLoop item closing []).bind fun _ => blames_advance_pure

/-- The spans of the expressions in a list lie in the text, if spans are wanted; else there are
none. -/
theorem gives_spansOfList (inText : c.InText text) (closing : Char) (trailing gaps : Bool) :
    Gives o c (expressionList R closing trailing gaps) fun items _ =>
      ∀ item ∈ items, ∀ span ∈ item.span, span.LiesIn text := by
  obtain ⟨positions, strict⟩ := o
  cases positions with
  | true =>
    refine (lays_expressionList blaming.placing inText closing trailing gaps).next
      fun items behind laid item listed span own => ?_
    obtain missing | ⟨span', settled⟩ := laid.nested.settled (List.mem_map_of_mem listed)
    · obtain rfl := Part.expr.inj missing
      cases own
    · obtain rfl := Option.some.inj (settled.own.symm.trans own)
      exact settled.lies
  | false =>
    refine (erases_expressionList blaming.spanless closing trailing gaps).gives.next
      fun items _ erased item listed span own => ?_
    obtain ⟨spanned, rfl⟩ := erased
    obtain ⟨original, -, rfl⟩ := List.mem_map.1 listed
    rw [original.span_eraseSpans] at own
    cases own

theorem blames_block (around : Surroundings) : Blames o text (block R around) := by
  have step (body : List Stmt) : Blames o text (blockStep R around body) :=
    (blames_atPunctuation _).bind fun _ => blames_ite (blames_pure _) <| blames_current fun _ _ =>
      blames_check blames_unexpected fun _ => (blaming.statement around).bind fun _ => blames_pure _
  rw [block_eq]
  exact (blames_expectPunctuation _).bind fun _ => (blames_loop step []).bind fun _ =>
    blames_advance_pure

theorem blames_function (declaration : Bool) : Blames o text (function R declaration) := by
  have behind (name : Option String) :
      Blames o text (do
        expectPunctuation '('
        let names ← parameters
        return .mk name names (← block R .ofFunction) : Parser Function) :=
    (blames_expectPunctuation '(').bind fun _ => blames_parameters.bind fun _ =>
      (blames_block blaming _).bind fun _ => blames_pure _
  unfold function
  refine blames_currentKind.bind fun kind => ?_
  split
  · exact blames_advance.bind fun _ => behind _
  · exact blames_ite (blames_unexpected.bind fun _ => behind _) (behind none)

theorem blames_property : Blames o text (property R) := by
  have accessor (make : String → Function → Property) :
      Blames o text (do let key ← anyName; return make key (← function R false)) :=
    blames_anyName.bind fun _ => (blames_function blaming false).bind fun _ => blames_pure _
  unfold property
  refine blames_currentKind.bind fun kind => blames_propertyKey.bind fun key =>
    (blames_atPunctuation ':').bind fun colon => ?_
  split
  · exact accessor _
  · exact accessor _
  · exact (blames_expectPunctuation ':').bind fun _ =>
      (blaming.expression false false).bind fun _ => blames_pure _

theorem blames_objectBody : Blames o text (objectBody R) := by
  have item (strict : Bool) (properties : List Property) :
      Blames o text (propertyItem R strict properties) :=
    (blames_atPunctuation '\x7d').bind fun _ => blames_ite (blames_pure _) <|
      (blames_property blaming).bind fun _ => blames_pure _
  rw [objectBody_eq]
  exact blames_read.bind fun _ => (blames_listLoop (item _) '\x7d' []).bind fun _ =>
    blames_advance_pure

theorem blames_subscripts (operand : Expr) (start : Position) (calls : Bool) :
    Blames o text (subscripts R operand start calls) := by
  have step (operand : Expr) : Blames o text (subscriptStep R start calls operand) := by
    refine (blames_atPunctuation '.').bind fun _ => blames_ite ?_ <|
      (blames_atPunctuation '[').bind fun _ => blames_ite ?_ <|
        (blames_atPunctuation '(').bind fun _ => blames_ite ?_ (blames_pure _)
    · exact blames_advance.bind fun _ => blames_anyName.bind fun _ => blames_spanned
    · exact blames_advance.bind fun _ => (blaming.expression true false).bind fun _ =>
        (blames_expectPunctuation _).bind fun _ => blames_spanned
    · exact blames_advance.bind fun _ => (blames_expressionList blaming _ _ _).bind fun _ =>
        blames_spanned
  rw [subscripts_eq]
  exact blames_loop step operand

theorem blames_newExpression (start : Position) : Blames o text (newExpression R start) := by
  have behind (callee : Expr) (args : List Expr) :
      Blames o text (do subscripts R (.new (← spanFrom start) callee args) start true) :=
    (blames_spanFrom start).bind fun _ => blames_subscripts blaming _ _ _
  exact (blaming.primary false).bind fun callee => (blames_atPunctuation '(').bind fun _ =>
    blames_ite
      (blames_advance.bind fun _ => (blames_expressionList blaming _ _ _).bind fun _ => behind _ _)
      (behind _ _)

theorem blames_atom (start : Position) : Blames o text (atom R start) := by
  have leaf (make : Option Span → Expr) :
      Blames o text (do advance; return make (← spanFrom start)) :=
    blames_advance.bind fun _ => blames_spanned
  unfold atom
  refine blames_currentKind.bind fun kind => ?_
  split
  · exact blames_advance.bind fun _ => blames_read.bind fun _ =>
      (blames_expressionList blaming _ _ _).bind fun _ => blames_spanned
  · exact blames_advance.bind fun _ => (blames_objectBody blaming).bind fun _ => blames_spanned
  · exact blames_advance.bind fun _ => (blames_function blaming false).bind fun _ => blames_spanned
  · exact leaf _
  · exact leaf _
  · exact leaf _
  · exact leaf _
  · exact leaf _
  · exact blames_unexpected

theorem blames_primary (calls : Bool) : Blames o text (primary R calls) := by
  refine blames_startOfToken.bind fun start => (blames_atOperator "new").bind fun _ =>
    blames_ite ?_ ((blames_atPunctuation '(').bind fun _ => blames_ite ?_ ?_)
  · exact blames_advance.bind fun _ => blames_newExpression blaming start
  · exact blames_advance.bind fun _ => (blaming.expression true false).bind fun inner =>
      (blames_expectPunctuation ')').bind fun _ => blames_subscripts blaming inner start calls
  · exact (blames_atom blaming start).bind fun operand =>
      blames_subscripts blaming operand start calls

theorem blames_unary (calls : Bool) : Blames o text (unary R calls) := by
  have step (start : Position) (operand : Expr) : Blames o text (postfixStep start operand) := by
    refine blames_current fun token _ => ?_
    split
    · exact blames_advance.bind fun _ => (blames_checkUpdate _ operand).bind fun _ => blames_spanned
    · exact blames_pure _
  rw [unary_eq]
  refine blames_startOfToken.bind fun start => blames_currentKind.bind fun kind => ?_
  split
  · exact blames_advance.bind fun _ => (blaming.unary calls).bind fun operand =>
      (blames_checkUpdate _ operand).bind fun _ => blames_spanned
  · exact (blames_primary blaming calls).bind fun operand => blames_loop (step start) operand

theorem blames_operators (left : Expr) (start : Position) (bound : Nat) (noIn : Bool) :
    Blames o text (operators R left start bound noIn) := by
  refine blames_currentKind.bind fun kind => ?_
  split
  · exact blames_pure _
  · exact blames_ite (blames_pure _) <| blames_advance.bind fun _ =>
      blames_startOfToken.bind fun _ => (blames_unary blaming true).bind fun _ =>
        (blaming.operators _ _ _ _).bind fun _ => (blames_spanFrom _).bind fun _ =>
          blaming.operators _ _ _ _

theorem blames_conditional (noIn : Bool) : Blames o text (conditional R noIn) := by
  refine blames_startOfToken.bind fun start => (blames_unary blaming true).bind fun _ =>
    (blames_operators blaming _ _ _ _).bind fun _ => (blames_atOperator "?").bind fun _ =>
      blames_ite ?_ (blames_pure _)
  exact blames_advance.bind fun _ => (blaming.expression false false).bind fun _ =>
    (blames_expectPunctuation ':').bind fun _ => (blaming.expression false noIn).bind fun _ =>
      blames_spanned

/-- What cannot be assigned to is reported at the operator behind it. -/
theorem blames_assignment (noIn : Bool) : Blames o text (assignment R noIn) := by
  refine blames_startOfToken.bind fun start => (blames_conditional blaming noIn).bind fun _ =>
    blames_currentKind.bind fun kind => ?_
  split
  · exact blames_pure _
  · exact blames_read.bind fun _ => blames_check (blames_faultHere _) fun _ =>
      blames_advance.bind fun _ => (blaming.assignment noIn).bind fun _ => blames_spanned

theorem blames_expression (commas noIn : Bool) : Blames o text (expression R commas noIn) := by
  refine blames_startOfToken.bind fun start => (blames_assignment blaming noIn).bind fun _ =>
    (blames_atPunctuation ',').bind fun _ => blames_ite ?_ (blames_pure _)
  exact blames_advance.bind fun _ => (blaming.expression true noIn).bind fun _ => blames_spanned

theorem blames_definitions (noIn : Bool) : Blames o text (definitions R noIn) := by
  have value : Blames o text (definitionValue R noIn) :=
    (blames_atOperator "=").bind fun _ => blames_ite
      (blames_advance.bind fun _ => (blaming.expression false noIn).bind fun _ => blames_pure _)
      (blames_pure _)
  have step (defs : List VarDef) : Blames o text (definitionStep R noIn defs) :=
    blames_plainName.bind fun _ => value.bind fun _ => (blames_atPunctuation ',').bind fun _ =>
      blames_ite blames_advance_pure (blames_pure _)
  rw [definitions_eq]
  exact blames_loop step []

theorem blames_parenthesised : Blames o text (parenthesised R) :=
  (blames_expectPunctuation '(').bind fun _ => (blaming.expression true false).bind fun _ =>
    (blames_expectPunctuation ')').bind fun _ => blames_pure _

/-! ## Statements -/

theorem blames_expressionStatement (start : Position) :
    Blames o text (expressionStatement R start) :=
  (blames_expression blaming true false).bind fun _ => blames_semicolon.bind fun _ => blames_spanned

theorem blames_labelledStatement (around : Surroundings) (start : Position) (label : String) :
    Blames o text (labelledStatement R around start label) := by
  unfold labelledStatement
  exact blames_check (blames_faultHere _) fun _ => (blaming.statement _).bind fun _ =>
    blames_spanned

theorem blames_doStatement (around : Surroundings) (start : Position) :
    Blames o text (doStatement R around start) :=
  (blaming.statement _).bind fun _ => (blames_atKeyword _).bind fun _ =>
    blames_check (blames_expected _) fun _ => blames_advance.bind fun _ =>
      (blames_parenthesised blaming).bind fun _ => blames_semicolon.bind fun _ => blames_spanned

theorem blames_optionalBefore (closing : Char) : Blames o text (optionalBefore R closing) :=
  (blames_atPunctuation closing).bind fun _ => blames_ite (blames_pure _)
    ((blaming.expression true false).bind fun _ => blames_pure _)

theorem blames_conditionalFor (around : Surroundings) (start : Position) (head : Option ForHead) :
    Blames o text (conditionalFor R around start head) :=
  (blames_expectPunctuation ';').bind fun _ => (blames_optionalBefore blaming ';').bind fun _ =>
    (blames_expectPunctuation ';').bind fun _ => (blames_optionalBefore blaming ')').bind fun _ =>
      (blames_expectPunctuation ')').bind fun _ => (blaming.statement _).bind fun _ =>
        blames_spanned

theorem blames_iteratingFor (around : Surroundings) (start : Position) (head : ForHead) :
    Blames o text (iteratingFor R around start head) := by
  have behind :
      Blames o text (do
        advance
        let object ← R.expression true false
        expectPunctuation ')'
        let body ← R.statement around.looping
        return .forIn (← spanFrom start) head object body : Parser Stmt) :=
    blames_advance.bind fun _ => (blaming.expression true false).bind fun _ =>
      (blames_expectPunctuation ')').bind fun _ => (blaming.statement _).bind fun _ =>
        blames_spanned
  unfold iteratingFor
  dsimp only
  split
  · exact (blames_faultHere _).bind fun _ => behind
  · exact behind

theorem blames_forStatement (around : Surroundings) (start : Position) :
    Blames o text (forStatement R around start) := by
  have head : Blames o text (forHead R) :=
    (blames_atKeyword .var).bind fun _ => blames_ite
      (blames_advance.bind fun _ => (blames_definitions blaming true).bind fun _ => blames_pure _)
      ((blaming.expression true true).bind fun _ => blames_pure _)
  rw [forStatement_eq]
  refine (blames_expectPunctuation '(').bind fun _ => (blames_atPunctuation ';').bind fun _ =>
    blames_ite (blames_conditionalFor blaming around start none) <| head.bind fun head =>
      (blames_atOperator "in").bind fun _ => blames_ite ?_ ?_
  · exact blames_iteratingFor blaming around start head
  · exact blames_conditionalFor blaming around start (some head)

theorem blames_ifStatement (around : Surroundings) (start : Position) :
    Blames o text (ifStatement R around start) :=
  (blames_parenthesised blaming).bind fun _ => (blaming.statement _).bind fun _ =>
    (blames_atKeyword .else).bind fun _ => blames_ite
      (blames_advance.bind fun _ => (blaming.statement _).bind fun _ =>
        (blames_pure _).bind fun _ => blames_spanned)
      ((blames_pure _).bind fun _ => blames_spanned)

theorem blames_returnStatement (around : Surroundings) (start : Position) :
    Blames o text (returnStatement R around start) := by
  unfold returnStatement
  refine blames_check (blames_faultHere _) fun _ => (blames_atPunctuation ';').bind fun _ =>
    blames_mayOmitSemicolon.bind fun _ => blames_ite ?_ (blames_ite ?_ ?_)
  · exact blames_advance.bind fun _ => (blames_pure _).bind fun _ => blames_spanned
  · exact (blames_pure _).bind fun _ => blames_spanned
  · exact (blaming.expression true false).bind fun _ => blames_semicolon.bind fun _ =>
      (blames_pure _).bind fun _ => blames_spanned

theorem blames_switchStatement (around : Surroundings) (start : Position) :
    Blames o text (switchStatement R around start) := by
  have step (cases : List SwitchCase) : Blames o text (switchStep R around cases) := by
    refine (blames_atPunctuation _).bind fun _ => blames_ite (blames_pure _) <|
      (blames_atKeyword _).bind fun _ => blames_ite ?_ <|
        (blames_atKeyword _).bind fun _ => blames_ite ?_ ?_
    · exact blames_advance.bind fun _ => (blaming.expression true false).bind fun _ =>
        (blames_expectPunctuation ':').bind fun _ => blames_pure _
    · exact blames_advance.bind fun _ => (blames_expectPunctuation ':').bind fun _ => blames_pure _
    · exact blames_check blames_unexpected fun _ => (blaming.statement _).bind fun _ =>
        blames_pure _
  rw [switchStatement_eq]
  exact (blames_parenthesised blaming).bind fun _ => (blames_expectPunctuation _).bind fun _ =>
    (blames_loop step []).bind fun _ => blames_advance.bind fun _ => blames_spanned

theorem blames_tryStatement (around : Surroundings) (start : Position) :
    Blames o text (tryStatement R around start) := by
  have behind (body : List Stmt) (handler : Option Handler) :
      Blames o text (do
        let finalizer ←
          if ← atKeyword .finally then do
            advance
            pure (some (← block R around))
          else pure none
        if handler.isNone && finalizer.isNone then faultHere .bareTry
        return .tryCatch (← spanFrom start) body handler finalizer : Parser Stmt) := by
    refine (blames_atKeyword _).bind fun _ => blames_ite ?_ ?_
    · exact blames_advance.bind fun _ => (blames_block blaming _).bind fun _ =>
        (blames_pure _).bind fun _ => blames_check (blames_faultHere _) fun _ => blames_spanned
    · exact (blames_pure _).bind fun _ => blames_check (blames_faultHere _) fun _ => blames_spanned
  refine (blames_block blaming _).bind fun body => (blames_atKeyword _).bind fun _ =>
    blames_ite ?_ ((blames_pure _).bind fun _ => behind _ _)
  exact blames_advance.bind fun _ => (blames_expectPunctuation '(').bind fun _ =>
    blames_plainName.bind fun _ => (blames_expectPunctuation ')').bind fun _ =>
      (blames_block blaming _).bind fun _ => (blames_pure _).bind fun _ => behind _ _

theorem blames_throwStatement (start : Position) : Blames o text (throwStatement R start) :=
  blames_current fun _ _ => blames_check (blames_faultHere _) fun _ =>
    (blaming.expression true false).bind fun _ => blames_semicolon.bind fun _ => blames_spanned

theorem blames_keywordStatement (around : Surroundings) (start : Position) (keyword : Keyword) :
    Blames o text (keywordStatement R around start keyword) := by
  cases keyword with
  | «break» => exact (blames_jumpTarget around .break).bind fun _ => blames_spanned
  | «continue» => exact (blames_jumpTarget around .continue).bind fun _ => blames_spanned
  | debugger => exact blames_semicolon.bind fun _ => blames_spanned
  | «do» => exact blames_doStatement blaming around start
  | «for» => exact blames_forStatement blaming around start
  | function => exact (blames_function blaming true).bind fun _ => blames_spanned
  | «if» => exact blames_ifStatement blaming around start
  | «return» => exact blames_returnStatement blaming around start
  | switch => exact blames_switchStatement blaming around start
  | throw => exact blames_throwStatement blaming start
  | «try» => exact blames_tryStatement blaming around start
  | var | const =>
    exact (blames_definitions blaming false).bind fun _ => blames_semicolon.bind fun _ =>
      blames_spanned
  | «while» | «with» =>
    exact (blames_parenthesised blaming).bind fun _ => (blaming.statement _).bind fun _ =>
      blames_spanned
  | case | «catch» | default | «else» | «finally» => exact blames_unexpected

theorem blames_statementFrom (around : Surroundings) : Blames o text (statementFrom R around) := by
  unfold statementFrom
  refine blames_startOfToken.bind fun start => blames_currentKind.bind fun kind => ?_
  have value := blames_expressionStatement blaming start
  split
  · refine blames_following.bind fun _ => blames_ite ?_ value
    exact blames_advance.bind fun _ => blames_advance.bind fun _ =>
      blames_labelledStatement blaming around start _
  · exact value
  · exact value
  · exact value
  · exact value
  · exact value
  · exact value
  · exact value
  · exact (blames_block blaming around).bind fun _ => blames_spanned
  · exact blames_advance.bind fun _ => blames_spanned
  · exact blames_ite (blames_advance.bind fun _ => blames_keywordStatement blaming around start _)
      blames_unexpected
  · exact blames_unexpected

theorem blames_statement (around : Surroundings) : Blames o text (statement R around) := by
  intro c stands
  unfold statement
  rw [ends_bind, ends_atOperator, ends_bind, ends_atOperator]
  split_ifs with slash
  · have going : c.token.isEof = false := by
      rcases Bool.or_eq_true_iff.1 slash with divide | assign
      · exact going_of_operator divide
      · exact going_of_operator assign
    rw [ends_bind]
    refine (stands.rereadRegexp going).mono (fun _ middle later => ?_) fun _ placed => placed
    exact (blames_statementFrom blaming around middle later.stands).mono
      (fun _ _ further => later.trans further) fun _ placed => placed
  · exact blames_statementFrom blaming around c stands

/-! ## Templates -/

theorem blames_commandExpression : Blames o text (commandExpression R) :=
  (blaming.expression true false).bind fun _ => (blames_expectMarker _).bind fun _ => blames_pure _

/-- A block that is not closed is reported at the end of the text. -/
theorem blames_blockBody (block : OpenBlock) :
    Blames o text (blockBody R block.name block.opening block.branches) := by
  have more (chunks : List Chunk) :
      Blames o text (do return .inl (chunks ++ [← R.chunk]) : Parser (List Chunk ⊕ List Chunk)) :=
    blaming.chunk.bind fun _ => blames_pure _
  have step (chunks : List Chunk) : Blames o text (bodyStep R block chunks) :=
    blames_current fun _ lies => blames_check (blames_refuse lies) fun _ =>
      blames_ite (blames_pure _) <| blames_ite
        (blames_following.bind fun _ => blames_ite (blames_pure _) (more chunks)) (more chunks)
  rw [blockBody_eq]
  exact blames_loop step []

/-- A branch that has no place is reported at its keyword. -/
theorem blames_elseBranches (opening : Span) : Blames o text (elseBranches R opening) := by
  have body := blames_blockBody blaming (.cond opening true)
  have branch {elseSpan : Span} (lies : elseSpan.LiesIn text)
      (state : List ElseIf × Option (List Chunk)) :
      Blames o text (branchBody R opening elseSpan state) := by
    refine (blames_atMarker _).bind fun _ => blames_ite ?_ ?_
    · exact blames_check (blames_refuse lies) fun _ => blames_advance.bind fun _ =>
        body.bind fun _ => blames_pure _
    · exact blames_check (blames_refuse lies) fun _ =>
        (blames_commandExpression blaming).bind fun _ => body.bind fun _ => blames_pure _
  have step (state : List ElseIf × Option (List Chunk)) :
      Blames o text (branchStep R opening state) :=
    (blames_atMarker _).bind fun _ => blames_ite (blames_pure _) <| blames_advance.bind fun _ =>
      blames_current fun _ lies => blames_advance.bind fun _ => branch lies state
  rw [elseBranches_eq]
  exact blames_loop step _

/-- An iteration without a collection is reported from where its list begins. -/
theorem blames_eachHead : Blames o text (eachHead R) := by
  have collected (names : Option (List String)) :
      Blames o text (do return (names, ← R.expression true false)) :=
    (blaming.expression true false).bind fun _ => blames_pure _
  intro c stands
  simp only [eachHead, ends_bind, ends_current, ends_atPunctuation]
  split_ifs with paren
  · simp only [ends_bind, ends_atMarker]
    have list : c.token.span.LiesIn text := stands.span
    refine Ends.mono (Ends.and (blames_advance c stands)
      (fills_advance stands.toInText (going_of_punctuation paren))) (fun _ inside opened => ?_)
      fun _ placed => placed
    refine Ends.mono (Ends.and
      (blames_expressionList blaming ')' false false inside opened.1.stands)
      (gives_spansOfList blaming opened.1.stands.toInText ')' false false))
      (fun items behind listed => ?_) fun _ placed => placed
    have here := opened.1.trans listed.1
    split_ifs
    · split
      · exact here
      · -- the offending list goes from its parenthesis to the end of the command
        have start := opened.2.consumed
        have stop := listed.1.stop
        have next := listed.1.stands.behind
        have ordered := listed.1.stands.span.ordered
        exact list.start.liesIn listed.1.stands.span.stop (by omega)
    · refine Ends.mono ((blames_bindingNames list listed.2).bind (fun names => collected _) behind
        listed.1.stands) (fun _ _ further => here.trans further) fun _ placed => placed
  · exact collected none c stands

theorem blames_eachBlock (opening : Span) : Blames o text (eachBlock R opening) :=
  (blames_eachHead blaming).bind fun _ => (blames_expectMarker _).bind fun _ =>
    (blames_blockBody blaming (.each opening)).bind fun _ => (blames_closeBlock _ _).bind fun _ =>
      blames_spanned

theorem blames_ifBlock (opening : Span) : Blames o text (ifBlock R opening) :=
  (blames_commandExpression blaming).bind fun _ =>
    (blames_blockBody blaming (.cond opening true)).bind fun _ =>
      (blames_elseBranches blaming opening).bind fun _ => (blames_closeBlock _ _).bind fun _ =>
        blames_spanned

theorem blames_inclusion (opening : Span) : Blames o text (inclusion R opening) := by
  have behind (args : Option (List Expr)) :
      Blames o text (do
        let name ← commandExpression R
        return .include (← spanFrom opening.start) args name : Parser Chunk) :=
    (blames_commandExpression blaming).bind fun _ => blames_spanned
  refine (blames_atPunctuation '(').bind fun _ =>
    blames_ite ?_ ((blames_pure _).bind fun _ => behind _)
  exact blames_advance.bind fun _ => (blames_expressionList blaming _ _ _).bind fun _ =>
    (blames_pure _).bind fun _ => behind _

theorem blames_command (opening : Span) : Blames o text (command R opening) := by
  have single (make : Option Span → Expr → Chunk) :
      Blames o text (do
        advance
        let value ← commandExpression R
        return make (← spanFrom opening.start) value) :=
    blames_advance.bind fun _ => (blames_commandExpression blaming).bind fun _ => blames_spanned
  unfold command
  refine blames_currentKind.bind fun kind => ?_
  split
  · exact blames_advance.bind fun _ => blames_eachBlock blaming opening
  · exact blames_advance.bind fun _ => blames_inclusion blaming opening
  · exact single _
  · exact single _
  · exact blames_advance.bind fun _ => blames_ifBlock blaming opening
  · exact blames_advance.bind fun _ => (blames_definitions blaming false).bind fun _ =>
      (blames_expectMarker _).bind fun _ => blames_spanned
  · exact blames_unexpected

theorem blames_chunk : Blames o text (chunk R) := by
  unfold chunk
  refine blames_current fun token _ => ?_
  dsimp only
  split
  · exact blames_advance.bind fun _ => blames_spanned
  · exact blames_advance.bind fun _ => (blaming.expression true false).bind fun _ =>
      (blames_expectMarker _).bind fun _ => blames_spanned
  · exact blames_advance.bind fun _ => blames_command blaming _
  · exact blames_unexpected

/-! ## Whole texts -/

theorem blames_program : Blames o text (program R) := by
  have step (body : List Stmt) : Blames o text (programStep R body) :=
    blames_current fun _ _ => blames_ite (blames_pure _) <|
      (blames_statement blaming _).bind fun _ => blames_pure _
  rw [program_eq]
  exact (blames_loop step []).bind fun _ => blames_pure _

theorem blames_template : Blames o text (template R) := by
  have step (chunks : List Chunk) : Blames o text (templateStep R chunks) :=
    blames_current fun _ _ => blames_ite (blames_pure _) <|
      (blames_chunk blaming).bind fun _ => blames_pure _
  rw [template_eq]
  exact (blames_loop step []).bind fun _ => blames_pure _

theorem blames_wholeExpression : Blames o text (wholeExpression R) :=
  (blames_expression blaming true false).bind fun _ => blames_current fun _ _ =>
    blames_ite (blames_pure _) blames_unexpected

/-- Unfolded once more, the rules blame places of the text. -/
theorem blaming_unfold : R.unfold.Blaming o text where
  placing := placing_unfold blaming.placing
  spanless := spanless_unfold blaming.spanless
  expression := blames_expression blaming
  assignment := blames_assignment blaming
  operators := blames_operators blaming
  unary := blames_unary blaming
  primary := blames_primary blaming
  statement := blames_statement blaming
  chunk := blames_chunk blaming

end Rules

/-- The rules of every depth blame places of the text: by induction on the depth. -/
theorem blaming_upTo (o : Options) (text : List Char) (depth : Nat) :
    (Rules.upTo depth).Blaming o text := by
  induction depth with
  | zero =>
    exact ⟨placing_upTo _ _ 0, spanless_upTo 0, fun _ _ => blames_exhausted,
      fun _ => blames_exhausted, fun _ _ _ _ => blames_exhausted, fun _ => blames_exhausted,
      fun _ => blames_exhausted, fun _ => blames_exhausted, blames_exhausted⟩
  | succ depth ih => exact blaming_unfold ih

/-- A source is begun at a cursor that stands in its text, or its first token is refused at a place of
the text. -/
theorem stands_or_placed_ofSource (template : Bool) (source : List Char) :
    match Cursor.ofSource template source with
    | .ok c => c.Stands (normalize source)
    | .error failure => failure.PlacedIn (normalize source) := by
  have reports := (Lexer.placed_ofText template (normalize source)).next
  split
  · next c begun =>
    refine ⟨inText_ofSource begun, ?_⟩
    unfold Cursor.ofSource Lexer.ofSource at begun
    split at begun
    · next token lexer read =>
      cases begun
      rw [read] at reports
      exact reports.behind
    · cases begun
  · next failure begun =>
    unfold Cursor.ofSource Lexer.ofSource at begun
    split at begun
    · cases begun
    · next error lexer read =>
      cases begun
      rw [read] at reports
      exact reports.spans _ (List.mem_cons_self ..)

/-- A rule that blames places of the text refuses a whole source at a place of its text. -/
theorem placed_run {template : Bool} {source : List Char} {rule : Rules → Parser α}
    (blames : ∀ R : Rules, R.Blaming o (normalize source) → Blames o (normalize source) (rule R))
    {e : ParseError} (refused : (run template o source rule).mapError (·.toError) = .error e) :
    e.span.LiesIn (normalize source) := by
  have begins := stands_or_placed_ofSource template source
  unfold run at refused
  cases begun : Cursor.ofSource template source with
  | error failure =>
    rw [begun] at begins refused
    obtain rfl : failure.toError = e := Except.error.inj refused
    exact begins
  | ok c =>
    rw [begun] at begins refused
    have ends := blames _ (blaming_upTo o (normalize source) (c.lexer.rest.length + 2)) c begins
    change (rule (Rules.upTo (c.lexer.rest.length + 2)) o c >>=
      fun read => .ok read.1).mapError _ = .error e at refused
    unfold Ends at ends
    cases ended : rule (Rules.upTo (c.lexer.rest.length + 2)) o c with
    | error failure =>
      rw [ended] at ends refused
      obtain rfl : failure.toError = e := Except.error.inj refused
      exact ends
    | ok outcome =>
      rw [ended] at refused
      cases refused

end Grammar

open Stencil.Error (ParseError)
open Stencil.Grammar

/-- The error is what one of the parsers says of the source. -/
inductive Refused (source : String) (e : ParseError) : Prop where
  | template {o : Options} (read : parseTemplate o source = .error e)
  | script {o : Options} (read : parseScript o source = .error e)
  | expression {o : Options} (read : parseExpression o source = .error e)

/-- Every error is reported at a place of the text that was read. -/
theorem Refused.placed {source : String} {e : ParseError} (refused : Refused source e) :
    e.span.LiesIn (Text.normalize source.toList) := by
  cases refused with
  | template read => exact placed_run (fun _ blaming => blames_template blaming) read
  | script read => exact placed_run (fun _ blaming => blames_program blaming) read
  | expression read => exact placed_run (fun _ blaming => blames_wholeExpression blaming) read

end Stencil
