import Stencil.Proofs.Parsing.Places
import Stencil.Proofs.Printing.Faithful
import Stencil.Syntax.Erase
import Stencil.Proofs.Syntax.Induction
/-!
# Reading operands

Literals, names, member accesses, calls and constructions are read back from their tokens, given that
the expressions inside them are.
-/

set_option autoImplicit false

namespace Stencil.Grammar

open Stencil.Lexing (Face)
open Stencil.Print
open Stencil.Syntax
open Stencil.Text (Position Span)

/-- What is to be shown of an expression: if it is faithful, it is read back. -/
def ExprReads (o : Options) (e : Expr) : Prop :=
  Everywhere Faithful e.parts → Readable o e

section

variable {o : Options} {bareIn : Bool} {e : Expr} {faces rest : List Face} {x y : Face} {c : Cursor}

/-! ## Literals and names -/

/-- An operand that is not in parentheses and no construction. -/
theorem reads_atom {opening : Face} {inner : List Face}
    (noNew : opening.kind ≠ .operator "new") (noParen : opening.kind ≠ .punctuation '(')
    (run : ∀ n start y rest c, (opening :: inner).length ≤ n →
      c.Shows (opening :: (inner ++ y :: rest)) →
      Ends (Parser.atom (.upTo n) start) o c (Read e (y :: rest)) Never) (calls : Bool) :
    ReadsMember o calls (opening :: inner) e := by
  intro n rest c good room some_ shows then_
  obtain ⟨y, rest, rfl⟩ := List.exists_cons_of_ne_nil some_
  have new_ : c.token.isOperator "new" = false := isOperator_of_ne (shows.kind ▸ noNew)
  have paren : c.token.isPunctuation '(' = false := isPunctuation_of_ne (shows.kind ▸ noParen)
  simp only [Parser.primary, ends_bind, ends_startOfToken, ends_atOperator, ends_atPunctuation,
    new_, paren, Bool.false_eq_true, if_false, subscripts_eq]
  refine (run n _ y rest c room shows).mono ?_ fun _ bad => bad
  intro result behind read
  exact loop_shown read.2 fun k enough => then_ k _ result behind enough read

/-- An operand of a single token. -/
theorem reads_single {x : Face} (noNew : x.kind ≠ .operator "new")
    (noParen : x.kind ≠ .punctuation '(')
    (run : ∀ rules start c good, c.token.kind = x.kind →
      Ends Parser.advance o c
        (fun _ behind => ∀ result : Expr, result.eraseSpans = e.eraseSpans → good result behind)
        Never →
      Ends (Parser.atom rules start) o c good Never) (calls : Bool) :
    ReadsMember o calls [x] e := by
  refine reads_atom noNew noParen (fun n start y rest c _ shows => ?_) calls
  refine run _ start c _ shows.kind (advance_shown (by simp) shows fun c shows => ?_)
  exact fun result same => ⟨same, shows⟩

/-- Literals and names bind more tightly than member accesses. -/
theorem member_le_primary : memberLevel ≤ primaryLevel := by decide

/-- Numbers. -/
theorem reads_num (span : Option Span) (value : Float) : ExprReads o (.num span value) := by
  intro _
  refine .ofMember (fun calls _ => reads_single (by simp) (by simp) ?_ calls) member_le_primary
  intro rules start c good kind then_
  simp only [Parser.atom, ends_bind, ends_currentKind, kind, ends_spanFrom, ends_pure]
  exact then_.mono (fun _ _ fine => fine _ rfl) fun _ bad => bad

/-- String literals. -/
theorem reads_string (span : Option Span) (text : String) : ExprReads o (.string span text) := by
  intro _
  refine .ofMember (fun calls _ => reads_single (by simp) (by simp) ?_ calls) member_le_primary
  intro rules start c good kind then_
  simp only [Parser.atom, ends_bind, ends_currentKind, kind, ends_spanFrom, ends_pure]
  exact then_.mono (fun _ _ fine => fine _ rfl) fun _ bad => bad

/-- Names. -/
theorem reads_name (span : Option Span) (name : String) : ExprReads o (.name span name) := by
  intro _
  refine .ofMember (fun calls _ => reads_single (by simp [named]) (by simp [named]) ?_ calls)
    member_le_primary
  intro rules start c good kind then_
  simp only [Parser.atom, ends_bind, ends_currentKind, kind, named, ends_spanFrom, ends_pure]
  exact then_.mono (fun _ _ fine => fine _ rfl) fun _ bad => bad

/-- Constants. -/
theorem reads_atomName (span : Option Span) (atom : Atom) : ExprReads o (.atom span atom) := by
  intro _
  refine .ofMember (fun calls _ => reads_single (by simp) (by simp) ?_ calls) member_le_primary
  intro rules start c good kind then_
  simp only [Parser.atom, ends_bind, ends_currentKind, kind, ends_spanFrom, ends_pure]
  exact then_.mono (fun _ _ fine => fine _ rfl) fun _ bad => bad

/-- An operand that begins with no operator is read as an assignment. -/
theorem ReadsMember.assignment (reads : ReadsMember o true faces e) (begins : BeginsOperand faces)
    (some_ : faces ≠ []) : ReadsAssignment o bareIn faces e :=
  ((reads.unary begins).operators some_ (by decide)).conditional.assignment

/-- A regular expression without parentheses. -/
theorem assignment_regexp (span : Option Span) (pattern flags : String) :
    ReadsAssignment o bareIn [{ kind := .regexp pattern flags }] (.regexp span pattern flags) := by
  refine ReadsMember.assignment ?_ ⟨_, _, rfl, rfl⟩ (by simp)
  refine reads_single (by simp) (by simp) ?_ true
  intro rules start c good kind then_
  simp only [Parser.atom, ends_bind, ends_currentKind, kind, ends_spanFrom, ends_pure]
  exact then_.mono (fun _ _ fine => fine _ rfl) fun _ bad => bad

/-- Regular expressions, which stand in parentheses. -/
theorem reads_regexp (span : Option Span) (pattern flags : String) :
    ExprReads o (.regexp span pattern flags) := by
  intro _
  have bare : ReadsAssignment o false [{ kind := .regexp pattern flags }]
      (.regexp span pattern flags) := assignment_regexp span pattern flags
  exact .ofMember (fun calls _ => bare.sequence.enclosed calls) member_le_primary

/-! ## Member accesses -/

/-- A word is read back as the name of a property. -/
theorem anyName_shown {name : String} (shows : c.Shows (word name :: x :: rest)) {bad : Failure → Prop}
    {good : String → Cursor → Prop} (then_ : ∀ c', c'.Shows (x :: rest) → good name c') :
    Ends Parser.anyName o c good bad := by
  have kind : c.token.kind = wordKind name := shows.kind
  have run : Ends Parser.advance o c (fun _ => good name) bad := advance_shown (by simp) shows then_
  unfold wordKind at kind
  split at kind
  · rename_i operator
    simp only [Parser.anyName, ends_bind, ends_currentKind, kind, operator, if_true, ends_pure]
    exact run
  · split at kind
    · rename_i keyword found
      have spelt := List.find?_some found
      simp only [decide_eq_true_eq] at spelt
      simp only [Parser.anyName, ends_bind, ends_currentKind, kind, spelt, ends_pure]
      exact run
    · split at kind
      · rename_i atom found
        have spelt := List.find?_some found
        simp only [decide_eq_true_eq] at spelt
        simp only [Parser.anyName, ends_bind, ends_currentKind, kind, spelt, ends_pure]
        exact run
      · simp only [Parser.anyName, ends_bind, ends_currentKind, kind, ends_pure]
        exact run

/-- The target of a member access: a number stands in parentheses. -/
theorem reads_target {target : Expr} (readable : Readable o target) (calls : Bool)
    (plain : calls = false → hasCall target = false) :
    ReadsMember o calls
      (if isNumber target then enclosed (exprFaces sequenceLevel target)
        else exprFaces memberLevel target) target := by
  split
  · exact readable.sequence.enclosed calls
  · exact readable.member calls plain

/-- Members by name. -/
theorem reads_dot (span : Option Span) (target : Expr) (property : String)
    (ih : ExprReads o target) : ExprReads o (.dot span target property) := by
  intro faithful
  rw [Expr.parts, everywhere_cons] at faithful
  refine .ofMember (fun calls plain => ?_) (Nat.le_refl _)
  intro n rest c good room some_ shows then_
  have same : exprFaces sequenceLevel (.dot span target property)
      = (if isNumber target then enclosed (exprFaces sequenceLevel target)
        else exprFaces memberLevel target) ++ [mark '.', word property] := rfl
  obtain ⟨x, rest, rfl⟩ := List.exists_cons_of_ne_nil some_
  rw [same] at shows room
  rw [List.append_assoc] at shows
  rw [List.length_append] at room
  refine reads_target (ih faithful.2) calls plain n _ c good (by omega) (by simp) shows ?_
  rintro k start result behind enough ⟨target_, shows⟩
  obtain ⟨k, rfl⟩ := Nat.exists_eq_succ_of_ne_zero (n := k)
    (by simp only [List.cons_append, List.length_cons] at enough; omega)
  have kind : behind.token.kind = .punctuation '.' := shows.kind
  rw [ends_loopWithin]
  simp only [subscriptStep, ends_bind, ends_atPunctuation, Token.isPunctuation, kind, decide_true,
    if_true, ends_spanFrom, ends_pure]
  refine advance_shown (by simp) shows fun c shows => anyName_shown shows fun c shows => ?_
  refine then_ k start _ c ?_ ⟨?_, shows⟩
  · simp only [List.cons_append, List.nil_append, List.length_cons] at enough ⊢
    omega
  · simp only [Expr.eraseSpans, target_]

/-- Members by index. -/
theorem reads_sub (span : Option Span) (target index : Expr) (ih : ExprReads o target)
    (ih' : ExprReads o index) : ExprReads o (.sub span target index) := by
  intro faithful
  rw [Expr.parts, everywhere_cons, everywhere_append] at faithful
  refine .ofMember (fun calls plain => ?_) (Nat.le_refl _)
  intro n rest c good room some_ shows then_
  have same : exprFaces sequenceLevel (.sub span target index)
      = exprFaces memberLevel target ++ mark '[' :: (exprFaces sequenceLevel index ++ [mark ']']) :=
    rfl
  obtain ⟨x, rest, rfl⟩ := List.exists_cons_of_ne_nil some_
  rw [same] at shows room
  simp only [List.append_assoc, List.cons_append, List.nil_append] at shows
  simp only [List.length_append, List.length_cons, List.length_nil] at room
  refine (ih faithful.2.1).member calls plain n _ c good (by omega) (by simp) shows ?_
  rintro k start result behind enough ⟨target_, shows⟩
  simp only [List.length_append, List.length_cons] at enough
  obtain ⟨k, rfl⟩ := Nat.exists_eq_succ_of_ne_zero (n := k) (by omega)
  obtain ⟨n, rfl⟩ := Nat.exists_eq_succ_of_ne_zero (n := n) (by omega)
  have kind : behind.token.kind = .punctuation '[' := shows.kind
  rw [ends_loopWithin]
  simp only [subscriptStep, ends_bind, ends_atPunctuation, Token.isPunctuation, kind,
    (by decide : ('[' = '.') = False), decide_false, Bool.false_eq_true, if_false, decide_true,
    if_true, ends_spanFrom, ends_pure, upTo_expression]
  refine advance_shown (by simp) shows fun c shows => ?_
  refine ((ih' faithful.2.2).sequence n false (mark ']' :: x :: rest) c (by omega) (by simp)
    (follows_of_none rfl) shows).mono ?_ fun _ bad => bad
  rintro index_ behind ⟨same, shows⟩
  refine expectPunctuation_shown (by simp) shows rfl fun c shows => ?_
  refine then_ k start _ c (by simp only [List.length_cons]; omega) ⟨?_, shows⟩
  simp only [Expr.eraseSpans, target_, same]

/-! ## Lists -/

/-- One step of a loop that gathers items with a comma between each two. -/
def listStep {α : Type} (closing : Char) (item : List α → Parser (List α ⊕ List α))
    (items : List α) : Parser (List α ⊕ List α) := do
  if ← Parser.atPunctuation closing then return .inr items
  if !items.isEmpty then Parser.expectPunctuation ','
  item items

/-- Behind an item of a list another one may follow, or the list may end. -/
def Continues (closing : Char) (rest : List Face) : Prop :=
  ∃ x more, rest = x :: more ∧ (x.kind = .punctuation ',' ∨ x.kind = .punctuation closing)

/-- No expression goes on behind an item of a list. -/
theorem Continues.follows {closing : Char} (continues : Continues closing rest)
    (known : closing ∈ ")]\x7d".toList) (noIn : Bool) : Follows noIn assignmentLevel rest := by
  obtain ⟨x, more, rfl, comma | close⟩ := continues
  · exact follows_of_some (b := sequenceLevel) (by rw [comma]; rfl) (by decide)
  · have table : ∀ closing ∈ ")]\x7d".toList, ∀ noIn, binds noIn (.punctuation closing) = none := by
      decide
    exact follows_of_none (by rw [close]; exact table closing known noIn)

/-- A list may end behind an item. -/
theorem continues_last (closing : Char) (rest : List Face) : Continues closing (mark closing :: rest) :=
  ⟨_, _, rfl, .inr rfl⟩

/-- A list is read item by item. -/
theorem list_shown {α ι γ : Type} {item : List α → Parser (List α ⊕ List α)}
    {itemFaces : ι → List Face} (before : ι → γ) (after : α → γ) {closing : Char} (items : List ι)
    (opens : ∀ i ∈ items, ∃ x more, itemFaces i = x :: more ∧ x.kind ≠ .punctuation closing)
    (each : ∀ i ∈ items, ∀ done more c, Continues closing more → c.Shows (itemFaces i ++ more) →
      Ends (item done) o c
        (fun outcome c' => ∃ a, outcome = .inl (done ++ [a]) ∧ after a = before i ∧ c'.Shows more)
        Never)
    (other : closing ≠ ',')
    (shows : c.Shows (commaFaces (items.map itemFaces) ++ mark closing :: rest)) :
    Ends (Parser.loop (listStep closing item) []) o c
      (fun results c' => results.map after = items.map before ∧ c'.Shows (mark closing :: rest))
      Never := by
  have stop (done : List α) (c : Cursor) (shows : c.Shows (mark closing :: rest)) :
      Ends (listStep closing item done) o c
        (fun outcome c' => outcome = .inr done ∧ c'.Shows (mark closing :: rest)) Never := by
    have kind : c.token.kind = .punctuation closing := shows.kind
    simp only [listStep, ends_bind, ends_atPunctuation, Token.isPunctuation, kind, decide_true,
      if_true, ends_pure]
    exact ⟨trivial, shows⟩
  refine loop_shown shows fun k room => ?_
  cases items with
  | nil =>
    obtain ⟨k, rfl⟩ := Nat.exists_eq_succ_of_ne_zero (n := k)
      (by simp only [List.length_append, List.length_cons] at room; omega)
    rw [ends_loopWithin]
    refine (stop [] c shows).mono ?_ fun _ bad => bad
    rintro _ c' ⟨rfl, shows⟩
    exact ⟨by simp, shows⟩
  | cons i items =>
    rw [List.map_cons, commaFaces_cons, List.flatMap_map, List.append_assoc] at shows room
    rw [List.length_append] at room
    obtain ⟨x, more, same, noClose⟩ := opens i (by simp)
    obtain ⟨k, rfl⟩ := Nat.exists_eq_succ_of_ne_zero (n := k)
      (by rw [same, List.length_cons] at room; omega)
    have others : ∀ (done : List α) (k : Nat) (c : Cursor), done ≠ [] →
        c.Shows (items.flatMap (fun i => mark ',' :: itemFaces i) ++ mark closing :: rest) →
        (items.flatMap (fun i => mark ',' :: itemFaces i) ++ mark closing :: rest).length ≤ k →
        Ends (Parser.loopWithin (listStep closing item) k done) o c
          (fun results c' => ∃ more, results = done ++ more ∧ more.map after = items.map before ∧
            c'.Shows (mark closing :: rest)) Never := by
      have again : ∀ i ∈ items, ∀ more, Continues closing ((mark ',' :: itemFaces i) ++ more) :=
        fun i _ more => ⟨mark ',', itemFaces i ++ more, rfl, .inl rfl⟩
      refine gather_shown (· ≠ []) (by simp) (by simp) items ?_ again (continues_last closing rest) (by simp)
        fun done c _ => stop done c
      intro i listed done more c held next shows
      obtain ⟨x, tail, same, -⟩ := opens i (List.mem_cons_of_mem _ listed)
      have kind : c.token.kind = .punctuation ',' := shows.kind
      have some_ : done.isEmpty = false := by simpa using held
      simp only [listStep, ends_bind, ends_atPunctuation, Token.isPunctuation, kind,
        decide_eq_false (Ne.symm other), Bool.false_eq_true, if_false, some_, Bool.not_false, if_true]
      rw [same] at shows
      refine expectPunctuation_shown (by simp) shows rfl fun c shows => ?_
      exact each i (List.mem_cons_of_mem _ listed) done more c next (same ▸ shows)
    have next : Continues closing
        (items.flatMap (fun i => mark ',' :: itemFaces i) ++ mark closing :: rest) := by
      cases items with
      | nil => exact continues_last closing rest
      | cons j items => exact ⟨mark ',', _, rfl, .inl rfl⟩
    have kind : c.token.kind = x.kind := by
      rw [same] at shows
      exact shows.kind
    have open_ : c.token.isPunctuation closing = false :=
      isPunctuation_of_ne (kind ▸ noClose)
    rw [ends_loopWithin]
    simp only [listStep, ends_bind, ends_atPunctuation, open_, Bool.false_eq_true, if_false,
      List.isEmpty_nil, Bool.not_true]
    refine (each i (by simp) [] _ c next shows).mono ?_ fun _ bad => bad
    rintro _ c' ⟨a, rfl, head, shows⟩
    refine (others [a] k c' (by simp) shows ?_).mono ?_ fun _ bad => bad
    · rw [same, List.length_cons] at room
      omega
    · rintro _ c' ⟨more, rfl, tail, shows⟩
      exact ⟨by simp [head, tail], shows⟩

/-- The tokens of an item are no more than those of the list. -/
theorem length_le_commaFaces {items : List (List Face)} {item : List Face} (listed : item ∈ items) :
    item.length ≤ (commaFaces items).length := by
  cases items with
  | nil => exact absurd listed List.not_mem_nil
  | cons first items =>
    rw [commaFaces_cons, List.length_append]
    rcases List.mem_cons.1 listed with rfl | listed
    · omega
    · have within : (mark ',' :: item).length ≤ (items.flatMap (mark ',' :: ·)).length :=
        (List.sublist_flatten_of_mem (List.mem_map_of_mem listed)).length_le
      rw [List.length_cons] at within
      omega

/-- The step of the loop that gathers expressions. -/
def expressionItem (rules : Rules) (closing : Char) (trailing gaps : Bool) (items : List Expr) :
    Parser (List Expr ⊕ List Expr) := do
  if trailing && (← Parser.atPunctuation closing) then return .inr items
  if gaps && (← Parser.atPunctuation ',') then return .inl (items ++ [.atom none .undefined])
  return .inl (items ++ [← rules.expression false false])

/-- Expressions in a list are gathered by a loop. -/
theorem expressionList_eq (rules : Rules) (closing : Char) (trailing gaps : Bool) :
    Parser.expressionList rules closing trailing gaps = (do
      let items ← Parser.loop (listStep closing (expressionItem rules closing trailing gaps)) []
      Parser.advance
      return items) := rfl

/-- Expressions in a list are read back from whatever tokens each is read from. -/
theorem expressionItems_shown {ι : Type} {items : List ι} {itemFaces : ι → List Face}
    {tree : ι → Expr} (opens : ∀ i ∈ items, Opens (itemFaces i))
    (reads : ∀ i ∈ items, ∃ bareIn, ReadsAssignment o bareIn (itemFaces i) (tree i))
    {closing : Char} (known : closing ∈ ")]".toList) (trailing gaps : Bool) {n : Nat}
    (room : (commaFaces (items.map itemFaces)).length ≤ n)
    (shows : c.Shows (commaFaces (items.map itemFaces) ++ mark closing :: x :: rest))
    {good : List Expr → Cursor → Prop}
    (then_ : ∀ results c', results.map Expr.eraseSpans = items.map (fun i => (tree i).eraseSpans) →
      c'.Shows (x :: rest) → good results c') :
    Ends (Parser.expressionList (.upTo (n + 1)) closing trailing gaps) o c good Never := by
  have table : ∀ closing ∈ ")]".toList, closing ≠ ',' ∧ closing ∈ ")]\x7d".toList ∧
      startsExpression (.punctuation closing) = false := by
    decide
  obtain ⟨other, close, noStart⟩ := table closing known
  have apart (i : ι) (listed : i ∈ items) : ∃ x more, itemFaces i = x :: more ∧
      x.kind ≠ .punctuation closing ∧ x.kind ≠ .punctuation ',' := by
    obtain ⟨x, more, same, starts, -⟩ := opens i listed
    refine ⟨x, more, same, fun kind => ?_, fun kind => ?_⟩
    · rw [kind, noStart] at starts
      exact absurd starts (by decide)
    · rw [kind] at starts
      exact absurd starts (by decide)
  rw [expressionList_eq, ends_bind]
  refine (list_shown (fun i => (tree i).eraseSpans) Expr.eraseSpans items (fun i listed => ?_) ?_ other
    shows).mono ?_ fun _ bad => bad
  · obtain ⟨x, more, same, noClose, -⟩ := apart i listed
    exact ⟨x, more, same, noClose⟩
  · intro i listed done more c continues shows
    obtain ⟨y, tail, same, noClose, noComma⟩ := apart i listed
    obtain ⟨bareIn, read⟩ := reads i listed
    have kind : c.token.kind = y.kind := by
      rw [same] at shows
      exact shows.kind
    have noClose : c.token.isPunctuation closing = false := isPunctuation_of_ne (kind ▸ noClose)
    have noComma : c.token.isPunctuation ',' = false := isPunctuation_of_ne (kind ▸ noComma)
    simp only [expressionItem, ends_bind, ends_atPunctuation, noClose, noComma, Bool.and_false,
      Bool.false_eq_true, if_false, upTo_expression]
    have fits := length_le_commaFaces (List.mem_map_of_mem (f := itemFaces) listed)
    refine (read.expression (Nat.le_trans fits room) (by simp) (continues.follows close false)
      shows).mono ?_ fun _ bad => bad
    rintro result c' ⟨erased, shows⟩
    exact ⟨result, rfl, erased, shows⟩
  · rintro results c' ⟨erased, shows⟩
    rw [ends_bind]
    exact advance_shown (by simp) shows fun c shows => then_ _ c erased shows

/-- Expressions in a list are read back. -/
theorem expressionList_shown {items : List Expr} (readable : ∀ e ∈ items, Readable o e)
    {closing : Char} (known : closing ∈ ")]".toList) (trailing gaps : Bool) {n : Nat}
    (room : (commaFaces (exprsFaces items)).length ≤ n)
    (shows : c.Shows (commaFaces (exprsFaces items) ++ mark closing :: x :: rest))
    {good : List Expr → Cursor → Prop}
    (then_ : ∀ results c', eraseExprs results = eraseExprs items → c'.Shows (x :: rest) →
      good results c') :
    Ends (Parser.expressionList (.upTo (n + 1)) closing trailing gaps) o c good Never := by
  rw [exprsFaces_eq] at shows room
  refine expressionItems_shown (fun e _ => exprFaces_opens e assignmentLevel)
    (fun e listed => ⟨_, (readable e listed).assignment⟩) known trailing gaps room shows
    fun results c' erased shows => then_ results c' ?_ shows
  rw [eraseExprs_eq, eraseExprs_eq, erased]

/-- Array literals. -/
theorem reads_array (span : Option Span) (items : List Expr) (ih : ∀ e ∈ items, ExprReads o e) :
    ExprReads o (.array span items) := by
  intro faithful
  rw [Expr.parts, everywhere_cons, everywhere_exprs] at faithful
  refine .ofMember (fun calls _ => reads_atom (by simp [mark]) (by simp [mark]) ?_ calls)
    member_le_primary
  intro n start y rest c room shows
  have kind : c.token.kind = .punctuation '[' := shows.kind
  simp only [List.length_cons, List.length_append] at room
  obtain ⟨n, rfl⟩ := Nat.exists_eq_succ_of_ne_zero (n := n) (by omega)
  simp only [Parser.atom, ends_bind, ends_currentKind, kind, ends_read, ends_spanFrom, ends_pure]
  rw [List.append_assoc] at shows
  refine advance_shown (by simp) shows fun c shows => ?_
  refine expressionList_shown (fun e listed => ih e listed (faithful.2 e listed)) (by decide) _ _
    (by omega) shows fun results c erased shows => ⟨?_, shows⟩
  simp only [Expr.eraseSpans, erased]

/-! ## Calls -/

/-- Calls. -/
theorem reads_call (span : Option Span) (callee : Expr) (args : List Expr)
    (ih : ExprReads o callee) (ih' : ∀ e ∈ args, ExprReads o e) :
    ExprReads o (.call span callee args) := by
  intro faithful
  rw [Expr.parts, everywhere_cons, everywhere_append, everywhere_exprs] at faithful
  refine .ofMember (fun calls plain => ?_) (Nat.le_refl _)
  obtain rfl : calls = true := by simpa [hasCall] using plain
  intro n rest c good room some_ shows then_
  have same : exprFaces sequenceLevel (.call span callee args)
      = exprFaces memberLevel callee ++ enclosed (commaFaces (exprsFaces args)) := rfl
  obtain ⟨x, rest, rfl⟩ := List.exists_cons_of_ne_nil some_
  rw [same] at shows room
  simp only [enclosed, List.append_assoc, List.cons_append, List.nil_append] at shows
  simp only [enclosed, List.length_append, List.length_cons, List.length_nil] at room
  refine (ih faithful.2.1).member true (by simp) n _ c good (by omega) (by simp) shows ?_
  rintro k start result behind enough ⟨callee_, shows⟩
  simp only [List.length_append, List.length_cons] at enough
  obtain ⟨k, rfl⟩ := Nat.exists_eq_succ_of_ne_zero (n := k) (by omega)
  obtain ⟨n, rfl⟩ := Nat.exists_eq_succ_of_ne_zero (n := n) (by omega)
  have kind : behind.token.kind = .punctuation '(' := shows.kind
  rw [ends_loopWithin]
  simp only [subscriptStep, ends_bind, ends_atPunctuation, Token.isPunctuation, kind,
    (by decide : ('(' = '.') = False), (by decide : ('(' = '[') = False), decide_false,
    Bool.false_eq_true, if_false, decide_true, Bool.and_true, if_true, ends_spanFrom, ends_pure]
  refine advance_shown (by simp) shows fun c shows => ?_
  refine expressionList_shown (fun e listed => ih' e listed (faithful.2.2 e listed)) (by decide) _ _
    (by omega) shows fun results c erased shows => ?_
  refine then_ k start _ c (by simp only [List.length_cons]; omega) ⟨?_, shows⟩
  simp only [Expr.eraseSpans, callee_, erased]

/-- Constructions. -/
theorem reads_new (span : Option Span) (callee : Expr) (args : List Expr)
    (ih : ExprReads o callee) (ih' : ∀ e ∈ args, ExprReads o e) :
    ExprReads o (.new span callee args) := by
  intro faithful
  rw [Expr.parts, everywhere_cons, everywhere_append, everywhere_exprs] at faithful
  refine .ofMember (fun calls plain => ?_) (Nat.le_refl _)
  obtain rfl : calls = true := by simpa [hasCall] using plain
  intro n rest c good room some_ shows then_
  have same : exprFaces sequenceLevel (.new span callee args)
      = operator "new" ::
        ((if hasCall callee then enclosed (exprFaces sequenceLevel callee)
          else exprFaces memberLevel callee) ++ enclosed (commaFaces (exprsFaces args))) := rfl
  have target : ReadsMember o false
      (if hasCall callee then enclosed (exprFaces sequenceLevel callee)
        else exprFaces memberLevel callee) callee := by
    split
    · exact (ih faithful.2.1).sequence.enclosed false
    · rename_i plain
      exact (ih faithful.2.1).member false fun _ => by simpa using plain
  obtain ⟨x, rest, rfl⟩ := List.exists_cons_of_ne_nil some_
  rw [same] at shows room
  generalize (if hasCall callee then enclosed (exprFaces sequenceLevel callee)
    else exprFaces memberLevel callee) = calleeFaces at shows room target
  simp only [enclosed, List.append_assoc, List.cons_append, List.nil_append] at shows
  simp only [enclosed, List.length_append, List.length_cons, List.length_nil] at room
  obtain ⟨n, rfl⟩ := Nat.exists_eq_succ_of_ne_zero (n := n) (by omega)
  have kind : c.token.kind = .operator "new" := shows.kind
  simp only [Parser.primary, ends_bind, ends_startOfToken, ends_atOperator, Token.isOperator, kind,
    decide_true, if_true, Parser.newExpression, upTo_primary]
  refine advance_shown (by simp) shows fun c' shows => ?_
  -- The callee is read without calls: its loop ends before the arguments.
  refine target n _ c' _ (by omega) (by simp) shows ?_
  rintro k start result behind enough ⟨callee_, shows⟩
  simp only [List.length_append, List.length_cons] at enough
  obtain ⟨k, rfl⟩ := Nat.exists_eq_succ_of_ne_zero (n := k) (by omega)
  have kind : behind.token.kind = .punctuation '(' := shows.kind
  rw [ends_loopWithin]
  simp only [subscriptStep, ends_bind, ends_atPunctuation, Token.isPunctuation, kind,
    (by decide : ('(' = '.') = False), (by decide : ('(' = '[') = False), decide_false,
    Bool.false_eq_true, if_false, decide_true, Bool.false_and, if_true, ends_spanFrom, ends_pure,
    subscripts_eq]
  refine advance_shown (by simp) shows fun c shows => ?_
  refine expressionList_shown (fun e listed => ih' e listed (faithful.2.2 e listed)) (by decide) _ _
    (by omega) shows fun results c erased shows => ?_
  refine loop_shown shows fun k enough => then_ k _ _ c enough ⟨?_, shows⟩
  simp only [Expr.eraseSpans, callee_, erased]

end

end Stencil.Grammar
