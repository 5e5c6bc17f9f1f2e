import Mathlib.Data.List.TakeWhile
import Stencil.Proofs.Parsing.ClosedExprs
import Stencil.Proofs.Parsing.Openings
import Stencil.Proofs.Syntax.Arrangement
import Stencil.Proofs.Syntax.Unspanned
/-!
# Climbing the precedence of operators

Operands with binary operators between them are read as their canonical arrangement (`row_climbs`): the
operators are grouped by their precedence, and to the left where it is the same. In the head of a loop,
where `in` is no operator, this holds of the row up to the first `in`.

An operand is a single word or any expression in parentheses. It is read where it stands as it is read
alone (`Operand.Reads.readAt`), up to the operator behind it. Then climbing is an induction over the row
(`climbs`): what is known of the left operand is that no operator in it binds less tightly than the next
one, and what comes back is an arrangement and a rest that begins with no tighter operator than the bound.
-/

set_option autoImplicit false

namespace Stencil.Grammar

open Stencil.Syntax
open Stencil.Lexing
open Stencil.Text (Position normalize unifyBreaks isName isForeignBreak)
open Stencil.Grammar.Parser

/-! ## Rows -/

/-- An operand in a row: how it is written, and what it is read as. -/
structure Operand where
  text : String
  tree : Expr

/-- The operand is a name, a constant, or a text that is an expression when it is read alone, in
parentheses, of which the second stands on a line of its own. A byte order mark is dropped at the start of
a source only. -/
inductive Operand.Reads (strict : Bool) : Operand → Prop where
  | name {word : String} (name : isName word.toList = true) (free : wordKind word = .name word) :
      Reads strict ⟨word, .name none word⟩
  | constant (atom : Atom) : Reads strict ⟨atom.spelling, .atom none atom⟩
  | parenthesised {text : String} {tree : Expr}
      (read : parseExpression ⟨false, strict⟩ text = .ok tree)
      (unmarked : text.toList.head? ≠ some '\ufeff') :
      Reads strict ⟨"(" ++ text ++ "\n)", tree⟩

/-- The operators of a row, each with the operand behind it. -/
abbrev Tail := List (BinaryOp × Operand)

/-- How the operators and operands behind the first operand are written. -/
def Tail.text : Tail → String
  | [] => ""
  | (op, operand) :: others => " " ++ op.spelling ++ " " ++ operand.text ++ Tail.text others

variable {strict noIn commas : Bool} {n depth bound : Nat} {o : Options} {c d later : Cursor}
  {others : Tail} {operand first : Operand} {op : BinaryOp} {l : Lexer} {e : Expr}

/-- What stands before the next operand of a row. -/
theorem Tail.text_cons (op : BinaryOp) (operand : Operand) (others : Tail) :
    unifyBreaks (Tail.text ((op, operand) :: others)).toList
      = ' ' :: (op.spelling.toList ++ ' ' :: unifyBreaks (operand.text ++ others.text).toList) := by
  have own : ∀ c ∈ op.spelling.toList, isForeignBreak c = false := by
    cases op <;> decide
  simp only [Tail.text, String.toList_append, List.append_assoc]
  rw [show " ".toList = [' '] from rfl, List.singleton_append, List.singleton_append,
    unifyBreaks_cons (by decide), unifyBreaks_append own, unifyBreaks_cons (by decide)]

/-- Behind an operand of a row there is a space, if there is anything. -/
theorem Tail.stopsBefore (kind : TokenKind) (others : Tail) :
    StopsBefore kind (unifyBreaks others.text.toList) := by
  intro c head
  cases others with
  | nil => cases head
  | cons item others =>
    rw [Tail.text_cons] at head
    obtain rfl := Option.some.inj head
    exact stopsAt_blank kind (by decide)

/-! ## Cursors in a row -/

/-- The cursor stands behind an operand of a row: at the next operator, with its lexer before the next
operand, or at the end of the text. -/
def Cursor.Before : Tail → Cursor → Prop
  | [], d => d.token.isEof = true
  | (op, operand) :: others, d => d.token.kind = .operator op.spelling ∧
      d.lexer.Ready true (' ' :: unifyBreaks (operand.text ++ Tail.text others).toList)

/-- A binary operator is read as such behind an operand. -/
theorem word_spelling (op : BinaryOp) :
    Word false (.operator op.spelling) op.spelling.toList := by
  by_cases word : op.spelling ∈ wordOperators
  · have kind : wordKind op.spelling = .operator op.spelling := by
      unfold wordKind
      rw [if_pos (by simpa using word)]
    have named : isName op.spelling.toList = true := by
      have table : ∀ word ∈ wordOperators, isName word.toList = true := by decide +kernel
      exact table _ word
    rw [← kind]
    exact .name (.inl named)
  · have listed : op.spelling ∈ symbolOperators := by
      have table : ∀ op ∈ BinaryOp.all, op.spelling ∉ wordOperators → op.spelling ∈ symbolOperators := by
        decide
      exact table op op.mem_all word
    exact .symbol listed fun _ => rfl

/-- Behind an operand the rest of the row is read. -/
theorem before_next (ready : l.Ready false (unifyBreaks others.text.toList)) :
    ∃ token lexer, l.next = (.ok token, lexer) ∧ ∀ stop, Cursor.Before others ⟨lexer, token, stop⟩ := by
  cases others with
  | nil =>
    obtain ⟨token, lexer, read, ended⟩ := ready.ended
    exact ⟨token, lexer, read, fun _ => ended⟩
  | cons item others =>
    obtain ⟨op, operand⟩ := item
    have text := ready.rest
    rw [Tail.text_cons] at text
    have spelt := word_spelling op
    rw [← ready.regexp] at spelt
    have stops : StopsBefore (.operator op.spelling)
        (' ' :: unifyBreaks (operand.text ++ Tail.text others).toList) := by
      intro c head
      obtain rfl := Option.some.inj head
      exact stopsAt_blank _ (by decide)
    have blank : [' '].all Text.isBlank = true := by decide
    obtain ⟨token, lexer, read, kind, ready'⟩ :=
      Lexer.next_word ready.script text blank spelt stops
    refine ⟨token, lexer, read, fun _ => ⟨kind, ?_⟩⟩
    have table : ∀ op ∈ BinaryOp.all, (TokenKind.operator op.spelling).precedesExpression = true := by
      decide
    rwa [table op op.mem_all] at ready'

/-- In a row an operand has ended where the next operator stands. -/
theorem Cursor.Before.ends (before : d.Before others) :
    (∀ char, d.token.isPunctuation char = false) ∧ operatorBehind d.token = none := by
  cases others with
  | nil =>
    have kind : d.token.kind = .eof := kind_of_isEof before
    exact ⟨fun char => ended_punctuation before char, by simp [operatorBehind, kind]⟩
  | cons item others =>
    obtain ⟨op, operand⟩ := item
    have kind : d.token.kind = .operator op.spelling := before.1
    refine ⟨fun char => by simp [Token.isPunctuation, kind], ?_⟩
    have table : ∀ op ∈ BinaryOp.all, UnaryOp.behind? op.spelling = none := by decide
    unfold operatorBehind
    rw [kind]
    dsimp only
    rw [table op op.mem_all, ite_self]

/-- Behind an operand of a row there is no member access and no call. -/
theorem Cursor.Before.subscripts {R : Rules} {start : Position} {calls : Bool}
    (before : d.Before others) : subscripts R e start calls o d = .ok (e, d) := by
  rw [subscripts_eq]
  exact loop_done (subscriptStep_stops fun char _ => before.ends.1 char)

/-! ## Operands -/

/-- An operand is read where it stands in a row, up to what is behind it, by rules of enough depth. -/
def Operand.ReadAt (strict : Bool) (depth : Nat) (operand : Operand) : Prop :=
  ∀ (others : Tail) (l : Lexer), l.Ready true (unifyBreaks (operand.text ++ others.text).toList) →
    ∃ token lexer, l.next = (.ok token, lexer) ∧ ∀ stop n, depth ≤ n →
      ∃ later, unary (Rules.upTo n) true (withoutSpans strict) ⟨lexer, token, stop⟩
        = .ok (operand.tree, later) ∧ later.Before others

/-- A name is read in a row. -/
theorem readAt_word {word : String} {tree : Expr} (name : isName word.toList = true)
    (known : wordKind word = .name word ∧ tree = .name none word ∨
      ∃ atom, wordKind word = .atom atom ∧ tree = .atom none atom) :
    Operand.ReadAt strict 0 ⟨word, tree⟩ := by
  intro others l ready
  have spelt : Word l.regexpAllowed (wordKind word) word.toList := .name (.inl name)
  have text : l.rest = [] ++ (word.toList ++ unifyBreaks others.text.toList) := by
    rw [ready.rest, String.toList_append, unifyBreaks_append spelt.unbroken]
    rfl
  obtain ⟨token, lexer, read, kind, ready'⟩ :=
    Lexer.next_word ready.script text rfl spelt (Tail.stopsBefore (wordKind word) others)
  have ends : (wordKind word).precedesExpression = false := by
    obtain ⟨same, -⟩ | ⟨atom, same, -⟩ := known <;> rw [same] <;> rfl
  rw [ends] at ready'
  obtain ⟨token', lexer', read', before⟩ := before_next ready'
  refine ⟨token, lexer, read, fun stop n _ => ?_⟩
  refine ⟨behindToken ⟨lexer, token, stop⟩ token' lexer', ?_, before _⟩
  refine unary_of_primary ?_ (before _).ends.2
  have plain : token.isOperator "new" = false ∧ token.isPunctuation '(' = false := by
    obtain ⟨same, -⟩ | ⟨atom, same, -⟩ := known <;>
      simp [Token.isOperator, Token.isPunctuation, kind, same]
  have leaf : atom (Rules.upTo n) token.span.start (withoutSpans strict) ⟨lexer, token, stop⟩
      = .ok (tree, behindToken ⟨lexer, token, stop⟩ token' lexer') := by
    unfold atom
    rw [run_behind (a := token.kind) rfl, kind]
    obtain ⟨same, rfl⟩ | ⟨atom, same, rfl⟩ := known
    · rw [same]
      dsimp only
      rw [run_behind (run_advance read'), run_behind (run_spanFrom _ _ _)]
      rfl
    · rw [same]
      dsimp only
      rw [run_behind (run_advance read'), run_behind (run_spanFrom _ _ _)]
      rfl
  unfold primary
  rw [run_behind (a := token.span.start) rfl, run_behind (a := token.isOperator "new") rfl, plain.1,
    if_neg (by simp), run_behind (a := token.isPunctuation '(') rfl, plain.2, if_neg (by simp),
    run_behind leaf]
  exact (before _).subscripts

/-- An expression in parentheses is read in a row. -/
theorem readAt_parenthesised {text : String} {tree : Expr}
    (read : parseExpression ⟨false, strict⟩ text = .ok tree)
    (unmarked : text.toList.head? ≠ some '\ufeff') :
    ∃ depth, Operand.ReadAt strict depth ⟨"(" ++ text ++ "\n)", tree⟩ := by
  obtain ⟨n, c, opens, behind, ran, ended⟩ := run_of_parseExpression read
  refine ⟨n + 1, fun others l ready => ?_⟩
  have chars : ("(" ++ text ++ "\n)" ++ others.text).toList
      = '(' :: (text.toList ++ '\n' :: ')' :: others.text.toList) := by
    simp
  obtain ⟨blanks, blank, whole, joined⟩ :=
    Text.normalize_append_break text.toList (')' :: others.text.toList)
  have unmarked' : (text.toList ++ '\n' :: ')' :: others.text.toList).head? ≠ some '\ufeff' := by
    cases same : text.toList with
    | nil => simp
    | cons first rest => simpa [same] using unmarked
  have closing : unifyBreaks (')' :: others.text.toList) = ')' :: unifyBreaks others.text.toList :=
    unifyBreaks_cons (by decide) _
  have begins : Closer.parenthesis.Begins (unifyBreaks others.text.toList)
      (blanks ++ unifyBreaks (')' :: others.text.toList)) :=
    ⟨blanks, blank, by rw [closing]; rfl, fun slash => by cases slash⟩
  have source : l.rest = [] ++ (['('] ++
      (normalize text.toList ++ (blanks ++ unifyBreaks (')' :: others.text.toList)))) := by
    rw [ready.rest, chars, unifyBreaks_cons (by decide), ← Text.normalize_unmarked unmarked', whole]
    rfl
  have spelt : Word l.regexpAllowed (.punctuation '(') ['('] := .punctuation (by decide)
  obtain ⟨token, lexer, read, kind, ready'⟩ :=
    Lexer.next_word ready.script source rfl spelt fun _ _ => by simp [stopsAt]
  obtain ⟨token', lexer', read', beside⟩ :=
    opens.alongside ready' joined (.inl (begins_expression ran).1)
  refine ⟨token, lexer, read, fun stop m deep => ?_⟩
  have inside : Alongside (blanks ++ unifyBreaks (')' :: others.text.toList)) c
      (behindToken ⟨lexer, token, stop⟩ token' lexer') := beside token.span.stop
  obtain ⟨d, ran', closed⟩ :=
    (closingExprs_upTo begins deep).expression true false inside tree behind ran ended trivial
  obtain ⟨last, lexer'', read'', before⟩ := before_next closed.ready
  refine ⟨behindToken d last lexer'', ?_, before _⟩
  refine unary_of_primary ?_ (before _).ends.2
  have closes : expectPunctuation ')' (withoutSpans strict) d = .ok ((), behindToken d last lexer'') := by
    have here : d.token.isPunctuation ')' = true := by
      simp [Token.isPunctuation, closed.kind, Closer.kind]
    unfold expectPunctuation
    rw [run_behind (a := d.token) rfl, if_pos here]
    exact run_advance read''
  unfold primary
  rw [run_behind (a := token.span.start) rfl, run_behind (a := token.isOperator "new") rfl,
    show token.isOperator "new" = false by simp [Token.isOperator, kind], if_neg (by simp),
    run_behind (a := token.isPunctuation '(') rfl,
    show token.isPunctuation '(' = true by simp [Token.isPunctuation, kind], if_pos rfl,
    run_behind (run_advance read'), run_behind ran', run_behind closes]
  exact (before _).subscripts

/-- Every operand is read in a row at some depth. -/
theorem Operand.Reads.readAt (reads : operand.Reads strict) : ∃ depth, operand.ReadAt strict depth := by
  cases reads with
  | name name free => exact ⟨0, readAt_word name (.inl ⟨free, rfl⟩)⟩
  | constant atom =>
    have name : isName atom.spelling.toList = true := by
      cases atom <;> decide +kernel
    have kind : wordKind atom.spelling = .atom atom := by
      cases atom <;> rfl
    exact ⟨0, readAt_word name (.inr ⟨atom, kind, rfl⟩)⟩
  | parenthesised read unmarked => exact readAt_parenthesised read unmarked

theorem Operand.ReadAt.mono (reads : operand.ReadAt strict depth) (deeper : depth ≤ n) :
    operand.ReadAt strict n := by
  intro others l ready
  obtain ⟨token, lexer, read, known⟩ := reads others l ready
  exact ⟨token, lexer, read, fun stop m deep => known stop m (Nat.le_trans deeper deep)⟩

/-- There is a depth at which all operands of a row are read. -/
theorem Tail.readAt (reads : ∀ item ∈ others, item.2.Reads strict) :
    ∃ depth, ∀ item ∈ others, item.2.ReadAt strict depth := by
  induction others with
  | nil => exact ⟨0, by simp⟩
  | cons item others ih =>
    obtain ⟨depth, known⟩ := (reads item (List.mem_cons_self ..)).readAt
    obtain ⟨depth', known'⟩ := ih fun item listed => reads item (List.mem_cons_of_mem _ listed)
    refine ⟨max depth depth', fun item' listed => ?_⟩
    obtain rfl | listed := List.mem_cons.1 listed
    · exact known.mono (Nat.le_max_left ..)
    · exact (known' item' listed).mono (Nat.le_max_right ..)

/-! ## Climbing -/

/-- The operator that is read next; in the head of a loop `in` is none. -/
def Tail.next? (noIn : Bool) : Tail → Option BinaryOp
  | [] => none
  | (op, _) :: _ => if noIn && op = .in then none else some op

theorem Tail.next?_eq_some (next : Tail.next? noIn others = some op) :
    ∃ operand behind, others = (op, operand) :: behind ∧ (noIn && op = .in) = false := by
  cases others with
  | nil => cases next
  | cons item others =>
    obtain ⟨op', operand⟩ := item
    rw [Tail.next?] at next
    split_ifs at next with within
    cases next
    exact ⟨operand, others, rfl, by simpa using within⟩

theorem binaryOperator_before (noIn : Bool) (before : d.Before others) :
    binaryOperator noIn d.token.kind = Tail.next? noIn others := by
  cases others with
  | nil =>
    have kind : d.token.kind = .eof := kind_of_isEof before
    rw [kind]
    rfl
  | cons item others =>
    obtain ⟨op, operand⟩ := item
    have kind : d.token.kind = .operator op.spelling := before.1
    have table : ∀ op ∈ BinaryOp.all, (op.spelling = "in" ↔ op = .in) := by decide
    simp only [kind, binaryOperator, Tail.next?, table op op.mem_all, BinaryOp.ofSpelling?_spelling]

/-- What is read behind a left operand, as far as operators bind tighter than the bound: the arrangement,
the part of the row it takes, and the part that is left. -/
structure Climbed (noIn : Bool) (bound : Nat) (left : Arrangement) (others : Tail)
    (whole : Arrangement) (taken rest : Tail) : Prop where
  split : others = taken ++ rest
  canonical : whole.Canonical
  first : whole.first = left.first
  items : whole.others = left.others ++ taken.map fun item => (item.1, item.2.tree)
  above : ∀ p ∈ whole.level?, bound < p
  stops : ∀ op ∈ Tail.next? noIn rest, op.precedence ≤ bound
  free : ∀ item ∈ taken, (noIn && item.1 = .in) = false

/-- An arrangement of which no operator is read on. -/
theorem climbed_stop {left : Arrangement} (canonical : left.Canonical)
    (above : ∀ p ∈ left.level?, bound < p)
    (stops : ∀ op ∈ Tail.next? noIn others, op.precedence ≤ bound) :
    Climbed noIn bound left others left [] others where
  split := rfl
  canonical := canonical
  first := rfl
  items := by simp
  above := above
  stops := stops
  free := by simp

/-- An operator with its right operand, and others behind it. -/
theorem Climbed.behind {left right whole : Arrangement} {taken rest taken' rest' : Tail}
    (own : (noIn && op = .in) = false)
    (first : Climbed noIn op.precedence (.operand operand.tree) others right taken rest)
    (second : Climbed noIn bound (.apply op left right) rest whole taken' rest') :
    Climbed noIn bound left ((op, operand) :: others) whole ((op, operand) :: (taken ++ taken')) rest'
    where
  split := by rw [first.split, second.split]; simp
  canonical := second.canonical
  first := second.first
  items := by
    rw [second.items, Arrangement.others, first.items, first.first]
    simp [Arrangement.others, Arrangement.first]
  above := second.above
  stops := second.stops
  free := by
    intro item listed
    rw [List.mem_cons, List.mem_append] at listed
    obtain rfl | listed | listed := listed
    · exact own
    · exact first.free item listed
    · exact second.free item listed

/-- No operator is read that does not bind tighter than the bound. -/
theorem operators_stay {R : Rules} {start : Position} (before : d.Before others)
    (stops : ∀ op ∈ Tail.next? noIn others, op.precedence ≤ bound) :
    operators R e start bound noIn o d = .ok (e, d) := by
  rw [operators_eq, run_behind (a := d.token.kind) rfl, binaryOperator_before noIn before]
  cases next : Tail.next? noIn others with
  | none => rfl
  | some op =>
    dsimp only
    rw [if_pos (stops op next)]
    rfl

/-- Behind an operator its right operand is read. -/
theorem right_read (before : d.Before ((op, operand) :: others)) (reads : operand.ReadAt strict depth)
    (deep : depth ≤ n) :
    ∃ d' later, Parser.advance (withoutSpans strict) d = .ok ((), d') ∧
      unary (Rules.upTo n) true (withoutSpans strict) d' = .ok (operand.tree, later) ∧
        later.Before others := by
  obtain ⟨l, ready, same⟩ := before.2.blank
  obtain ⟨token, lexer, read, known⟩ := reads others l ready
  obtain ⟨later, ran, before'⟩ := known d.token.span.stop n deep
  exact ⟨_, later, run_advance (same.trans read), ran, before'⟩

/-- Climbing from a left operand keeps arrangements canonical. By induction on the depth: both what is
read behind an operator and what is read behind its right operand lie deeper. -/
theorem climbs (noIn : Bool) (left : Arrangement) (bound : Nat)
    (known : ∀ item ∈ others, item.2.ReadAt strict depth)
    (deep : depth + others.length ≤ n) (before : d.Before others) (canonical : left.Canonical)
    (above : ∀ p ∈ left.level?, bound < p)
    (weaker : ∀ op ∈ Tail.next? noIn others, ∀ p ∈ left.level?, op.precedence ≤ p) (start : Position) :
    ∃ whole taken rest later,
      operators (Rules.upTo n) left.tree start bound noIn (withoutSpans strict) d
        = .ok (whole.tree, later) ∧ later.Before rest ∧
      Climbed noIn bound left others whole taken rest := by
  induction n generalizing others left bound start d with
  | zero =>
    obtain rfl : others = [] := List.eq_nil_of_length_eq_zero (by omega)
    have stops : ∀ op ∈ Tail.next? noIn [], op.precedence ≤ bound := fun op none_ => by cases none_
    exact ⟨left, [], [], d, operators_stay before stops, before, climbed_stop canonical above stops⟩
  | succ n ih =>
    by_cases stops : ∀ op ∈ Tail.next? noIn others, op.precedence ≤ bound
    · exact ⟨left, [], others, d, operators_stay before stops, before,
        climbed_stop canonical above stops⟩
    obtain ⟨op, next, strong⟩ : ∃ op ∈ Tail.next? noIn others, ¬ op.precedence ≤ bound := by
      simpa using stops
    have here := (binaryOperator_before noIn before).trans next
    obtain ⟨operand, others, rfl, own⟩ := Tail.next?_eq_some next
    rw [List.length_cons] at deep
    have known' : ∀ item ∈ others, item.2.ReadAt strict depth :=
      fun item listed => known item (List.mem_cons_of_mem _ listed)
    have reads : operand.ReadAt strict depth := known (op, operand) (List.mem_cons_self ..)
    obtain ⟨d', middle, advanced, ran, before'⟩ := right_read (n := n + 1) before reads (by omega)
    -- the right operand with what binds tighter than the operator
    have alone : (Arrangement.operand operand.tree).Canonical := trivial
    obtain ⟨right, taken, rest, later, ranRight, beforeRight, climbed⟩ :=
      ih (.operand operand.tree) op.precedence known' (by omega) before' alone
        (fun p level => by cases level) (fun _ _ p level => by cases level) d'.token.span.start
    -- the whole is the left operand of what follows
    have joined : (Arrangement.apply op left right).Canonical :=
      ⟨canonical, climbed.canonical, weaker op next, climbed.above⟩
    have shorter : rest.length ≤ others.length := by
      rw [climbed.split, List.length_append]
      omega
    obtain ⟨whole, taken', rest', last, ranWhole, beforeWhole, climbed'⟩ :=
      ih (.apply op left right) bound
        (fun item listed => known' item (climbed.split ▸ List.mem_append_right _ listed))
        (by omega) beforeRight joined (fun p level => by cases level; omega)
        (fun op' next' p level => by cases level; exact climbed.stops op' next') start
    refine ⟨whole, (op, operand) :: (taken ++ taken'), rest', last, ?_, beforeWhole,
      climbed.behind own climbed'⟩
    have ranOperand : rightOperand (Rules.upTo (n + 1)) op noIn (withoutSpans strict) d
        = .ok (right.tree, later) := by
      unfold rightOperand
      rw [run_behind advanced, run_behind (a := d'.token.span.start) rfl, run_behind ran]
      exact ranRight
    rw [operators_eq, run_behind (a := d.token.kind) rfl, here]
    dsimp only
    rw [if_neg strong, run_behind ranOperand, run_behind (run_spanFrom _ _ _)]
    exact ranWhole

/-! ## Whole rows -/

/-- The part of a row that climbing takes from its first operand ends before the first `in`, if that is
no operator. -/
theorem Climbed.taken {left whole : Arrangement} {taken rest : Tail}
    (climbed : Climbed noIn 0 left others whole taken rest) :
    taken = others.takeWhile (fun item => !(noIn && item.1 = .in)) ∧
      rest = others.dropWhile fun item => !(noIn && item.1 = .in) := by
  have none_ : Tail.next? noIn rest = none := by
    refine Option.eq_none_iff_forall_not_mem.2 fun op next => ?_
    have weak := climbed.stops op next
    have bounds := op.precedence_bounds
    omega
  have ends : rest.takeWhile (fun item => !(noIn && item.1 = .in)) = [] ∧
      rest.dropWhile (fun item => !(noIn && item.1 = .in)) = rest := by
    cases rest with
    | nil => exact ⟨rfl, rfl⟩
    | cons item rest =>
      obtain ⟨op, operand⟩ := item
      have within : (noIn && op = .in) = true := by simpa [Tail.next?] using none_
      simp only [List.takeWhile_cons, List.dropWhile_cons, within]
      exact ⟨rfl, rfl⟩
  have free : ∀ item ∈ taken, (!(noIn && item.1 = .in)) = true := by
    intro item listed
    rw [climbed.free item listed]
    rfl
  rw [climbed.split, List.takeWhile_append_of_pos free, List.dropWhile_append_of_pos free, ends.1,
    ends.2, List.append_nil]
  exact ⟨rfl, rfl⟩

/-- Behind binary operators there is nothing more of the expression, if no other operator and no comma
follows. -/
theorem expression_of_operation {R : Rules} (ran : operation R noIn o c = .ok (e, later))
    (question : later.token.isOperator "?" = false)
    (assigned : assignmentOperator later.token.kind = none)
    (comma : later.token.isPunctuation ',' = false) :
    expression R commas noIn o c = .ok (e, later) := by
  have tested : conditional R noIn o c = .ok (e, later) := by
    rw [conditional_eq_operation, run_behind (a := c.token.span.start) rfl, run_behind ran]
    unfold conditionalRest
    rw [run_behind (a := later.token.isOperator "?") rfl, question]
    rfl
  have target : Parser.assignment R noIn o c = .ok (e, later) := by
    rw [assignment_eq, run_behind (a := c.token.span.start) rfl, run_behind tested]
    unfold assignmentRest
    rw [run_behind (a := later.token.kind) rfl, assigned]
    rfl
  rw [expression_eq, run_behind (a := c.token.span.start) rfl, run_behind target]
  unfold sequenceRest
  rw [run_behind (a := later.token.isPunctuation ',') rfl, comma, Bool.and_false]
  rfl

/-- In a row there are binary operators only. -/
theorem Cursor.Before.binary (before : d.Before others) :
    d.token.isOperator "?" = false ∧ assignmentOperator d.token.kind = none := by
  cases others with
  | nil =>
    have kind : d.token.kind = .eof := kind_of_isEof before
    simp [Token.isOperator, assignmentOperator, kind]
  | cons item others =>
    obtain ⟨op, operand⟩ := item
    have kind : d.token.kind = .operator op.spelling := before.1
    have table : ∀ op ∈ BinaryOp.all, op.spelling ≠ "?" ∧ op.spelling ≠ "=" ∧
        BinaryOp.ofAssignment? op.spelling = none := by
      decide
    obtain ⟨question, plain, compound⟩ := table op op.mem_all
    simp [Token.isOperator, assignmentOperator, kind, question, plain, compound]

/-- The expression is, up to its spans, the canonical arrangement of the row. -/
def Arranges (first : Operand) (others : Tail) (e : Expr) : Prop :=
  ∃ whole : Arrangement, e.eraseSpans = whole.tree ∧ whole.Canonical ∧ whole.first = first.tree ∧
    whole.others = others.map fun item => (item.1, item.2.tree)

/-- A row has one canonical arrangement. -/
theorem Arranges.unique {e' : Expr} (arranges : Arranges first others e)
    (arranges' : Arranges first others e') : e.eraseSpans = e'.eraseSpans := by
  obtain ⟨whole, same, canonical, begins, items⟩ := arranges
  obtain ⟨whole', same', canonical', begins', items'⟩ := arranges'
  rw [same, same', Arrangement.canonical_unique canonical canonical' (begins.trans begins'.symm)
    (items.trans items'.symm)]

/-- No operand begins with a byte order mark. -/
theorem Operand.Reads.unmarked (reads : operand.Reads strict) (more : String) :
    (operand.text ++ more).toList.head? ≠ some '\ufeff' := by
  cases reads with
  | @name word name free =>
    intro head
    rw [String.toList_append] at head
    cases same : word.toList with
    | nil => simp [same, isName] at name
    | cons first rest =>
      rw [same, isName, Bool.and_eq_true] at name
      rw [show (⟨word, .name none word⟩ : Operand).text = word from rfl, same] at head
      obtain rfl := Option.some.inj head
      exact absurd name.1 (by decide +kernel)
  | constant atom => cases atom <;> simp [Atom.spelling]
  | parenthesised read unmarked => simp

/-- What is read without spans is read under all options, up to the spans. -/
theorem expression_anySpans {commas : Bool}
    (ran : expression (Rules.upTo n) commas noIn (withoutSpans o.strict) c = .ok (e, later)) :
    ∃ e', expression (Rules.upTo n) commas noIn o c = .ok (e', later) ∧ e'.eraseSpans = e := by
  have both : Erases o.strict c Expr.eraseSpans (expression (Rules.upTo n) commas noIn)
      (expression (Rules.upTo n) commas noIn) :=
    erases_expression (spanless_upTo n) commas noIn
  unfold Erases at both
  rw [ran] at both
  cases ran' : expression (Rules.upTo n) commas noIn (withSpans o.strict) c with
  | error failure =>
    rw [ran'] at both
    exact both.elim
  | ok outcome =>
    rw [ran'] at both
    obtain ⟨e', behind⟩ := outcome
    obtain ⟨rfl, rfl⟩ := both
    obtain ⟨positions, strict⟩ := o
    cases positions with
    | true => exact ⟨e', ran', rfl⟩
    | false => exact ⟨e'.eraseSpans, ran, Expr.eraseSpans_of_bare e'.bare_eraseSpans⟩

/-- A row is read as its canonical arrangement up to the first `in`, if that is no operator. -/
theorem expression_row {o : Options} (reads : first.Reads o.strict)
    (reads' : ∀ item ∈ others, item.2.Reads o.strict) (commas noIn : Bool) :
    ∃ token lexer e later,
      (Lexer.ofSource false (first.text ++ others.text).toList).next = (.ok token, lexer) ∧
      expression (Rules.upTo (lexer.rest.length + 2)) commas noIn o ⟨lexer, token, .origin⟩
        = .ok (e, later) ∧
      Arranges first (others.takeWhile fun item => !(noIn && item.1 = .in)) e ∧
      later.Before (others.dropWhile fun item => !(noIn && item.1 = .in)) := by
  obtain ⟨depth, known⟩ := reads.readAt
  obtain ⟨depth', known'⟩ := Tail.readAt reads'
  have ready := Lexer.ready_ofSource (first.text ++ others.text).toList
  rw [Text.normalize_unmarked (reads.unmarked others.text)] at ready
  obtain ⟨token, lexer, next, opens⟩ := known others _ ready
  -- a depth that is enough for every operand, for climbing and for the whole
  obtain ⟨n, deep, deep', enough⟩ : ∃ n, depth ≤ n ∧ depth' + others.length ≤ n ∧
      lexer.rest.length + 2 ≤ n :=
    ⟨depth + (depth' + others.length) + (lexer.rest.length + 2), by omega⟩
  obtain ⟨middle, ran, before⟩ := opens .origin n deep
  obtain ⟨whole, taken, rest, later, climbing, before', climbed⟩ :=
    climbs noIn (.operand first.tree) 0 known' deep' before trivial
      (fun p level => by cases level) (fun _ _ p level => by cases level) token.span.start
  have joined : operation (Rules.upTo n) noIn (withoutSpans o.strict) ⟨lexer, token, .origin⟩
      = .ok (whole.tree, later) := by
    unfold operation
    rw [run_behind (a := token.span.start) rfl, run_behind ran]
    exact climbing
  have finished : expression (Rules.upTo n) commas noIn (withoutSpans o.strict) ⟨lexer, token, .origin⟩
      = .ok (whole.tree, later) :=
    expression_of_operation joined before'.binary.1 before'.binary.2 (before'.ends.1 ',')
  have room : (⟨lexer, token, .origin⟩ : Cursor).ahead ≤ lexer.rest.length + 2 := by
    unfold Cursor.ahead
    split_ifs <;> simp
  have shallow := (consumes_expression (o := withoutSpans o.strict)
    (agree_upTo (Nat.le_refl _) enough) room commas noIn).same.eq.trans finished
  obtain ⟨e, ran', same⟩ := expression_anySpans shallow
  obtain ⟨rfl, rfl⟩ := climbed.taken
  exact ⟨token, lexer, e, later, next, ran',
    ⟨whole, same, climbed.canonical, climbed.first, climbed.items⟩, before'⟩

/-- Behind what is read before the first `in` that operator stands, or the text ends. -/
theorem kind_before (before : d.Before (others.dropWhile fun item => decide (item.1 ≠ .in))) :
    d.token.kind = if others.any (·.1 = .in) then .operator "in" else .eof := by
  induction others with
  | nil => exact kind_of_isEof before
  | cons item others ih =>
    obtain ⟨op, operand⟩ := item
    by_cases here : op = .in
    · subst here
      exact before.1
    · rw [List.dropWhile_cons_of_pos (by simpa using here)] at before
      rw [ih before, List.any_cons, decide_eq_false here, Bool.false_or]

/-- Reads an expression as in the head of a loop, and looks at the token behind it. -/
def beforeIn (commas : Bool) (rules : Rules) : Parser (Expr × TokenKind) := do
  let e ← expression rules commas true
  return (e, ← currentKind)

end Stencil.Grammar

namespace Stencil

open Stencil.Grammar
open Stencil.Grammar.Parser
open Stencil.Syntax

/-- Precedence climbing builds the canonical tree: operands with binary operators between them are read as
their canonical arrangement and, in the head of a loop, as that of the operands before the first `in`. -/
theorem row_climbs (o : Options) {first : Operand} {others : Tail} (reads : first.Reads o.strict)
    (reads' : ∀ item ∈ others, item.2.Reads o.strict) :
    (∃ e, parseExpression o (first.text ++ others.text) = .ok e ∧ Arranges first others e) ∧
    ∀ commas, ∃ e,
      run false o (first.text ++ others.text).toList (beforeIn commas)
        = .ok (e, if others.any (·.1 = .in) then .operator "in" else .eof) ∧
      Arranges first (others.takeWhile (·.1 ≠ .in)) e := by
  constructor
  · obtain ⟨token, lexer, e, later, next, ran, arranges, before⟩ :=
      expression_row reads reads' true false
    have all : ∀ item ∈ others, (!(false && decide (item.1 = .in))) = true := fun _ _ => rfl
    rw [List.takeWhile_eq_self_iff.2 all] at arranges
    rw [List.dropWhile_eq_nil_iff.2 all] at before
    exact ⟨e, parseExpression_of_run next (Nat.le_refl _) ⟨later, ran, before⟩, arranges⟩
  · intro commas
    obtain ⟨token, lexer, e, later, next, ran, arranges, before⟩ :=
      expression_row reads reads' commas true
    have same : (fun item : BinaryOp × Operand => !(true && decide (item.1 = .in)))
        = fun item => decide (item.1 ≠ .in) := by
      funext item
      simp
    rw [same] at arranges before
    refine ⟨e, ?_, arranges⟩
    have looked : beforeIn commas (Rules.upTo (lexer.rest.length + 2)) o ⟨lexer, token, .origin⟩
        = .ok ((e, later.token.kind), later) := by
      unfold beforeIn
      rw [run_behind ran]
      rfl
    unfold run Cursor.ofSource
    rw [next]
    change (beforeIn commas (Rules.upTo (lexer.rest.length + 2)) o ⟨lexer, token, .origin⟩ >>=
      fun read => .ok read.1) = _
    rw [looked, ← kind_before before]
    rfl

/-- A product of an operand in parentheses, with an `in` of its own, between a sum and another `in`. -/
theorem row_climbs_mixed :
    ∃ tree e, parseExpression ⟨false, false⟩ "b in c" = .ok tree ∧
      parseExpression ⟨true, false⟩ ("a" ++ Tail.text [(.add, ⟨"(b in c\n)", tree⟩),
        (.mul, ⟨"null", .atom none .null⟩), (.in, ⟨"d", .name none "d"⟩)]) = .ok e ∧
      Arranges ⟨"a", .name none "a"⟩ [(.add, ⟨"(b in c\n)", tree⟩),
        (.mul, ⟨"null", .atom none .null⟩), (.in, ⟨"d", .name none "d"⟩)] e := by
  have found : (parseExpression ⟨false, false⟩ "b in c").toOption.isSome = true := by
    decide +kernel
  cases read : parseExpression ⟨false, false⟩ "b in c" with
  | error error => simp [read, Except.toOption] at found
  | ok tree =>
    have first : Operand.Reads false ⟨"a", .name none "a"⟩ := .name (by decide +kernel) rfl
    have second : Operand.Reads false ⟨"(b in c\n)", tree⟩ := .parenthesised read (by decide)
    have third : Operand.Reads false ⟨"null", .atom none .null⟩ := .constant .null
    have last : Operand.Reads false ⟨"d", .name none "d"⟩ := .name (by decide +kernel) rfl
    have all : ∀ item ∈ ([(.add, ⟨"(b in c\n)", tree⟩), (.mul, ⟨"null", .atom none .null⟩),
        (.in, ⟨"d", .name none "d"⟩)] : Tail), item.2.Reads false := by
      simp only [List.mem_cons, List.not_mem_nil, or_false, forall_eq_or_imp, forall_eq]
      exact ⟨second, third, last⟩
    have climbed := (row_climbs ⟨true, false⟩ first all).1
    exact climbed.elim fun e known => ⟨tree, e, rfl, known.1, known.2⟩

/-- A byte order mark is dropped at the start of a source, and refused behind a parenthesis. -/
theorem marked_operand_refused :
    ∃ tree error, parseExpression ⟨false, false⟩ "\ufeffa" = .ok tree ∧
      parseExpression ⟨false, false⟩ "b + (\ufeffa\n)" = .error error := by
  have found : (parseExpression ⟨false, false⟩ "\ufeffa").toOption.isSome = true ∧
      (parseExpression ⟨false, false⟩ "b + (\ufeffa\n)").toOption.isSome = false := by
    decide +kernel
  obtain ⟨alone, within⟩ := found
  cases read : parseExpression ⟨false, false⟩ "\ufeffa" with
  | error error => simp [read, Except.toOption] at alone
  | ok tree =>
    cases refused : parseExpression ⟨false, false⟩ "b + (\ufeffa\n)" with
    | ok e => simp [refused, Except.toOption] at within
    | error error => exact ⟨tree, error, rfl, rfl⟩

end Stencil
