import Stencil.Syntax.Tree
/-!
# Operands and the operators between them

A row of operands with binary operators between them can be grouped in many ways. The canonical one
follows the precedence of the operators: what is grouped on the left of an operator binds at least as
strongly, and what is grouped on the right binds more strongly. There is one at most (`canonical_unique`).
-/

set_option autoImplicit false

namespace Stencil.Syntax

/-- A way to group operands with binary operators between them. The operands are whole expressions;
operators inside of them do not belong to the row. -/
inductive Arrangement where
  | operand (e : Expr)
  | apply (op : BinaryOp) (left right : Arrangement)

namespace Arrangement

/-- The expression that is grouped so. -/
def tree : Arrangement → Expr
  | operand e => e
  | apply op left right => .binary none op left.tree right.tree

/-- The operand that comes first in the row. -/
def first : Arrangement → Expr
  | operand e => e
  | apply _ left _ => left.first

/-- The operators of the row, each with the operand behind it. -/
def others : Arrangement → List (BinaryOp × Expr)
  | operand _ => []
  | apply op left right => left.others ++ (op, right.first) :: right.others

/-- How strongly the operator binds that is applied last. -/
def level? : Arrangement → Option Nat
  | operand _ => none
  | apply op _ _ => some op.precedence

/-- The operators are grouped by their precedence, and to the left where it is the same. -/
def Canonical : Arrangement → Prop
  | operand _ => True
  | apply op left right =>
    left.Canonical ∧ right.Canonical ∧ (∀ p ∈ left.level?, op.precedence ≤ p) ∧
      ∀ p ∈ right.level?, op.precedence < p

/-- No operator of a canonical arrangement binds less strongly than the one that is applied last. -/
theorem Canonical.level_le {a : Arrangement} (canonical : a.Canonical) {p : Nat} (level : p ∈ a.level?)
    {item : BinaryOp × Expr} (listed : item ∈ a.others) : p ≤ item.1.precedence := by
  induction a generalizing p with
  | operand e => cases level
  | apply op left right ih ih' =>
    obtain ⟨fine, fine', least, greater⟩ := canonical
    obtain rfl : op.precedence = p := Option.some.inj level
    rw [others, List.mem_append, List.mem_cons] at listed
    obtain listed | rfl | listed := listed
    · cases left with
      | operand e => cases listed
      | apply op' _ _ => exact Nat.le_trans (least _ rfl) (ih fine rfl listed)
    · exact Nat.le_refl _
    · cases right with
      | operand e => cases listed
      | apply op' _ _ => exact Nat.le_of_lt (Nat.lt_of_lt_of_le (greater _ rfl) (ih' fine' rfl listed))

/-- Where the operator stands that is applied last: none before it binds less strongly, and those behind
it bind more strongly. -/
theorem Canonical.splits {op : BinaryOp} {left right : Arrangement}
    (canonical : (apply op left right).Canonical) :
    (∀ item ∈ left.others, op.precedence ≤ item.1.precedence) ∧
      ∀ item ∈ right.others, op.precedence < item.1.precedence := by
  obtain ⟨fine, fine', least, greater⟩ := canonical
  constructor
  · intro item listed
    cases left with
    | operand e => cases listed
    | apply op' _ _ => exact Nat.le_trans (least _ rfl) (fine.level_le rfl listed)
  · intro item listed
    cases right with
    | operand e => cases listed
    | apply op' _ _ => exact Nat.lt_of_lt_of_le (greater _ rfl) (fine'.level_le rfl listed)

/-- Two places in a list of operators that both split it by precedence are one. -/
theorem split_unique {xs ys xs' ys' : List (BinaryOp × Expr)} {x x' : BinaryOp × Expr}
    (same : xs ++ x :: ys = xs' ++ x' :: ys')
    (before : ∀ item ∈ xs, x.1.precedence ≤ item.1.precedence)
    (behind : ∀ item ∈ ys, x.1.precedence < item.1.precedence)
    (before' : ∀ item ∈ xs', x'.1.precedence ≤ item.1.precedence)
    (behind' : ∀ item ∈ ys', x'.1.precedence < item.1.precedence) :
    xs = xs' ∧ x = x' ∧ ys = ys' := by
  rw [List.append_eq_append_iff] at same
  obtain ⟨between, rfl, same⟩ | ⟨between, rfl, same⟩ := same
  · cases between with
    | nil =>
      obtain ⟨rfl, rfl⟩ := List.cons.inj same
      exact ⟨(List.append_nil _).symm, rfl, rfl⟩
    | cons y between =>
      obtain ⟨rfl, rfl⟩ := List.cons.inj same
      have weak := before' x (by simp)
      exact absurd (behind x' (by simp)) (Nat.not_lt.2 weak)
  · cases between with
    | nil =>
      obtain ⟨rfl, rfl⟩ := List.cons.inj same
      exact ⟨List.append_nil _, rfl, rfl⟩
    | cons y between =>
      obtain ⟨rfl, rfl⟩ := List.cons.inj same
      have weak := before x' (by simp)
      exact absurd (behind' x (by simp)) (Nat.not_lt.2 weak)

/-- A row of operands is grouped canonically in one way at most. By induction on one of the two ways:
the operator that is applied last is the same. -/
theorem canonical_unique {a b : Arrangement} (canonical : a.Canonical) (canonical' : b.Canonical)
    (first : a.first = b.first) (others : a.others = b.others) : a = b := by
  induction a generalizing b with
  | operand e =>
    cases b with
    | operand e' => exact congrArg operand first
    | apply op' left' right' => simp [Arrangement.others] at others
  | apply op left right ih ih' =>
    cases b with
    | operand e' => simp [Arrangement.others] at others
    | apply op' left' right' =>
      obtain ⟨before, behind⟩ := canonical.splits
      obtain ⟨before', behind'⟩ := canonical'.splits
      obtain ⟨lefts, here, rights⟩ := split_unique others before behind before' behind'
      obtain ⟨rfl, firsts⟩ := Prod.mk.inj here
      rw [ih canonical.1 canonical'.1 first lefts, ih' canonical.2.1 canonical'.2.1 firsts rights]

end Arrangement

end Stencil.Syntax
