/-!
# Sets of characters given by ranges of code points

A Unicode property is written down as a list of closed ranges. `CodeRange.has` is membership
in such a list; everything said about a property is said through it.
-/

set_option autoImplicit false

namespace Stencil.Text

/-! Statements about the characters of a list, or about the one character there may be, are decided by
looking at these, and not by going through all characters there are. -/

section Decisions

variable (p : Char → Prop) [DecidablePred p]

instance (priority := high) decidableForallListed (cs : List Char) : Decidable (∀ c, c ∈ cs → p c) :=
  List.decidableBAll p cs

instance (priority := high) decidableExistsListed (cs : List Char) : Decidable (∃ c, c ∈ cs ∧ p c) :=
  List.decidableBEx p cs

instance (priority := high) decidableForallPresent :
    (found : Option Char) → Decidable (∀ c, found = some c → p c)
  | none => isTrue nofun
  | some c =>
    if h : p c then isTrue fun _ same => Option.some.inj same ▸ h
    else isFalse fun all => h (all c rfl)

end Decisions

/-- A closed range of code points, given by its first and its last member. -/
abbrev CodeRange := Nat × Nat

namespace CodeRange

/-- Whether one of the ranges holds the character. -/
def has (ranges : List CodeRange) (c : Char) : Bool :=
  ranges.any fun range => range.1 ≤ c.toNat && c.toNat ≤ range.2

/-- A character is in a list of ranges exactly when its code point lies in one of them. -/
theorem has_iff (ranges : List CodeRange) (c : Char) :
    has ranges c = true ↔ ∃ range ∈ ranges, range.1 ≤ c.toNat ∧ c.toNat ≤ range.2 := by
  simp [has]

end CodeRange

end Stencil.Text
