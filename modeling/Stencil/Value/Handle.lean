import Stencil.Value.Basic
/-!
# What values hold on to

A value can name functions, lookups, iterables and streams, and these keep further values. What
cannot be reached from the handles in use is lost: nobody can ask for it any more. Every handle
in use is safe (`not_mem_lost`).
-/

set_option autoImplicit false

namespace Stencil

/-- What a value names of the program that renders. -/
inductive Handle where
  | function (number : Nat)
  | dynamic (number : Nat)
  | iterable (number : Nat)
  | stream (number : Nat)
deriving DecidableEq

namespace Value

mutual

/-- The handles in a value and in its parts. -/
def handles : Value → List Handle
  | array _ items => handlesOfItems items
  | object _ entries => handlesOfEntries entries
  | function handle => [.function handle]
  | dynamic handle => [.dynamic handle]
  | iterable handle => [.iterable handle]
  | stream handle => [.stream handle]
  | _ => []

/-- The handles in the items of an array. -/
def handlesOfItems : List Value → List Handle
  | [] => []
  | item :: rest => handles item ++ handlesOfItems rest

/-- The handles in the entries of an object. -/
def handlesOfEntries : List (String × Value) → List Handle
  | [] => []
  | (_, value) :: rest => handles value ++ handlesOfEntries rest

end

end Value

namespace Handle

/-- The keepers that are not in use. Each keeper comes with the values that it keeps. -/
def unused (keepers : List (Handle × List Value)) (inUse : List Handle) :
    List (Handle × List Value) :=
  keepers.filter fun keeper => !inUse.contains keeper.1

/-- The handles that the keepers in use hold on to. -/
def behind (keepers : List (Handle × List Value)) (inUse : List Handle) : List Handle :=
  (keepers.filter fun keeper => inUse.contains keeper.1).flatMap fun keeper =>
    keeper.2.flatMap Value.handles

/-- The keepers that cannot be reached from the handles in use. -/
def lost (keepers : List (Handle × List Value)) (inUse : List Handle) : List Handle :=
  if (unused keepers inUse).length < keepers.length then
    lost (unused keepers inUse) (behind keepers inUse)
  else keepers.map (·.1)
termination_by keepers.length

/-- Only keepers are lost. -/
theorem mem_of_mem_lost {handle : Handle} {keepers : List (Handle × List Value)}
    {inUse : List Handle} (h : handle ∈ lost keepers inUse) :
    handle ∈ keepers.map (·.1) := by
  fun_induction lost keepers inUse with
  | case1 keepers inUse _ ih =>
    obtain ⟨keeper, member, same⟩ := List.mem_map.1 (ih h)
    exact List.mem_map.2 ⟨keeper, (List.mem_filter.1 member).1, same⟩
  | case2 keepers inUse _ => exact h

/-- What is in use is not lost. -/
theorem not_mem_lost {handle : Handle} (keepers : List (Handle × List Value))
    {inUse : List Handle} (h : handle ∈ inUse) : handle ∉ lost keepers inUse := by
  intro gone
  have outside : handle ∈ (unused keepers inUse).map (·.1) := by
    rw [lost] at gone
    split at gone
    · exact mem_of_mem_lost gone
    · rename_i same
      rw [unused, List.filter_eq_self.2]
      · exact gone
      · intro keeper member
        cases used : inUse.contains keeper.1
        · rfl
        · exact absurd
            (List.length_filter_lt_length_iff_exists.2 ⟨keeper, member, by simpa using used⟩) same
  obtain ⟨keeper, member, same⟩ := List.mem_map.1 outside
  have := (List.mem_filter.1 member).2
  simp_all

/-- What a keeper that is not lost holds on to is not lost. -/
theorem not_mem_lost_of_keeper {keepers : List (Handle × List Value)} {inUse : List Handle}
    {keeper : Handle × List Value} (member : keeper ∈ keepers)
    (safe : keeper.1 ∉ lost keepers inUse) {handle : Handle}
    (kept : handle ∈ keeper.2.flatMap Value.handles) : handle ∉ lost keepers inUse := by
  fun_induction lost keepers inUse with
  | case1 keepers inUse _ ih =>
    cases used : inUse.contains keeper.1 with
    | true =>
      apply not_mem_lost
      exact List.mem_flatMap.2 ⟨keeper, List.mem_filter.2 ⟨member, used⟩, kept⟩
    | false => exact ih (List.mem_filter.2 ⟨member, by rw [used]; rfl⟩) safe
  | case2 keepers inUse _ => exact absurd (List.mem_map.2 ⟨keeper, member, rfl⟩) safe

end Handle

end Stencil
