import Mathlib.Order.Lattice
import PubSub.Base.Table

/-!
# Reading up to a bound for each partition

A reader that has to see an offset at or above a bound in every bounded partition keeps the
bounds that are still open and strikes one out when it sees such an offset. What is left after a
sequence of observations is exactly the bounds that it does not cover, so the reader stops at the
shortest prefix that covers all of them.
-/

namespace Base
set_option autoImplicit false

/-- The bound of each partition. -/
abbrev Bounds (P O : Type*) := Table P O

namespace Bounds

variable {P O : Type*} [DecidableEq P] [LinearOrder O]

/-- Strike out the bound of partition `p` if offset `o` has reached it. -/
def observe (bounds : Bounds P O) (p : P) (o : O) : Bounds P O :=
  bounds.retain fun k v => if k ≠ p ∨ v > o then some v else none

/-- The bounds still open after a sequence of observations. -/
def observeAll (bounds : Bounds P O) (seen : List (P × O)) : Bounds P O :=
  seen.foldl (fun bounds x => bounds.observe x.1 x.2) bounds

/-- Every bounded partition has shown an offset at or above its bound. -/
def Covers (bounds : Bounds P O) (seen : List (P × O)) : Prop :=
  ∀ p b, bounds.lookup p = some b → ∃ x ∈ seen, x.1 = p ∧ b ≤ x.2

variable {bounds : Bounds P O} {seen : List (P × O)} {p : P} {b o : O}

theorem lookup_observe (q : P) (o : O) :
    (bounds.observe q o).lookup p = some b ↔ bounds.lookup p = some b ∧ (q = p → o < b) := by
  rw [observe, Table.lookup_retain]
  cases found : bounds.lookup p with
  | none => simp
  | some b' =>
    simp only [Option.bind_some, Option.some.injEq]
    split
    · rename_i still
      constructor
      · intro same
        cases same
        exact ⟨rfl, fun eq => still.resolve_left fun ne => ne eq.symm⟩
      · rintro ⟨rfl, -⟩
        rfl
    · rename_i struck
      push Not at struck
      obtain ⟨eq, reached⟩ := struck
      constructor
      · intro bad; cases bad
      · rintro ⟨rfl, below⟩
        exact absurd (below eq.symm) (not_lt.2 reached)

theorem lookup_observeAll :
    (bounds.observeAll seen).lookup p = some b ↔
      bounds.lookup p = some b ∧ ∀ x ∈ seen, x.1 = p → x.2 < b := by
  induction seen generalizing bounds with
  | nil => simp [observeAll]
  | cons x seen ih =>
    rw [show bounds.observeAll (x :: seen) = (bounds.observe x.1 x.2).observeAll seen from rfl, ih,
      lookup_observe, and_assoc, List.forall_mem_cons]

/-- No bound is left open exactly when all are covered. -/
theorem isEmpty_observeAll_iff : (bounds.observeAll seen).isEmpty = true ↔ bounds.Covers seen := by
  rw [Table.isEmpty_iff]
  constructor
  · intro struck p b bound
    by_contra uncovered
    push Not at uncovered
    have left := lookup_observeAll.2 ⟨bound, uncovered⟩
    rw [struck p] at left
    cases left
  · intro covered p
    cases left : (bounds.observeAll seen).lookup p with
    | none => rfl
    | some b =>
      obtain ⟨bound, below⟩ := lookup_observeAll.1 left
      obtain ⟨x, here, same, reached⟩ := covered p b bound
      exact absurd (below x here same) (not_lt.2 reached)

theorem Covers.mono {more : List (P × O)} (covered : bounds.Covers seen) (sub : seen ⊆ more) :
    bounds.Covers more := by
  intro p b bound
  obtain ⟨x, here, reached⟩ := covered p b bound
  exact ⟨x, sub here, reached⟩

/-- What comes after a covering prefix, in a partition whose offsets increase, is above its bound. -/
theorem Covers.above (covered : bounds.Covers seen) (bound : bounds.lookup p = some b)
    (later : ∀ x ∈ seen, x.1 = p → x.2 < o) : b < o := by
  obtain ⟨x, here, same, reached⟩ := covered p b bound
  exact lt_of_le_of_lt reached (later x here same)

end Bounds

end Base
