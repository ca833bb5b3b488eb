import PubSub.Base.Lts

/-!
# Steps that come to an end

Some actions of a system are its own (`internal`); the others are those of its environment. If every
internal step makes a number smaller, the system comes to rest by itself, whatever the order of its
steps: every schedule of internal steps is bounded, and one that cannot be prolonged leads to a state
at rest.
-/

namespace Base.Lts
set_option autoImplicit false

variable {σ α : Type*} {M : Lts σ α} {internal : α → Prop} {I : σ → Prop} {size : σ → Nat}

/-- No internal action is enabled. -/
def AtRest (M : Lts σ α) (internal : α → Prop) (s : σ) : Prop := ∀ a, internal a → M.step s a = none

/-- Internal steps from the states of an invariant keep it and decrease the size. -/
structure Decreasing (M : Lts σ α) (internal : α → Prop) (I : σ → Prop) (size : σ → Nat) : Prop where
  keeps : ∀ s a s', I s → internal a → M.step s a = some s' → I s'
  less : ∀ s a s', I s → internal a → M.step s a = some s' → size s' < size s

/-- A schedule of internal steps is no longer than what the size loses. -/
theorem Decreasing.length_le (decreasing : Decreasing M internal I size) {as : List α} {s s' : σ} (start : I s)
    (own : ∀ a ∈ as, internal a) (run : M.exec s as = some s') : as.length + size s' ≤ size s := by
  induction as generalizing s with
  | nil =>
    cases run
    exact Nat.le_of_eq (Nat.zero_add _)
  | cons a as ih =>
    obtain ⟨t, taken, rest⟩ := Option.bind_eq_some_iff.1 run
    obtain ⟨first, others⟩ := List.forall_mem_cons.1 own
    have bound := ih (decreasing.keeps s a t start first taken) others rest
    have less := decreasing.less s a t start first taken
    rw [List.length_cons]
    omega

/-- Some internal steps lead to rest. -/
theorem Decreasing.exists_atRest (decreasing : Decreasing M internal I size) {s : σ} (start : I s) :
    ∃ as s', (∀ a ∈ as, internal a) ∧ M.exec s as = some s' ∧ AtRest M internal s' := by
  induction bound : size s using Nat.strongRecOn generalizing s with
  | _ n ih =>
    by_cases rest : AtRest M internal s
    · exact ⟨[], s, nofun, rfl, rest⟩
    · obtain ⟨a, own, t, taken⟩ : ∃ a, internal a ∧ ∃ t, M.step s a = some t := by
        by_contra none
        apply rest
        intro a own
        cases taken : M.step s a with
        | none => rfl
        | some t => exact absurd ⟨a, own, t, taken⟩ none
      have less := decreasing.less s a t start own taken
      obtain ⟨as, s', others, run, rest'⟩ := ih (size t) (bound ▸ less) (decreasing.keeps s a t start own taken) rfl
      refine ⟨a :: as, s', List.forall_mem_cons.2 ⟨own, others⟩, ?_, rest'⟩
      rw [exec_cons, taken, Option.bind_some, run]

end Base.Lts
