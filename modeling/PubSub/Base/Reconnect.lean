import Mathlib.Data.List.Basic

/-!
# Traces of reconnect loops

A loop makes one attempt at the start of each iteration and may rest afterwards. Its trace is
`Spaced` when a rest lies between any two attempts. For a loop whose iterations are described by
what the environment answers, this comes down to one question for each iteration that another one
follows: does it rest?
-/

namespace Base
set_option autoImplicit false

section Traces

variable {E : Type*} (attempt rests : E → Prop)

/-- Between any two attempts there is a rest. -/
def Spaced (t : List E) : Prop :=
  ∀ pre mid post a b, t = pre ++ a :: (mid ++ b :: post) → attempt a → attempt b → ∃ e ∈ mid, rests e

/-- There is a rest before the first attempt. -/
def Rested (t : List E) : Prop :=
  ∀ mid b post, t = mid ++ b :: post → attempt b → ∃ e ∈ mid, rests e

variable {attempt rests} {e : E} {t body : List E}

theorem rested_nil : Rested attempt rests [] := by
  intro mid b post bad
  simp at bad

theorem rested_cons :
    Rested attempt rests (e :: t) ↔ ¬ attempt e ∧ (rests e ∨ Rested attempt rests t) := by
  constructor
  · intro rested
    have first : ¬ attempt e := fun tries => by
      obtain ⟨_, bad, -⟩ := rested [] e t rfl tries
      cases bad
    refine ⟨first, ?_⟩
    by_cases rest : rests e
    · exact .inl rest
    · refine .inr fun mid b post split tries => ?_
      obtain ⟨x, here, rests⟩ := rested (e :: mid) b post (by rw [split]; rfl) tries
      rcases List.mem_cons.1 here with rfl | here
      · exact absurd rests rest
      · exact ⟨x, here, rests⟩
  · rintro ⟨first, rest⟩ mid b post split tries
    cases mid with
    | nil => cases split; exact absurd tries first
    | cons x mid =>
      cases split
      rcases rest with rest | rested
      · exact ⟨e, List.mem_cons_self, rest⟩
      · obtain ⟨y, here, rests⟩ := rested mid b post rfl tries
        exact ⟨y, List.mem_cons_of_mem e here, rests⟩

theorem spaced_nil : Spaced attempt rests [] := by
  intro pre mid post a b bad
  simp at bad

theorem spaced_cons :
    Spaced attempt rests (e :: t) ↔ (attempt e → Rested attempt rests t) ∧ Spaced attempt rests t := by
  constructor
  · intro spaced
    refine ⟨fun tries mid b post split => ?_, fun pre mid post a b split => ?_⟩
    · exact spaced [] mid post e b (by rw [split]; rfl) tries
    · exact spaced (e :: pre) mid post a b (by rw [split]; rfl)
  · rintro ⟨rested, spaced⟩ pre mid post a b split first second
    cases pre with
    | nil => cases split; exact rested first mid b post rfl second
    | cons x pre => cases split; exact spaced pre mid post a b rfl first second

/-- Without an attempt of its own, a stretch leaves the rest of the trace as spaced as it was. -/
theorem spaced_append (quiet : ∀ e ∈ body, ¬ attempt e) :
    Spaced attempt rests (body ++ t) ↔ Spaced attempt rests t := by
  induction body with
  | nil => rfl
  | cons e body ih =>
    obtain ⟨first, others⟩ := List.forall_mem_cons.1 quiet
    rw [List.cons_append, spaced_cons, ih others]
    exact ⟨fun both => both.2, fun spaced => ⟨fun tries => absurd tries first, spaced⟩⟩

theorem rested_append (quiet : ∀ e ∈ body, ¬ attempt e) :
    Rested attempt rests (body ++ t) ↔ (∃ e ∈ body, rests e) ∨ Rested attempt rests t := by
  induction body with
  | nil => simp
  | cons e body ih =>
    obtain ⟨first, others⟩ := List.forall_mem_cons.1 quiet
    rw [List.cons_append, rested_cons, ih others]
    simp only [first, not_false_eq_true, true_and, List.mem_cons, exists_eq_or_imp, or_assoc]

end Traces

section Loops

variable {S R E : Type*}

/-- The traces of a loop's iterations, given what the environment does in each; an iteration that
`stops` is the last one. -/
def iterate (round : S → R → List E × S) (stops : R → Bool) : S → List R → List (List E)
  | _, [] => []
  | s, r :: rs => (round s r).1 :: if stops r then [] else iterate round stops (round s r).2 rs

/-- The iterations that are run. -/
def executed (stops : R → Bool) : List R → List R
  | [] => []
  | r :: rs => r :: if stops r then [] else executed stops rs

/-- The iterations that another one follows. -/
def followed (stops : R → Bool) (rs : List R) : List R := (executed stops rs).dropLast

/-- One iteration: an attempt first, and no other. -/
def OneAttempt (attempt : E → Prop) (t : List E) : Prop :=
  ∃ a body, t = a :: body ∧ attempt a ∧ ∀ e ∈ body, ¬ attempt e

variable {attempt rests : E → Prop} {round : S → R → List E × S} {stops : R → Bool} {resting : R → Prop}

theorem rested_iterate (one : ∀ s r, OneAttempt attempt (round s r).1) (s : S) (rs : List R) :
    Rested attempt rests (iterate round stops s rs).flatten ↔ rs = [] := by
  cases rs with
  | nil => simp [iterate, rested_nil]
  | cons r rs =>
    obtain ⟨a, body, trace, tries, -⟩ := one s r
    simp only [iterate, trace, List.flatten_cons, List.cons_append, rested_cons, tries, not_true_eq_false,
      false_and, reduceCtorEq]

/-- **The loop rule.** A loop is spaced exactly when every iteration that another one follows
rests. -/
theorem spaced_iterate_iff (one : ∀ s r, OneAttempt attempt (round s r).1)
    (rest : ∀ s r, stops r = false → ((∃ e ∈ (round s r).1.tail, rests e) ↔ resting r)) :
    ∀ s rs, Spaced attempt rests (iterate round stops s rs).flatten ↔ ∀ r ∈ followed stops rs, resting r := by
  intro s rs
  induction rs generalizing s with
  | nil => simp [iterate, spaced_nil, followed, executed]
  | cons r rs ih =>
    obtain ⟨a, body, trace, tries, quiet⟩ := one s r
    have split : ∀ t, Spaced attempt rests ((round s r).1 ++ t) ↔
        ((∃ e ∈ (round s r).1.tail, rests e) ∨ Rested attempt rests t) ∧ Spaced attempt rests t := by
      intro t
      rw [trace, List.cons_append, spaced_cons, rested_append quiet, spaced_append quiet, List.tail_cons]
      simp only [tries, true_implies]
    rw [iterate, List.flatten_cons, split, followed, executed]
    cases stop : stops r with
    | true => simp [rested_nil, spaced_nil]
    | false =>
      simp only [Bool.false_eq_true, if_false]
      rw [rest s r stop, rested_iterate one, ih]
      cases rs with
      | nil => simp [followed, executed]
      | cons r' rs => simp [followed, executed]

/-- A loop all of whose iterations rest, but for the last, is spaced. -/
theorem spaced_iterate (one : ∀ s r, OneAttempt attempt (round s r).1)
    (rest : ∀ s r, stops r = false → ∃ e ∈ (round s r).1.tail, rests e) (s : S) (rs : List R) :
    Spaced attempt rests (iterate round stops s rs).flatten := by
  have always : ∀ s r, stops r = false → ((∃ e ∈ (round s r).1.tail, rests e) ↔ True) :=
    fun s r goes => iff_true_intro (rest s r goes)
  exact (spaced_iterate_iff one always s rs).2 fun _ _ => trivial

/-- What looks the same in every iteration from any state looks so all along the loop. -/
theorem map_iterate {β : Type*} (look : List E → β) {b : β} {rs : List R}
    (goes : ∀ r ∈ rs, stops r = false) (same : ∀ s, ∀ r ∈ rs, look (round s r).1 = b) :
    ∀ s, (iterate round stops s rs).map look = List.replicate rs.length b := by
  induction rs with
  | nil => intro s; rfl
  | cons r rs ih =>
    intro s
    obtain ⟨first, others⟩ := List.forall_mem_cons.1 goes
    rw [iterate, List.map_cons, same s r List.mem_cons_self, first, List.length_cons, List.replicate_succ]
    exact congrArg _ (ih others (fun s r here => same s r (List.mem_cons_of_mem _ here)) _)

/-- The traces of iterations, each from the calls made in the ones before it. -/
def byHistory {C : Type*} (calls : R → List C) (trace : List C → R → List E) (rs : List R) : List (List E) :=
  rs.mapIdx fun i r => trace ((rs.take i).flatMap calls) r

/-- **The history rule.** If a state sums up the calls made so far, then it can be left out: the trace of
each iteration depends on the calls made before it. -/
theorem iterate_eq_byHistory {C : Type*} {calls : R → List C} {trace : List C → R → List E}
    {sums : List C → S → Prop}
    (step : ∀ before s r, sums before s → (round s r).1 = trace before r ∧ sums (before ++ calls r) (round s r).2)
    {s : S} (init : sums [] s) (rs : List R) :
    iterate round stops s rs = byHistory calls trace (executed stops rs) := by
  have walk : ∀ (rs : List R) (before : List C) (s : S), sums before s → iterate round stops s rs =
      (executed stops rs).mapIdx fun i r => trace (before ++ ((executed stops rs).take i).flatMap calls) r := by
    intro rs
    induction rs with
    | nil => exact fun _ _ _ => rfl
    | cons r rs ih =>
      intro before s here
      obtain ⟨first, next⟩ := step before s r here
      have later : (if stops r then [] else iterate round stops (round s r).2 rs) =
          (if stops r then [] else executed stops rs).mapIdx fun i r' => trace (before ++ calls r ++
            ((if stops r then [] else executed stops rs).take i).flatMap calls) r' := by
        split
        · rfl
        · exact ih _ _ next
      rw [iterate, executed, first, List.mapIdx_cons, later, List.take_zero, List.flatMap_nil, List.append_nil]
      simp only [List.take_succ_cons, List.flatMap_cons, List.append_assoc]
  exact walk rs [] s init

/-- What shows in the trace of an iteration whatever the state, shows in the whole trace. -/
theorem filter_iterate {look : E → Bool} {seen : R → List E} (same : ∀ s r, (round s r).1.filter look = seen r)
    (s : S) (rs : List R) : (iterate round stops s rs).flatten.filter look = (executed stops rs).flatMap seen := by
  induction rs generalizing s with
  | nil => rfl
  | cons r rs ih =>
    rw [iterate, executed, List.flatten_cons, List.filter_append, same, List.flatMap_cons]
    split
    · rfl
    · rw [ih]

end Loops

end Base
