import Mathlib.Data.List.Basic

/-!
# Systems run by a partial step function

An `Lts` is an initial state and a partial step function: `step s a = none` says that action
`a` is not enabled in `s`. Every source of nondeterminism (who moves next, what the environment
answers) is in the action, so a schedule is a list of actions, `exec` computes where it leads,
and "for every interleaving" is a quantifier over lists.

The two induction rules every safety argument of a client uses are `Reachable.invariant` (a
property of states) and `Along.of_invariant` (a property of steps on the runs all of whose steps
meet a condition; `Along.exec_invariant` for the state at the end); `Along.iff` moves a condition on
steps across an invariant (`Along.iff_of_prefix` if it depends on the run so far). `outputs_invariant`
is the rule for what a state has to do with what the run to it has shown.
-/

namespace Base
set_option autoImplicit false

/-- Where a system starts, and what one action does. -/
structure Lts (σ α : Type*) where
  init : σ
  step : σ → α → Option σ

namespace Lts

variable {σ α : Type*}

/-- The state a schedule leads to, if every action of it is enabled in turn. -/
def exec (M : Lts σ α) : σ → List α → Option σ
  | s, [] => some s
  | s, a :: as => (M.step s a).bind fun s' => M.exec s' as

/-- Some schedule leads from the initial state to `s`. -/
def Reachable (M : Lts σ α) (s : σ) : Prop := ∃ as, M.exec M.init as = some s

/-- `P` holds at every step of the run of `as` from `s`, with the state the step is taken in. -/
def Along (M : Lts σ α) (P : σ → α → Prop) : σ → List α → Prop
  | _, [] => True
  | s, a :: as => ∀ s', M.step s a = some s' → P s a ∧ M.Along P s' as

/-- A step property that can be decided can be decided along a given run. -/
instance decidableAlong (M : Lts σ α) (P : σ → α → Prop) [∀ s a, Decidable (P s a)] :
    ∀ s as, Decidable (M.Along P s as)
  | _, [] => .isTrue trivial
  | s, a :: as =>
    match taken : M.step s a with
    | none => .isTrue fun s' bad => absurd (taken.symm.trans bad) (by simp)
    | some s' =>
      have := decidableAlong M P s' as
      decidable_of_iff (P s a ∧ M.Along P s' as)
        ⟨fun here t other => Option.some.inj (taken.symm.trans other) ▸ here, fun along => along s' taken⟩

/-- What a run shows, when the step from `s` by `a` shows `shown s a`. -/
def outputs {β : Type*} (M : Lts σ α) (shown : σ → α → Option β) : σ → List α → List β
  | _, [] => []
  | s, a :: as => (shown s a).toList ++ (M.step s a).elim [] fun s' => M.outputs shown s' as

variable {M : Lts σ α}

@[simp] theorem exec_nil (s : σ) : M.exec s [] = some s := rfl

@[simp] theorem exec_cons (s : σ) (a : α) (as : List α) :
    M.exec s (a :: as) = (M.step s a).bind fun s' => M.exec s' as := rfl

theorem outputs_cons {β : Type*} {shown : σ → α → Option β} {s s' : σ} {a : α} (as : List α)
    (taken : M.step s a = some s') : M.outputs shown s (a :: as) = (shown s a).toList ++ M.outputs shown s' as := by
  rw [outputs, taken, Option.elim_some]

theorem exec_append (s : σ) (as bs : List α) :
    M.exec s (as ++ bs) = (M.exec s as).bind fun s' => M.exec s' bs := by
  induction as generalizing s with
  | nil => rfl
  | cons a as ih =>
    simp only [List.cons_append, exec_cons, Option.bind_assoc]
    congr 1
    funext s'
    exact ih s'

theorem outputs_append {β : Type*} {shown : σ → α → Option β} {s s' : σ} {as : List α} (bs : List α)
    (run : M.exec s as = some s') : M.outputs shown s (as ++ bs) = M.outputs shown s as ++ M.outputs shown s' bs := by
  induction as generalizing s with
  | nil =>
    cases run
    rfl
  | cons a as ih =>
    obtain ⟨t, taken, rest⟩ := Option.bind_eq_some_iff.1 run
    rw [List.cons_append, outputs_cons _ taken, outputs_cons _ taken, ih rest, List.append_assoc]

theorem along_append {P : σ → α → Prop} {s : σ} {as bs : List α} :
    M.Along P s (as ++ bs) ↔ M.Along P s as ∧ ∀ s', M.exec s as = some s' → M.Along P s' bs := by
  induction as generalizing s with
  | nil => simp [Along]
  | cons a as ih =>
    simp only [List.cons_append, Along, exec_cons, ih]
    constructor
    · intro along
      refine ⟨fun t taken => ⟨(along t taken).1, (along t taken).2.1⟩, fun s' run => ?_⟩
      obtain ⟨t, taken, rest⟩ := Option.bind_eq_some_iff.1 run
      exact (along t taken).2.2 s' rest
    · rintro ⟨along, last⟩ t taken
      refine ⟨(along t taken).1, (along t taken).2, fun s' run => last s' ?_⟩
      rw [taken, Option.bind_some, run]

theorem Reachable.init : M.Reachable M.init := ⟨[], rfl⟩

theorem Reachable.step {s s' : σ} {a : α} (reached : M.Reachable s) (taken : M.step s a = some s') :
    M.Reachable s' := by
  obtain ⟨as, run⟩ := reached
  exact ⟨as ++ [a], by simp [exec_append, run, taken]⟩

theorem Reachable.exec {s s' : σ} {as : List α} (reached : M.Reachable s)
    (run : M.exec s as = some s') : M.Reachable s' := by
  obtain ⟨bs, start⟩ := reached
  exact ⟨bs ++ as, by simp [exec_append, start, run]⟩

/-- A run that leads to `P` enters it at some step, for the first time. -/
theorem exists_crossing {P : σ → Prop} {s s' : σ} {as : List α} (run : M.exec s as = some s')
    (outside : ¬ P s) (inside : P s') :
    ∃ before a after t u, as = before ++ a :: after ∧ M.exec s before = some t ∧ ¬ P t ∧
      M.step t a = some u ∧ P u ∧ M.exec u after = some s' := by
  induction as generalizing s with
  | nil =>
    cases run
    exact absurd inside outside
  | cons a as ih =>
    obtain ⟨t, taken, rest⟩ := Option.bind_eq_some_iff.1 run
    by_cases entered : P t
    · exact ⟨[], a, as, s, t, rfl, rfl, outside, taken, entered, rest⟩
    · obtain ⟨before, b, after, v, w, rfl, first, still, crossing, arrived, last⟩ := ih rest entered
      exact ⟨a :: before, b, after, v, w, rfl, by simp [taken, first], still, crossing, arrived, last⟩

/-- What every step preserves, every run preserves. -/
theorem exec_invariant {I : σ → Prop} (step : ∀ s a s', I s → M.step s a = some s' → I s') :
    ∀ {as : List α} {s s' : σ}, I s → M.exec s as = some s' → I s' := by
  intro as
  induction as with
  | nil => intro s s' here run; cases run; exact here
  | cons a as ih =>
    intro s s' here run
    obtain ⟨t, taken, rest⟩ := Option.bind_eq_some_iff.1 run
    exact ih (step s a t here taken) rest

/-- **The invariant rule.** What holds initially and is preserved by every step from a reachable
state holds in every reachable state. -/
theorem Reachable.invariant {I : σ → Prop} (init : I M.init)
    (step : ∀ s a s', M.Reachable s → I s → M.step s a = some s' → I s') :
    ∀ s, M.Reachable s → I s := by
  rintro s ⟨as, run⟩
  have both : M.Reachable s ∧ I s := by
    refine exec_invariant (I := fun s => M.Reachable s ∧ I s) ?_ ⟨.init, init⟩ run
    rintro s a s' ⟨reached, here⟩ taken
    exact ⟨reached.step taken, step s a s' reached here taken⟩
  exact both.2

/-- What holds at first and is kept by every step, of the state and what was shown on the way to it. -/
theorem outputs_invariant {β : Type*} {shown : σ → α → Option β} {I : List β → σ → Prop} (init : I [] M.init)
    (step : ∀ os s a s', M.Reachable s → I os s → M.step s a = some s' → I (os ++ (shown s a).toList) s')
    {as : List α} {s : σ} (run : M.exec M.init as = some s) : I (M.outputs shown M.init as) s := by
  have walk : ∀ {as : List α} {os : List β} {s s' : σ}, M.Reachable s → I os s → M.exec s as = some s' →
      I (os ++ M.outputs shown s as) s' := by
    intro as
    induction as with
    | nil =>
      intro os s s' _ here run
      cases run
      rwa [outputs, List.append_nil]
    | cons a as ih =>
      intro os s s' reached here run
      obtain ⟨t, taken, rest⟩ := Option.bind_eq_some_iff.1 run
      rw [outputs_cons as taken, ← List.append_assoc]
      exact ih (reached.step taken) (step os s a t reached here taken) rest
  exact walk .init init run

/-- A step property holds along a run if it holds at each step, after what was done before it. -/
theorem along_iff_forall {P : σ → α → Prop} {s : σ} {as : List α} :
    M.Along P s as ↔ ∀ before a after t u, as = before ++ a :: after → M.exec s before = some t →
      M.step t a = some u → P t a := by
  induction as generalizing s with
  | nil => simp [Along]
  | cons a as ih =>
    constructor
    · rintro along (_ | ⟨b, before⟩) c after t u ⟨⟩ run taken
      · cases run
        exact (along u taken).1
      · obtain ⟨s', first, rest⟩ := Option.bind_eq_some_iff.1 run
        exact ih.1 (along s' first).2 before c after t u rfl rest taken
    · intro each s' taken
      refine ⟨each [] a as s s' rfl rfl taken, ih.2 fun before b after t u split run => ?_⟩
      exact each (a :: before) b after t u (by rw [split, List.cons_append]) (by rw [exec_cons, taken]; exact run)

/-- On the runs all of whose steps meet `P`, a step property that follows from `P` and an
invariant holds at every step. -/
theorem Along.of_invariant {I : σ → Prop} {P Q : σ → α → Prop}
    (step : ∀ s a s', I s → P s a → M.step s a = some s' → I s')
    (imp : ∀ s a s', I s → P s a → M.step s a = some s' → Q s a) :
    ∀ {as : List α} {s : σ}, I s → M.Along P s as → M.Along Q s as := by
  intro as
  induction as with
  | nil => intro s _ _; trivial
  | cons a as ih =>
    intro s here along t taken
    obtain ⟨p, rest⟩ := along t taken
    exact ⟨imp s a t here p taken, ih (step s a t here p taken) rest⟩

/-- On a run all of whose steps meet `P`, an invariant of such steps holds at the end. -/
theorem Along.exec_invariant {I : σ → Prop} {P : σ → α → Prop}
    (step : ∀ s a s', I s → P s a → M.step s a = some s' → I s') :
    ∀ {as : List α} {s s' : σ}, I s → M.Along P s as → M.exec s as = some s' → I s' := by
  intro as
  induction as with
  | nil => intro s s' here _ run; cases run; exact here
  | cons a as ih =>
    intro s s' here along run
    obtain ⟨t, taken, rest⟩ := Option.bind_eq_some_iff.1 run
    obtain ⟨p, along⟩ := along t taken
    exact ih (step s a t here p taken) along rest

/-- What holds at every step from a reachable state holds along every run. -/
theorem Along.of_reachable {P : σ → α → Prop}
    (holds : ∀ s a s', M.Reachable s → M.step s a = some s' → P s a) (as : List α) : M.Along P M.init as := by
  have walk : ∀ {as : List α} {s : σ}, M.Reachable s → M.Along P s as := by
    intro as
    induction as with
    | nil => intro s _; trivial
    | cons a as ih => exact fun reached t taken => ⟨holds _ a t reached taken, ih (reached.step taken)⟩
  exact walk .init

/-- Two step properties that agree on the steps of a run, each after what was done before it. -/
theorem Along.iff_of_prefix {P Q : σ → α → Prop} {as : List α}
    (agree : ∀ before s a s', before ++ [a] <+: as → M.exec M.init before = some s → M.step s a = some s' →
      (P s a ↔ Q s a)) : M.Along P M.init as ↔ M.Along Q M.init as := by
  have walk : ∀ {rest before : List α} {s : σ}, before ++ rest = as → M.exec M.init before = some s →
      (M.Along P s rest ↔ M.Along Q s rest) := by
    intro rest
    induction rest with
    | nil => intro before s _ _; exact Iff.rfl
    | cons a rest ih =>
      intro before s whole run
      rw [← List.singleton_append, ← List.append_assoc] at whole
      refine forall_congr' fun t => forall_congr' fun taken => ?_
      have further : M.exec M.init (before ++ [a]) = some t := by simp [exec_append, run, taken]
      rw [agree before s a t ⟨rest, whole⟩ run taken, ih whole further]
  exact walk (List.nil_append as) rfl

/-- Two step properties that agree on reachable states agree along every run. -/
theorem Along.iff {P Q : σ → α → Prop}
    (agree : ∀ s a s', M.Reachable s → M.step s a = some s' → (P s a ↔ Q s a)) (as : List α) :
    M.Along P M.init as ↔ M.Along Q M.init as :=
  Along.iff_of_prefix fun before s a s' _ run taken => agree s a s' ⟨before, run⟩ taken

end Lts

end Base
