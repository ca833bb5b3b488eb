import Mathlib.Data.List.Induction
import PubSub.Base.Lts
import PubSub.Base.Table

/-!
# Caches that look a client up or create it

Many callers share a map from keys to clients. A call is served from the map, or creates the client
under an exclusive lock and stores it, or fails to create it; entries are removed from time to
time. A system is such a cache (`GetOrCreate`) if every step shows what it did to the map as an event.
Then between two removals of a key at most one client is created for it, and every call is given this
one (`GetOrCreate.singleCreation`).
-/

namespace Base
set_option autoImplicit false

/-- What happens to the map: call number `call` finds a client, or creates one, or fails to; or the
entries of some keys are removed. -/
inductive CacheEvent (K C : Type*) where
  | found (call : Nat) (k : K) (c : C)
  | created (call : Nat) (k : K) (c : C)
  | refused (call : Nat) (k : K)
  | removed (ks : List K)

namespace CacheEvent

variable {K C : Type*}

/-- What comes of call number `call`, if the event decides it: its client, or no client. -/
def outcome (call : Nat) : CacheEvent K C → Option (Option C)
  | found call' _ c | created call' _ c => if call' = call then some (some c) else none
  | refused call' _ => if call' = call then some none else none
  | removed _ => none

/-- An event that decides one call, with `res`: this call is answered, and no other one. -/
theorem answered {E : Type*} {before after : Nat → Option (Except E C)} {call : Nat} {e : CacheEvent K C}
    (res : Except E C) (now : ∀ call', after call' = if call' = call then some res else before call')
    (waiting : before call = none)
    (decides : ∀ call', e.outcome call' = if call = call' then some res.toOption else none) (call' : Nat) :
    match (some e).bind (outcome call') with
    | none => after call' = before call'
    | some (some c) => before call' = none ∧ after call' = some (.ok c)
    | some none => before call' = none ∧ ∃ err, after call' = some (.error err) := by
  rw [now]
  by_cases same : call = call'
  · subst same
    simp only [Option.bind_some, decides, if_true]
    cases res with
    | ok c => exact ⟨waiting, rfl⟩
    | error err => exact ⟨waiting, err, rfl⟩
  · simp only [Option.bind_some, decides, if_neg same, if_neg (Ne.symm same)]

variable [DecidableEq K]

/-- The client that a call on `k` is given. -/
def gives (k : K) : CacheEvent K C → Option C
  | found _ k' c | created _ k' c => if k' = k then some c else none
  | refused .. | removed _ => none

def creates (k : K) : CacheEvent K C → Bool
  | created _ k' _ => k' = k
  | found .. | refused .. | removed _ => false

def removes (k : K) : CacheEvent K C → Bool
  | removed ks => ks.contains k
  | found .. | created .. | refused .. => false

/-- When an event can happen, and what becomes of the map. -/
inductive Serves : (K → Option C) → CacheEvent K C → (K → Option C) → Prop
  | found {m : K → Option C} {k : K} {c : C} (call : Nat) (stored : m k = some c) : Serves m (found call k c) m
  | created {m : K → Option C} {k : K} (call : Nat) (c : C) (absent : m k = none) :
      Serves m (created call k c) fun k' => if k' = k then some c else m k'
  | refused {m : K → Option C} {k : K} (call : Nat) (absent : m k = none) : Serves m (refused call k) m
  | removed {m : K → Option C} {ks : List K} (stored : ∀ k ∈ ks, (m k).isSome) :
      Serves m (removed ks) fun k => if k ∈ ks then none else m k

/-- A sequence of events. -/
inductive Run : (K → Option C) → List (CacheEvent K C) → (K → Option C) → Prop
  | nil (m : K → Option C) : Run m [] m
  | cons {m m' m'' : K → Option C} {e : CacheEvent K C} {es : List (CacheEvent K C)} (first : Serves m e m')
      (rest : Run m' es m'') : Run m (e :: es) m''

variable {m m' : K → Option C} {e : CacheEvent K C} {es : List (CacheEvent K C)} {k : K} {c : C}

theorem Serves.eq_of_not_removed (serves : Serves m e m') (kept : e.removes k = false) (stored : m k = some c) :
    m' k = some c ∧ e.creates k = false ∧ ∀ c' ∈ e.gives k, c' = c := by
  cases serves with
  | @found k' c' call there =>
    refine ⟨stored, rfl, fun c'' given => ?_⟩
    simp only [gives, Option.mem_def, Option.ite_none_right_eq_some, Option.some.injEq] at given
    obtain ⟨rfl, rfl⟩ := given
    exact Option.some.inj (there.symm.trans stored)
  | @created k' call c' absent =>
    have other : k' ≠ k := by
      rintro rfl
      rw [absent] at stored
      cases stored
    refine ⟨(if_neg (Ne.symm other)).trans stored, by simp [creates, other], fun c'' given => ?_⟩
    simp [gives, other] at given
  | refused call absent => exact ⟨stored, rfl, fun c' given => by cases given⟩
  | @removed ks there =>
    have unlisted : k ∉ ks := by simpa [removes] using kept
    exact ⟨(if_neg unlisted).trans stored, rfl, fun c' given => by cases given⟩

/-- While an entry is there, no client is created for its key, and each call is given the one stored. -/
theorem Run.stored (run : Run m es m') (kept : ∀ e ∈ es, e.removes k = false) (stored : m k = some c) :
    es.countP (creates k) = 0 ∧ ∀ c' ∈ es.filterMap (gives k), c' = c := by
  induction run with
  | nil m => simp
  | @cons m m₁ m₂ e es first rest ih =>
    obtain ⟨keptFirst, keptRest⟩ := List.forall_mem_cons.1 kept
    obtain ⟨still, uncreated, given⟩ := first.eq_of_not_removed keptFirst stored
    obtain ⟨none, others⟩ := ih keptRest still
    refine ⟨by rw [List.countP_cons_of_neg (by simp [uncreated]), none], fun c' here => ?_⟩
    obtain ⟨e', listed, gave⟩ := List.mem_filterMap.1 here
    rcases List.mem_cons.1 listed with rfl | later
    · exact given c' gave
    · exact others c' (List.mem_filterMap.2 ⟨e', later, gave⟩)

/-- **Single creation.** While no entry of `k` is removed, at most one client is created for it, and
all calls on `k` are given the same one. -/
theorem Run.single (run : Run m es m') (kept : ∀ e ∈ es, e.removes k = false) :
    es.countP (creates k) ≤ 1 ∧ ∀ c ∈ es.filterMap (gives k), ∀ c' ∈ es.filterMap (gives k), c = c' := by
  induction run with
  | nil m => simp
  | @cons m m₁ m₂ e es first rest ih =>
    obtain ⟨keptFirst, keptRest⟩ := List.forall_mem_cons.1 kept
    cases before : m k with
    | some c =>
      obtain ⟨none, same⟩ := (Run.cons first rest).stored kept before
      refine ⟨by omega, fun c₁ here c₂ there => ?_⟩
      rw [same c₁ here, same c₂ there]
    | none =>
      by_cases made : e.creates k = true
      · -- the one creation
        cases first with
        | @created k' call c absent =>
          obtain rfl : k' = k := by simpa [creates] using made
          obtain ⟨none, same⟩ := rest.stored keptRest (if_pos rfl)
          have all : ∀ c' ∈ (CacheEvent.created call k' c :: es).filterMap (gives k'), c' = c := by
            intro c' here
            have given : (CacheEvent.created call k' c).gives k' = some c := if_pos rfl
            rw [List.filterMap_cons_some given] at here
            exact (List.mem_cons.1 here).elim id (same c')
          refine ⟨by rw [List.countP_cons_of_pos made, none], fun c₁ here c₂ there => ?_⟩
          rw [all c₁ here, all c₂ there]
        | _ => cases made
      · have ungiven : e.gives k = none := by
          cases first with
          | @found k' c call there =>
            have other : k' ≠ k := by
              rintro rfl
              rw [before] at there
              cases there
            simp [gives, other]
          | @created k' call c absent => simpa [gives, creates] using made
          | refused call absent => rfl
          | removed there => rfl
        obtain ⟨once, same⟩ := ih keptRest
        rw [List.countP_cons_of_neg made, List.filterMap_cons_none ungiven]
        exact ⟨once, same⟩

end CacheEvent

section Systems

variable {σ α K V C E : Type*} [DecidableEq K]

/-- A system whose map of `client`s changes as the events of its steps say, and whose calls are
answered by them: `answer` is what a call returns, or will return without looking at the map
again. -/
structure GetOrCreate (M : Lts σ α) (map : σ → Table K V) (client : V → C)
    (event : σ → α → Option (CacheEvent K C)) (answer : σ → Nat → Option (Except E C)) : Prop where
  serves : ∀ s a s', M.Reachable s → M.step s a = some s' → ∀ e, event s a = some e →
    CacheEvent.Serves (fun k => ((map s).lookup k).map client) e fun k => ((map s').lookup k).map client
  silent : ∀ s a s', M.Reachable s → M.step s a = some s' → event s a = none →
    ∀ k, ((map s').lookup k).map client = ((map s).lookup k).map client
  /-- A creation that fails leaves the whole map alone. -/
  refused : ∀ s a s' call k, M.Reachable s → M.step s a = some s' → event s a = some (.refused call k) →
    map s' = map s ∧ (map s').lookup k = none ∧ ∃ e, answer s' call = some (.error e)
  unanswered : ∀ call, answer M.init call = none
  /-- A call is answered once, with what the event makes of it. -/
  answered : ∀ s a s' call, M.Reachable s → M.step s a = some s' →
    match (event s a).bind (CacheEvent.outcome call) with
    | none => answer s' call = answer s call
    | some (some c) => answer s call = none ∧ answer s' call = some (.ok c)
    | some none => answer s call = none ∧ ∃ err, answer s' call = some (.error err)

namespace GetOrCreate

variable {M : Lts σ α} {map : σ → Table K V} {client : V → C} {event : σ → α → Option (CacheEvent K C)}
  {answer : σ → Nat → Option (Except E C)} (cache : GetOrCreate M map client event answer) {s s' : σ} {as : List α}
  {call : Nat} {c : C}
include cache

/-- The events of a run are a sequence of events of the map. -/
theorem run (reached : M.Reachable s) (ran : M.exec s as = some s') :
    CacheEvent.Run (fun k => ((map s).lookup k).map client) (M.outputs event s as)
      fun k => ((map s').lookup k).map client := by
  induction as generalizing s with
  | nil =>
    cases ran
    exact .nil _
  | cons a as ih =>
    obtain ⟨t, taken, rest⟩ := Option.bind_eq_some_iff.1 ran
    have later := ih (reached.step taken) rest
    rw [Lts.outputs_cons as taken]
    cases shown : event s a with
    | none => rwa [funext (cache.silent s a t reached taken shown)] at later
    | some e => exact .cons (cache.serves s a t reached taken e shown) later

/-- A call has the client for its answer that an event of the run made of it. -/
theorem answer_iff (ran : M.exec M.init as = some s) :
    answer s call = some (.ok c) ↔ ∃ e ∈ M.outputs event M.init as, e.outcome call = some (some c) := by
  induction as using List.reverseRecOn generalizing s c with
  | nil =>
    cases ran
    rw [cache.unanswered]
    simp [Lts.outputs]
  | append_singleton as a ih =>
    rw [Lts.exec_append] at ran
    obtain ⟨t, before, last⟩ := Option.bind_eq_some_iff.1 ran
    obtain ⟨s', taken, same⟩ := Option.bind_eq_some_iff.1 last
    cases same
    have split : M.outputs event M.init (as ++ [a]) = M.outputs event M.init as ++ (event t a).toList := by
      rw [Lts.outputs_append _ before, Lts.outputs_cons _ taken]
      exact congrArg _ (List.append_nil _)
    have latest : (∃ e ∈ M.outputs event M.init (as ++ [a]), e.outcome call = some (some c)) ↔
        answer t call = some (.ok c) ∨ (event t a).bind (CacheEvent.outcome call) = some (some c) := by
      simp only [split, List.mem_append, Option.mem_toList, or_and_right, exists_or, ih before,
        Option.bind_eq_some_iff]
    rw [latest]
    have answered := cache.answered t a s call ⟨as, before⟩ taken
    cases made : (event t a).bind (CacheEvent.outcome call) with
    | none =>
      rw [made] at answered
      simp [answered]
    | some outcome =>
      rw [made] at answered
      cases outcome with
      | some c' =>
        obtain ⟨open', given⟩ := answered
        simp [open', given]
      | none =>
        obtain ⟨open', err, failed⟩ := answered
        simp [open', failed]

end GetOrCreate

/-- Between two removals of a key at most one client is created for it, which all calls on the key are
given, and which they return. -/
structure SingleCreation (M : Lts σ α) (map : σ → Table K V) (client : V → C)
    (event : σ → α → Option (CacheEvent K C)) (answer : σ → Nat → Option (Except E C)) : Prop
    extends GetOrCreate M map client event answer where
  once : ∀ as s bs s' k, M.exec M.init as = some s → M.exec s bs = some s' →
    (∀ e ∈ M.outputs event s bs, e.removes k = false) →
      (M.outputs event s bs).countP (CacheEvent.creates k) ≤ 1 ∧
        ∀ c ∈ (M.outputs event s bs).filterMap (CacheEvent.gives k),
          ∀ c' ∈ (M.outputs event s bs).filterMap (CacheEvent.gives k), c = c'
  returns : ∀ as s call c, M.exec M.init as = some s →
    (answer s call = some (.ok c) ↔ ∃ e ∈ M.outputs event M.init as, e.outcome call = some (some c))

theorem GetOrCreate.singleCreation {M : Lts σ α} {map : σ → Table K V} {client : V → C}
    {event : σ → α → Option (CacheEvent K C)} {answer : σ → Nat → Option (Except E C)}
    (cache : GetOrCreate M map client event answer) : SingleCreation M map client event answer where
  toGetOrCreate := cache
  once as _ _ _ _ ran more kept := (cache.run ⟨as, ran⟩ more).single kept
  returns _ _ _ _ ran := cache.answer_iff ran

end Systems

end Base
