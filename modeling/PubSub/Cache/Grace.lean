import PubSub.Cache.Invariants

/-!
# The grace period

What a pass evicts, against how long the runtime has really been without a listener. The time
stamp of an entry is set at its creation and by the passes that find a listener, and by nothing
else (`Stamped`), so a listener that comes and goes between two passes leaves no trace in it.
-/

namespace PubSub.Cache
set_option autoImplicit false
open Base

/-- Every entry carries the sample of the last pass that found a listener of its runtime, or the
clock of its creation. -/
structure Stamped (s : State) : Prop where
  entry : ∀ key e rt, s.map.lookup key = some e → s.runtimes.lookup e.runtime = some rt →
    e.lastUsed = rt.seenAt
  building : ∀ key e rt, s.building = some (key, e) → s.runtimes.lookup e.runtime = some rt →
    e.lastUsed = rt.seenAt

/-- A pass drops only entries whose runtime has had no listener for `evictAfterIdle`. -/
def EvictsIdle (s : State) : Action → Prop
  | .reap =>
    match s.reaper with
    | .waiting now => ∀ e ∈ s.map.entries, (s.reap now).map.lookup e.1 = none →
        ∀ rt ∈ s.runtimes.lookup e.2.runtime,
          rt.channel.receiverCount = 0 ∧ rt.idleSince + evictAfterIdle ≤ s.clock
    | _ => True
  | _ => True

/-- A pass meets no live runtime that lost its last listener within `evictAfterIdle` although no
pass sampled within `evictAfterIdle` before this one has seen it with a listener. -/
def SeesListeners (s : State) : Action → Prop
  | .reap =>
    match s.reaper with
    | .waiting now => ∀ r ∈ s.runtimes.entries, r.2.cancelled = false →
        r.2.channel.receiverCount = 0 → s.clock < r.2.idleSince + evictAfterIdle →
          now < r.2.seenAt + evictAfterIdle
    | _ => True
  | _ => True

instance (s : State) (a : Action) : Decidable (EvictsIdle s a) := by
  unfold EvictsIdle
  split <;> (try split) <;> infer_instance

variable {ring : Ring} {s s' : State} {a : Action}

theorem Stamped.init : Stamped init where
  entry := by simp [Cache.init]
  building := by simp [State.building, Cache.init]

/-- The steps that leave the map, the construction and the passes' history alone. -/
theorem Stamped.frame (stamped : Stamped s) (reg : Registry s) {t : State} (map : t.map = s.map)
    (building : t.building = s.building)
    (seen : ∀ r rt', r ≠ s.nextRuntime → t.runtimes.lookup r = some rt' →
      ∃ rt, s.runtimes.lookup r = some rt ∧ rt'.seenAt = rt.seenAt) : Stamped t := by
  constructor
  · intro key e rt' found runtime
    rw [map] at found
    obtain ⟨rt, before, same⟩ := seen e.runtime rt' (reg.old found) runtime
    rw [same]
    exact stamped.entry key e rt found before
  · intro key e rt' built runtime
    rw [building] at built
    obtain ⟨-, h, handle, -⟩ := reg.building key e built
    obtain ⟨rt, before, same⟩ := seen e.runtime rt' (Nat.ne_of_lt (reg.fresh _ h handle)) runtime
    rw [same]
    exact stamped.building key e rt built before

/-- A pass stamps the entry and the history alike. -/
theorem Stamped.reap (stamped : Stamped s) (free : s.creating = none) (now : Nat) : Stamped (s.reap now) := by
  constructor
  · intro key kept rt' found runtime
    simp only [State.reap, Table.lookup_retain] at found runtime
    obtain ⟨entry, stored, keep⟩ := Option.bind_eq_some_iff.1 found
    obtain ⟨rt, before, passed⟩ := Option.bind_eq_some_iff.1 runtime
    cases passed
    rw [CachedRuntime.retained_runtime keep] at before
    have count : s.receiverCount entry = rt.channel.receiverCount := by
      simp only [State.receiverCount, before]
    have stamp := stamped.entry key entry rt stored before
    rw [count] at keep
    have seen : ∀ gone : Bool, ((if gone then rt.dropEntry else rt).passed now).seenAt =
        if rt.channel.receiverCount > 0 then now else rt.seenAt := by
      intro gone
      cases gone <;> rfl
    rw [seen]
    unfold CachedRuntime.retained at keep
    split at keep
    · rename_i heard
      cases keep
      rw [if_pos heard]
    · rename_i unheard
      rw [if_neg unheard]
      split at keep <;> cases keep
      exact stamp
  · intro key e rt built
    rw [show (s.reap now).building = s.building from rfl] at built
    simp [State.building, free] at built

/-- Every step keeps the time stamps in line with the passes. -/
theorem Stamped.step (stamped : Stamped s) (reg : Registry s) (taken : Step ring s a s') :
    Stamped s' := by
  have seen : a ≠ .reap → ∀ r rt', r ≠ s.nextRuntime → s'.runtimes.lookup r = some rt' →
      ∃ rt, s.runtimes.lookup r = some rt ∧ rt'.seenAt = rt.seenAt := by
    intro other r rt' old found
    obtain ⟨fresh, -⟩ | ⟨rt, before, moves⟩ := taken.runtime_cases found
    · exact absurd fresh old
    · refine ⟨rt, before, ?_⟩
      cases moves with
      | passed pass => exact absurd pass other
      | _ => rfl
  cases taken with
  | tick d => exact stamped.frame reg rfl rfl (seen (by simp))
  | readHit free found => exact stamped.frame reg rfl rfl (seen (by simp))
  | readMiss free absent => exact stamped.frame reg rfl rfl (seen (by simp))
  | writeHit free found => exact stamped.frame reg rfl rfl (seen (by simp))
  | create free absent =>
    constructor
    · intro key e rt found runtime
      simp only [State.create, Table.lookup_insert_eq_ite, reg.old found, if_false] at runtime
      exact stamped.entry key e rt found runtime
    · intro key e rt built runtime
      cases built
      simp only [State.create, Table.lookup_insert_eq_ite, if_true] at runtime
      cases runtime
      rfl
  | subscribe open' => exact stamped.frame reg rfl (by simp [State.building, open']) (seen (by simp))
  | @insert key entry n open' =>
    have built : s.building = some (key, entry) := by simp [State.building, open']
    constructor
    · intro key' e rt found runtime
      rw [Table.lookup_insert_eq_ite] at found
      split at found
      · cases found
        exact stamped.building key entry rt built runtime
      · exact stamped.entry key' e rt found runtime
    · intro key' e rt built'
      cases built'
  | abandon key => exact stamped.frame reg rfl rfl (seen (by simp))
  | poll held runtime read => exact stamped.frame reg rfl rfl (seen (by simp))
  | drop held => exact stamped.frame reg rfl rfl (seen (by simp))
  | send m runtime running => exact stamped.frame reg rfl rfl (seen (by simp))
  | exit runtime running cancelled => exact stamped.frame reg rfl rfl (seen (by simp))
  | wake asleep due => exact stamped.frame reg rfl rfl (seen (by simp))
  | reap free waiting => exact stamped.reap free _

theorem stamped_of_reachable : (system ring).Reachable s → Stamped s :=
  Lts.Reachable.invariant .init
    (fun _ _ _ reached stamped taken =>
      stamped.step (consistent_of_reachable reached).registry (.of_step taken)) s

/-- What a pass drops: the stored entries whose runtime has no listener and was last seen with
one, or created, `evictAfterIdle` before the sample. -/
theorem reap_lookup_eq_none_iff (stamped : Stamped s) {key : CacheKey} {entry : CachedRuntime}
    {rt : Runtime} (stored : s.map.lookup key = some entry)
    (runtime : s.runtimes.lookup entry.runtime = some rt) (now : Nat) :
    (s.reap now).map.lookup key = none ↔
      rt.channel.receiverCount = 0 ∧ rt.seenAt + evictAfterIdle ≤ now := by
  have count : s.receiverCount entry = rt.channel.receiverCount := by
    simp only [State.receiverCount, runtime]
  simp only [State.reap, Table.lookup_retain, stored, Option.bind_some]
  rw [CachedRuntime.retained_eq_none_iff, count, stamped.entry key entry rt stored runtime]

/-- One pass from a reachable state: it honours the grace period exactly when it has seen the
listeners. -/
theorem evictsIdle_iff_seesListeners (reached : (system ring).Reachable s)
    (taken : step ring s a = some s') : EvictsIdle s a ↔ SeesListeners s a := by
  have reg := (consistent_of_reachable reached).registry
  have stamped := stamped_of_reachable reached
  cases Step.of_step taken with
  | @reap now free waiting =>
    simp only [EvictsIdle, SeesListeners, waiting]
    constructor
    · rintro idle ⟨r, rt⟩ listed alive unheard recent
      have runtime : s.runtimes.lookup r = some rt := Table.lookup_of_mem listed
      rcases reg.live r rt.handle (by simp [State.handleOf, runtime]) alive with
        ⟨entry, stored, rfl⟩ | ⟨_, _, built, -⟩
      · by_contra late
        have dropped := (reap_lookup_eq_none_iff stamped stored runtime now).2
          ⟨unheard, Nat.le_of_not_lt late⟩
        have := (idle ⟨_, entry⟩ (Table.mem_of_lookup stored) dropped rt runtime).2
        dsimp only at recent
        omega
      · simp [State.building, free] at built
    · rintro seen ⟨key, entry⟩ listed dropped rt runtime
      have stored : s.map.lookup key = some entry := Table.lookup_of_mem listed
      obtain ⟨unheard, late⟩ := (reap_lookup_eq_none_iff stamped stored runtime now).1 dropped
      refine ⟨unheard, ?_⟩
      obtain ⟨h, handle, -, alive⟩ := reg.entry key entry stored
      simp only [State.handleOf, Option.mem_def.1 runtime, Option.map_some, Option.some.injEq] at handle
      subst handle
      by_contra recent
      have := seen ⟨entry.runtime, rt⟩ (Table.mem_of_lookup runtime) alive unheard (by dsimp only; omega)
      dsimp only at this
      omega
  | _ => exact Iff.rfl

/-- **The grace period.** On every run, the passes evict only runtimes that have had no listener
for `evictAfterIdle` exactly when no pass overlooked a listener that left within this time. -/
theorem grace_period_iff (ring : Ring) (as : List Action) :
    (system ring).Along EvictsIdle init as ↔ (system ring).Along SeesListeners init as :=
  Lts.Along.iff (M := system ring) (fun _ _ _ => evictsIdle_iff_seesListeners) as

/-- A pass that finds nothing to do. -/
def idlePass : List Action := [.tick reaperInterval, .wake, .reap]

/-- A subscriber that leaves after a second, five passes, a second subscriber that leaves in the
sixtieth second, and the pass at its end. -/
def briefVisit : List Action :=
  let key : CacheKey := ⟨"localhost", "topic", .Kafka⟩
  [.read key, .write key, .subscribe, .insert, .tick (fromSecs 1), .drop 0, .tick (fromSecs 9), .wake, .reap]
    ++ idlePass ++ idlePass ++ idlePass ++ idlePass
    ++ [.tick (fromSecs 9), .read key, .drop 1, .tick (fromSecs 1), .wake, .reap]

/-- The last pass evicts the runtime one second after its listener left. -/
theorem briefVisit_evicted : ¬ (system powerOfTwo).Along EvictsIdle init briefVisit := by decide

end PubSub.Cache
