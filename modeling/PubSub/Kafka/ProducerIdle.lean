import PubSub.Kafka.ProducerCalls

/-!
# Idle producers are evicted

Whoever holds the cell of a host's entry is a call on that host, so a stored entry carries the clock value
of a call on its own host that has returned since. The first pass that reads the clock `EVICT_AFTER_IDLE`
after the last return finds the entry old enough: the floor of a later clock value is not below the floor
of an earlier one.
-/

namespace PubSub.Kafka.ProducerCache
set_option autoImplicit false
open Base

section Cells

variable {K : Type}

/-- The host's entry, or the entry that a call on it has cloned, has its time stamp in cell `n`. -/
def Names (s : State K) (host : String) (n : Nat) : Prop :=
  (∃ entry, s.map.lookup host = some entry ∧ entry.lastUsedEpochSecs = n) ∨
  ∃ c call entry, s.calls.lookup c = some call ∧ call.host = host ∧ call.phase = .hit entry ∧
    entry.lastUsedEpochSecs = n

variable {s t : State K}

/-- A call that moves on names the cell of the entry it clones, if it clones one. -/
theorem names_insert {c : Nat} {call : Call K} {phase : Phase K} (map : t.map = s.map)
    (calls : t.calls = s.calls.insert c { call with phase := phase })
    (clones : ∀ entry, phase = .hit entry → s.map.lookup call.host = some entry) (host : String) (n : Nat)
    (named : Names t host n) : Names s host n := by
  rcases named with ⟨entry, stored, same⟩ | ⟨c', call', entry, there, mine, hit, same⟩
  · exact .inl ⟨entry, map ▸ stored, same⟩
  · rw [calls, Table.lookup_insert_eq_ite] at there
    split at there
    · cases there
      exact .inl ⟨entry, mine ▸ clones entry hit, same⟩
    · exact .inr ⟨c', call', entry, there, mine, hit, same⟩

variable [LinearOrder K]

/-- A call on the host has returned, not before `t`. -/
def ReturnedSince (s : State K) (host : String) (t : K) : Prop :=
  ∃ c call at' res, s.calls.lookup c = some call ∧ call.host = host ∧ call.phase = .returned at' res ∧ t ≤ at'

/-- A call that has not returned moves on: what has returned stays so. -/
theorem ReturnedSince.insert {c : Nat} {call call' : Call K} (found : s.calls.lookup c = some call)
    (running : ∀ at' res, call.phase ≠ .returned at' res) (calls : t.calls = s.calls.insert c call')
    {host : String} {at' : K} (since : ReturnedSince s host at') : ReturnedSince t host at' := by
  obtain ⟨c', old, end', res, there, same, phase, late⟩ := since
  refine ⟨c', old, end', res, ?_, same, phase, late⟩
  rw [calls, Table.lookup_insert_eq_ite]
  split
  · subst_vars
    rw [found] at there
    cases there
    exact absurd phase (running _ _)
  · exact there

variable [Semiring K]

/-- The clock values that the calls have read are in the past. -/
structure Clocked (s : State K) : Prop where
  clock : 0 ≤ s.clock
  sampled : ∀ c call, s.calls.lookup c = some call → 0 ≤ call.sampled ∧ call.sampled ≤ s.clock

variable [FloorSemiring K]

/-- No cell belongs to two hosts, and the time stamp in it is the second of a clock value that is not later
than some return of a call on its host. -/
structure Owned (s : State K) : Prop where
  old : ∀ host n, Names s host n → n < s.nextEntry
  one : ∀ host host' n, Names s host n → Names s host' n → host = host'
  used : ∀ host n cell, Names s host n → s.cells.lookup n = some cell →
    ∃ t, 0 ≤ t ∧ cell.secs = nowSecs t ∧ ReturnedSince s host t

theorem Owned.init : Owned (init : State K) where
  old := by simp [Names, ProducerCache.init]
  one := by simp [Names, ProducerCache.init]
  used := by simp [Names, ProducerCache.init]

/-- The steps that store no time stamp and hand no cell to another host. -/
theorem Owned.frame (owned : Owned s) (names : ∀ host n, Names t host n → Names s host n)
    (next : t.nextEntry = s.nextEntry)
    (cells : ∀ n cell', t.cells.lookup n = some cell' →
      ∃ cell, s.cells.lookup n = some cell ∧ cell'.secs = cell.secs)
    (returned : ∀ host at', ReturnedSince s host at' → ReturnedSince t host at') : Owned t := by
  constructor
  · intro host n named
    rw [next]
    exact owned.old host n (names host n named)
  · intro host host' n mine yours
    exact owned.one host host' n (names host n mine) (names host' n yours)
  · intro host n cell' named found
    obtain ⟨cell, before, same⟩ := cells n cell' found
    obtain ⟨at', nonneg, second, since⟩ := owned.used host n cell (names host n named) before
    exact ⟨at', nonneg, same.trans second, returned host _ since⟩

/-- The store of a call that found `entry`, and its return. -/
theorem Owned.store (owned : Owned s) (clocked : Clocked s) {c : Nat} {call : Call K} {entry : ProducerCacheEntry}
    {f : Cell K → Cell K} {res : Except KafkaError Nat} (found : s.calls.lookup c = some call)
    (running : ∀ at' res, call.phase ≠ .returned at' res)
    (mine : Names s call.host entry.lastUsedEpochSecs) (stamps : ∀ cell, (f cell).secs = nowSecs call.sampled)
    (map : t.map = s.map) (next : t.nextEntry = s.nextEntry)
    (cells : t.cells = s.cells.modify entry.lastUsedEpochSecs f)
    (calls : t.calls = s.calls.insert c { call with phase := .returned s.clock res }) : Owned t := by
  have names : ∀ host n, Names t host n → Names s host n :=
    names_insert map calls fun _ hit => (by cases hit)
  constructor
  · intro host n named
    rw [next]
    exact owned.old host n (names host n named)
  · intro host host' n one other
    exact owned.one host host' n (names host n one) (names host' n other)
  · intro host n cell' named there
    rw [cells, Table.lookup_modify] at there
    obtain ⟨cell, before, rfl⟩ := Option.map_eq_some_iff.1 there
    by_cases same : n = entry.lastUsedEpochSecs
    · subst same
      rw [if_pos rfl, stamps]
      have past := clocked.sampled c call found
      refine ⟨call.sampled, past.1, rfl, c, { call with phase := .returned s.clock res }, s.clock, res, ?_, ?_, rfl,
        past.2⟩
      · rw [calls, Table.lookup_insert_eq_ite, if_pos rfl]
      · exact owned.one _ _ _ mine (names host _ named)
    · rw [if_neg same]
      obtain ⟨at', nonneg, second, since⟩ := owned.used host n cell (names host n named) before
      exact ⟨at', nonneg, second, since.insert found running calls⟩

end Cells

variable {K : Type} [Semiring K] [LinearOrder K] [FloorSemiring K]

/-- A pass leaves no entry of a host on which every call had returned `EVICT_AFTER_IDLE` before it read the
clock. -/
def EvictsStale (s : State K) : Action K → Prop
  | .reap => ∀ s' sampled, step s .reap = some s' → s.reaper = .waiting sampled → ∀ host,
      (∀ c call, s.calls.lookup c = some call → call.host = host →
        ∃ at' res, call.phase = .returned at' res ∧ at' + asSecs Cache.evictAfterIdle ≤ sampled) →
      s'.map.lookup host = none
  | _ => True

variable {s s' : State K} {a : Action K}

/-- The entry of a call that creates the producer gets a cell of its own. -/
theorem Owned.create (owned : Owned s) (clocked : Clocked s) {c : Nat} {call : Call K}
    (found : s.calls.lookup c = some call) (running : ∀ at' res, call.phase ≠ .returned at' res) :
    Owned (s.create c call) := by
  have names : ∀ host n, Names (s.create c call) host n →
      Names s host n ∨ (host = call.host ∧ n = s.nextEntry) := by
    rintro host n (⟨entry, stored, same⟩ | ⟨c', call', entry, there, mine, hit, same⟩)
    · simp only [State.create, Table.lookup_insert_eq_ite] at stored
      split at stored
      · cases stored
        exact .inr ⟨‹_›, same.symm⟩
      · exact .inl (.inl ⟨entry, stored, same⟩)
    · simp only [State.create, State.advance, Table.lookup_insert_eq_ite] at there
      split at there
      · cases there
        cases hit
      · exact .inl (.inr ⟨c', call', entry, there, mine, hit, same⟩)
  constructor
  · intro host n named
    have next : (s.create c call).nextEntry = s.nextEntry + 1 := rfl
    rcases names host n named with before | ⟨-, fresh⟩
    · have := owned.old host n before
      omega
    · omega
  · intro host host' n one other
    rcases names host n one with before | ⟨here, fresh⟩ <;>
      rcases names host' n other with before' | ⟨here', fresh'⟩
    · exact owned.one host host' n before before'
    · have := owned.old host n before
      omega
    · have := owned.old host' n before'
      omega
    · rw [here, here']
  · intro host n cell named there
    simp only [State.create, Table.lookup_insert_eq_ite] at there
    rcases names host n named with before | ⟨rfl, rfl⟩
    · rw [if_neg (Nat.ne_of_lt (owned.old host n before))] at there
      obtain ⟨at', nonneg, second, since⟩ := owned.used host n cell before there
      exact ⟨at', nonneg, second, since.insert found running rfl⟩
    · rw [if_pos rfl] at there
      cases there
      have past := clocked.sampled c call found
      refine ⟨call.sampled, past.1, rfl, c, { call with phase := .returned s.clock (.ok s.nextEntry) }, s.clock, _, ?_,
        rfl, rfl, past.2⟩
      simp only [State.create, State.advance, Table.lookup_insert_eq_ite, if_true]

/-- Every step keeps the cells with their hosts. -/
theorem Owned.step (owned : Owned s) (clocked : Clocked s) (numbered : Numbered s) (taken : Step s a s') :
    Owned s' := by
  have same : ∀ n cell', s.cells.lookup n = some cell' →
      ∃ cell, s.cells.lookup n = some cell ∧ cell'.secs = cell.secs :=
    fun _ cell found => ⟨cell, found, rfl⟩
  cases taken with
  | tick nonneg => exact owned.frame (fun _ _ => id) rfl same fun _ _ => id
  | begin host =>
    refine owned.frame (fun host' n named => ?_) rfl same fun host' at' since => ?_
    · rcases named with stored | ⟨c, call, entry, there, mine, hit, same⟩
      · exact .inl stored
      · simp only [Table.lookup_insert_eq_ite] at there
        split at there
        · cases there
          cases hit
        · exact .inr ⟨c, call, entry, there, mine, hit, same⟩
    · obtain ⟨c, call, end', res, there, mine, phase, late⟩ := since
      refine ⟨c, call, end', res, ?_, mine, phase, late⟩
      rw [Table.lookup_insert_eq_ite, if_neg (Nat.ne_of_lt (numbered c call there)), there]
  | @lookup c call found phase =>
    unfold State.lookup
    split
    · rename_i entry stored
      refine owned.frame (names_insert rfl rfl fun _ hit => ?_) rfl (fun n cell' there => ?_)
        fun _ _ since => since.insert found (by simp [phase]) rfl
      · cases hit
        exact stored
      · exact Table.related_of_modify (f := Cell.obtained s.clock)
          (R := fun cell cell' : Cell K => cell'.secs = cell.secs) (fun _ => rfl) (fun _ => rfl) there
    · exact owned.frame (names_insert rfl rfl fun _ hit => (by cases hit)) rfl same
        fun _ _ since => since.insert found (by simp [phase]) rfl
  | @store c call entry found phase =>
    exact owned.store clocked (f := Cell.store call.sampled) found (by simp [phase])
      (.inr ⟨c, call, entry, found, rfl, phase, rfl⟩) (fun _ => rfl) rfl rfl rfl rfl
  | @share c call entry res found phase stored =>
    exact owned.store clocked (f := fun cell => (cell.store call.sampled).obtained s.clock) found (by simp [phase])
      (.inl ⟨entry, stored, rfl⟩) (fun _ => rfl) rfl rfl rfl rfl
  | create found phase absent => exact owned.create clocked found (by simp [phase])
  | refused e found phase absent =>
    exact owned.frame (names_insert rfl rfl fun _ hit => (by cases hit)) rfl same
      fun _ _ since => since.insert found (by simp [phase]) rfl
  | @abandon c call found phase =>
    refine owned.frame (fun host n named => ?_) rfl same fun host at' since => ?_
    · rcases named with stored | ⟨c', call', entry, there, mine, hit, same⟩
      · exact .inl stored
      · simp only [Table.lookup_erase_eq_ite] at there
        split at there
        · cases there
        · exact .inr ⟨c', call', entry, there, mine, hit, same⟩
    · obtain ⟨c', call', end', res, there, mine, returned, late⟩ := since
      refine ⟨c', call', end', res, ?_, mine, returned, late⟩
      rw [Table.lookup_erase_eq_ite]
      split
      · subst_vars
        rw [found] at there
        cases there
        rcases phase with phase | phase <;> rw [phase] at returned <;> cases returned
      · exact there
  | wake asleep due => exact owned.frame (fun _ _ => id) rfl same fun _ _ => id
  | reap waiting =>
    refine owned.frame (fun host n named => ?_) rfl same fun _ _ => id
    rcases named with ⟨entry, stored, same⟩ | called
    · simp only [State.reap, Table.lookup_retain] at stored
      obtain ⟨before, was, kept⟩ := Option.bind_eq_some_iff.1 stored
      split at kept <;> cases kept
      exact .inl ⟨entry, was, same⟩
    · exact .inr called

section Clock

omit [FloorSemiring K] in
theorem Clocked.init : Clocked (init : State K) where
  clock := le_rfl
  sampled := by simp [ProducerCache.init]

variable [IsStrictOrderedRing K]

theorem Step.clock_le (taken : Step s a s') : s.clock ≤ s'.clock := by
  cases taken with
  | tick nonneg => exact le_add_of_nonneg_right nonneg
  | lookup found phase =>
    unfold State.lookup
    split <;> exact le_rfl
  | _ => exact le_rfl

theorem Clocked.step (clocked : Clocked s) (taken : Step s a s') : Clocked s' := by
  have later := taken.clock_le
  refine ⟨clocked.clock.trans later, fun c call' found => ?_⟩
  obtain ⟨-, same⟩ | ⟨call, before, same⟩ := taken.call_cases found
  · rw [same]
    exact ⟨clocked.clock, later⟩
  · rw [same]
    obtain ⟨nonneg, past⟩ := clocked.sampled c call before
    exact ⟨nonneg, past.trans later⟩

theorem clocked_of_reachable : (system K).Reachable s → Clocked s :=
  Lts.Reachable.invariant .init (fun _ _ _ _ clocked taken => clocked.step (.of_step taken)) s

theorem owned_of_reachable : (system K).Reachable s → Owned s :=
  Lts.Reachable.invariant .init (fun _ _ _ reached owned taken =>
    owned.step (clocked_of_reachable reached) (numbered_of_reachable reached) (.of_step taken)) s

/-- One pass from a reachable state. -/
theorem evictsStale (reached : (system K).Reachable s) : EvictsStale s a := by
  cases a with
  | reap =>
    intro s' sampled taken waiting host ended
    have same : s' = s.reap sampled := by simpa only [step, waiting, Option.some.injEq, eq_comm] using taken
    rw [same]
    cases stored : s.map.lookup host with
    | none => simp only [State.reap, Table.lookup_retain, stored, Option.bind_none]
    | some entry =>
      obtain ⟨cell, found⟩ := Option.isSome_iff_exists.1 (celled_of_reachable reached host entry stored)
      obtain ⟨t, nonneg, second, c, call, at', res, there, mine, phase, late⟩ :=
        (owned_of_reachable reached).used host _ cell (.inl ⟨entry, stored, rfl⟩) found
      obtain ⟨end', res', phase', due⟩ := ended c call there mine
      rw [phase] at phase'
      cases phase'
      refine (reap_lookup_eq_none_iff stored found sampled).2 ?_
      have idle : t + asSecs Cache.evictAfterIdle ≤ sampled := (add_le_add_left late _).trans due
      calc cell.secs + asSecs Cache.evictAfterIdle
          = nowSecs t + asSecs Cache.evictAfterIdle := by rw [second]
        _ = nowSecs (t + asSecs Cache.evictAfterIdle) := (Nat.floor_add_natCast nonneg _).symm
        _ ≤ nowSecs sampled := Nat.floor_mono idle
  | _ => trivial

end Clock

end PubSub.Kafka.ProducerCache
