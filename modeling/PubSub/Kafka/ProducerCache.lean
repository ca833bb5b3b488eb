import Mathlib.Algebra.Order.Floor.Semiring
import Mathlib.Data.Rat.Floor
import PubSub.Cache.Runtimes
import PubSub.Kafka.Snapshot

/-!
# The producer cache

`PRODUCER_MAP`, the calls of `get_kafka_producer` and the reaper, as one system. A call reads the
clock when it begins, clones the entry in a read-lock section, and stores its clock value into the
entry's time stamp after that section; a call that missed does its second lookup or its insertion
in one write-lock section. Time is a number of seconds since the first use of the cache in an
ordered ring `K` with a floor, and `nowSecs` is its floor.
-/

namespace PubSub.Kafka.ProducerCache
set_option autoImplicit false
open Base

def asSecs (duration : Nat) : Nat := duration / fromSecs 1

/-- A cached producer and the cell of its time stamp, both by allocation number. -/
structure ProducerCacheEntry where
  producer : Nat
  lastUsedEpochSecs : Nat
  deriving DecidableEq

/-- The content of a time stamp's cell. `obtainedAt` is history, read by no step: the clock when the
entry's producer was last handed to a call. -/
structure Cell (K : Type) where
  secs : Nat
  obtainedAt : K

/-- How far a call is: it has read the clock, it has cloned an entry, it has found none, it has
returned (with the clock then, and the client library's error before its conversion). -/
inductive Phase (K : Type) where
  | sampled
  | hit (entry : ProducerCacheEntry)
  | missed
  | returned (at' : K) (res : Except KafkaError Nat)

/-- A call of `get_kafka_producer` and the clock value it read. -/
structure Call (K : Type) where
  host : String
  sampled : K
  phase : Phase K

inductive Reaper (K : Type) where
  | notStarted
  | sleeping (wake : K)
  | waiting (sampled : K)

structure State (K : Type) where
  clock : K
  map : Table String ProducerCacheEntry
  cells : Table Nat (Cell K)
  nextEntry : Nat
  calls : Table Nat (Call K)
  nextCall : Nat
  reaper : Reaper K

variable {K : Type} [Semiring K] [LinearOrder K] [FloorSemiring K]

def nowSecs (clock : K) : Nat := ⌊clock⌋₊

def init : State K where
  clock := 0
  map := ∅
  cells := ∅
  nextEntry := 0
  calls := ∅
  nextCall := 0
  reaper := .notStarted

/-- A call that read the clock at `sampled` stores its value. -/
def Cell.store (sampled : K) (cell : Cell K) : Cell K := { cell with secs := nowSecs sampled }

/-- History: the producer is handed to a call. -/
def Cell.obtained (clock : K) (cell : Cell K) : Cell K := { cell with obtainedAt := clock }

def State.load (s : State K) (entry : ProducerCacheEntry) : Nat :=
  match s.cells.lookup entry.lastUsedEpochSecs with
  | some cell => cell.secs
  | none => 0

/-- The call is at `phase` now. -/
def State.advance (s : State K) (c : Nat) (call : Call K) (phase : Phase K) : State K :=
  { s with calls := s.calls.insert c { call with phase := phase } }

/-- The read-lock section of a call. -/
def State.lookup (s : State K) (c : Nat) (call : Call K) : State K :=
  match s.map.lookup call.host with
  | some entry =>
    { s.advance c call (.hit entry) with
      cells := s.cells.modify entry.lastUsedEpochSecs (Cell.obtained s.clock) }
  | none => s.advance c call .missed

/-- The store of a call that cloned `entry`, and its return. -/
def State.store (s : State K) (c : Nat) (call : Call K) (entry : ProducerCacheEntry) : State K :=
  { s.advance c call (.returned s.clock (.ok entry.producer)) with
    cells := s.cells.modify entry.lastUsedEpochSecs (Cell.store call.sampled) }

/-- The write-lock section of a call that finds an entry after all. -/
def State.share (s : State K) (c : Nat) (call : Call K) (entry : ProducerCacheEntry) : State K :=
  { s.store c call entry with
    cells := s.cells.modify entry.lastUsedEpochSecs fun cell =>
      (cell.store call.sampled).obtained s.clock }

/-- The write-lock section of a call that creates the producer. -/
def State.create (s : State K) (c : Nat) (call : Call K) : State K :=
  { s.advance c call (.returned s.clock (.ok s.nextEntry)) with
    cells := s.cells.insert s.nextEntry ⟨nowSecs call.sampled, s.clock⟩
    map := s.map.insert call.host ⟨s.nextEntry, s.nextEntry⟩
    nextEntry := s.nextEntry + 1
    reaper := match s.reaper with
      | .notStarted => .sleeping (s.clock + asSecs Cache.reaperInterval)
      | started => started }

/-- The write-lock section of a pass that read the clock at `sampled`. -/
def State.reap (s : State K) (sampled : K) : State K :=
  { s with
    map := s.map.retain fun _ entry =>
      if nowSecs sampled - s.load entry < asSecs Cache.evictAfterIdle then some entry else none
    reaper := .sleeping (s.clock + asSecs Cache.reaperInterval) }

inductive Action (K : Type) where
  /-- time passes -/
  | tick (d : K)
  /-- a new call reads the clock -/
  | begin (host : String)
  /-- the read-lock section of a call -/
  | lookup (c : Nat)
  /-- the store of a call that hit, and its return -/
  | store (c : Nat)
  /-- the write-lock section of a call that missed; `res` is the client library's answer -/
  | write (c : Nat) (res : Except KafkaError Unit)
  /-- the caller drops its call while it waits for a lock -/
  | abandon (c : Nat)
  /-- the reaper wakes up and reads the clock -/
  | wake
  /-- the reaper's write-lock section -/
  | reap

def step (s : State K) : Action K → Option (State K)
  | .tick d => if 0 ≤ d then some { s with clock := s.clock + d } else none
  | .begin host => some
      { s with
        calls := s.calls.insert s.nextCall ⟨host, s.clock, .sampled⟩
        nextCall := s.nextCall + 1 }
  | .lookup c =>
    match s.calls.lookup c with
    | some ⟨host, t, .sampled⟩ => some (s.lookup c ⟨host, t, .sampled⟩)
    | _ => none
  | .store c =>
    match s.calls.lookup c with
    | some ⟨host, t, .hit entry⟩ => some (s.store c ⟨host, t, .hit entry⟩ entry)
    | _ => none
  | .write c res =>
    match s.calls.lookup c with
    | some ⟨host, t, .missed⟩ =>
      match s.map.lookup host with
      | some entry => some (s.share c ⟨host, t, .missed⟩ entry)
      | none =>
        match res with
        | .ok () => some (s.create c ⟨host, t, .missed⟩)
        | .error e => some (s.advance c ⟨host, t, .missed⟩ (.returned s.clock (.error e)))
    | _ => none
  | .abandon c =>
    match s.calls.lookup c with
    | some ⟨_, _, .sampled⟩ | some ⟨_, _, .missed⟩ => some { s with calls := s.calls.erase c }
    | _ => none
  | .wake =>
    match s.reaper with
    | .sleeping wake => if wake ≤ s.clock then some { s with reaper := .waiting s.clock } else none
    | _ => none
  | .reap =>
    match s.reaper with
    | .waiting sampled => some (s.reap sampled)
    | _ => none

def system (K : Type) [Semiring K] [LinearOrder K] [FloorSemiring K] : Lts (State K) (Action K) :=
  ⟨init, step⟩

/-- What each step needs and does, one constructor for each branch of `step`. -/
inductive Step (s : State K) : Action K → State K → Prop where
  | tick {d : K} (nonneg : 0 ≤ d) : Step s (.tick d) { s with clock := s.clock + d }
  | begin (host : String) : Step s (.begin host)
      { s with
        calls := s.calls.insert s.nextCall ⟨host, s.clock, .sampled⟩
        nextCall := s.nextCall + 1 }
  | lookup {c : Nat} {call : Call K} (found : s.calls.lookup c = some call)
      (phase : call.phase = .sampled) : Step s (.lookup c) (s.lookup c call)
  | store {c : Nat} {call : Call K} {entry : ProducerCacheEntry} (found : s.calls.lookup c = some call)
      (phase : call.phase = .hit entry) : Step s (.store c) (s.store c call entry)
  | share {c : Nat} {call : Call K} {entry : ProducerCacheEntry} (res : Except KafkaError Unit)
      (found : s.calls.lookup c = some call) (phase : call.phase = .missed)
      (stored : s.map.lookup call.host = some entry) : Step s (.write c res) (s.share c call entry)
  | create {c : Nat} {call : Call K} (found : s.calls.lookup c = some call)
      (phase : call.phase = .missed) (absent : s.map.lookup call.host = none) :
      Step s (.write c (.ok ())) (s.create c call)
  | refused {c : Nat} {call : Call K} (e : KafkaError) (found : s.calls.lookup c = some call)
      (phase : call.phase = .missed) (absent : s.map.lookup call.host = none) :
      Step s (.write c (.error e)) (s.advance c call (.returned s.clock (.error e)))
  | abandon {c : Nat} {call : Call K} (found : s.calls.lookup c = some call)
      (phase : call.phase = .sampled ∨ call.phase = .missed) :
      Step s (.abandon c) { s with calls := s.calls.erase c }
  | wake {t : K} (asleep : s.reaper = .sleeping t) (due : t ≤ s.clock) :
      Step s .wake { s with reaper := .waiting s.clock }
  | reap {sampled : K} (waiting : s.reaper = .waiting sampled) : Step s .reap (s.reap sampled)

theorem Step.of_step {s s' : State K} {a : Action K} (taken : step s a = some s') : Step s a s' := by
  cases a with
  | tick d =>
    simp only [step] at taken
    split at taken <;> cases taken
    exact .tick ‹_›
  | begin host => cases taken; exact .begin host
  | lookup c =>
    simp only [step] at taken
    split at taken <;> cases taken
    exact .lookup ‹_› rfl
  | store c =>
    simp only [step] at taken
    split at taken <;> cases taken
    exact .store ‹_› rfl
  | write c res =>
    simp only [step] at taken
    split at taken
    · split at taken
      · cases taken
        exact .share res ‹_› rfl ‹_›
      · split at taken <;> cases taken
        · exact .create ‹_› rfl ‹_›
        · exact .refused _ ‹_› rfl ‹_›
    · cases taken
  | abandon c =>
    simp only [step] at taken
    split at taken <;> cases taken
    · exact .abandon ‹_› (.inl rfl)
    · exact .abandon ‹_› (.inr rfl)
  | wake =>
    simp only [step] at taken
    split at taken
    · split at taken <;> cases taken
      exact .wake ‹_› ‹_›
    · cases taken
  | reap =>
    simp only [step] at taken
    split at taken <;> cases taken
    exact .reap ‹_›

/-! ## What is stored, and when -/

/-- A clock value goes into the time stamp in cell `cell`; the call that stores it has read it at
`began`. -/
structure Store (K : Type) where
  cell : Nat
  began : K

/-- What a step stores. -/
def stored (s : State K) : Action K → Option (Store K)
  | .store c =>
    match s.calls.lookup c with
    | some ⟨_, began, .hit entry⟩ => some ⟨entry.lastUsedEpochSecs, began⟩
    | _ => none
  | .write c res =>
    match s.calls.lookup c with
    | some ⟨host, began, .missed⟩ =>
      match s.map.lookup host with
      | some entry => some ⟨entry.lastUsedEpochSecs, began⟩
      | none =>
        match res with
        | .ok () => some ⟨s.nextEntry, began⟩
        | .error _ => none
    | _ => none
  | _ => none

omit [Semiring K] [LinearOrder K] [FloorSemiring K] in
/-- The clock values among some stores that went into cell `n`, in order. -/
def into (n : Nat) (stores : List (Store K)) : List K :=
  stores.filterMap fun u => if u.cell = n then some u.began else none

/-- The stores of a run. -/
def stores (as : List (Action K)) : List (Store K) := (system K).outputs stored init as

/-- A clock value from a second that is less than `EVICT_AFTER_IDLE` before the one of the pass. -/
def Recent (sampled began : K) : Prop := nowSecs sampled < nowSecs began + asSecs Cache.evictAfterIdle

/-- A recent clock value has been stored, and none that is not recent after it. -/
def InTime (sampled : K) (stores : List K) : Prop :=
  ∃ earlier began later, stores = earlier ++ began :: later ∧ ∀ t ∈ began :: later, Recent sampled t

/-- A pass drops no entry whose producer a call has obtained within `EVICT_AFTER_IDLE`. -/
def EvictsUnused (s : State K) : Action K → Prop
  | .reap => ∀ s' ∈ step s .reap, ∀ e ∈ s.map.entries, s'.map.lookup e.1 = none →
      ∀ cell ∈ s.cells.lookup e.2.lastUsedEpochSecs, cell.obtainedAt + asSecs Cache.evictAfterIdle ≤ s.clock
  | _ => True

/-- For each producer that was obtained within `EVICT_AFTER_IDLE` before a pass, some call that read the
clock recently has stored its clock value by then, and no call that read it earlier has stored after that. -/
def PassesInTime (as : List (Action K)) : Prop :=
  ∀ before after s sampled, as = before ++ .reap :: after → (system K).exec init before = some s →
    s.reaper = .waiting sampled → ∀ host entry cell, s.map.lookup host = some entry →
      s.cells.lookup entry.lastUsedEpochSecs = some cell →
        s.clock < cell.obtainedAt + asSecs Cache.evictAfterIdle →
          InTime sampled (into entry.lastUsedEpochSecs (stores before))

instance (s : State K) (a : Action K) : Decidable (EvictsUnused s a) := by
  unfold EvictsUnused
  split <;> infer_instance

variable {s s' t : State K} {a : Action K} {os : List (Store K)}

section Stored

omit [Semiring K] [LinearOrder K] [FloorSemiring K]

variable {c : Nat} {call : Call K} {entry : ProducerCacheEntry}

theorem stored_store (found : s.calls.lookup c = some call) (phase : call.phase = .hit entry) :
    stored s (.store c) = some ⟨entry.lastUsedEpochSecs, call.sampled⟩ := by
  obtain ⟨host, began, _⟩ := call
  cases phase
  simp only [stored, found]

theorem stored_share (res : Except KafkaError Unit) (found : s.calls.lookup c = some call)
    (phase : call.phase = .missed) (shared : s.map.lookup call.host = some entry) :
    stored s (.write c res) = some ⟨entry.lastUsedEpochSecs, call.sampled⟩ := by
  obtain ⟨host, began, _⟩ := call
  cases phase
  simp only [stored, found, shared]

theorem stored_create (found : s.calls.lookup c = some call) (phase : call.phase = .missed)
    (absent : s.map.lookup call.host = none) : stored s (.write c (.ok ())) = some ⟨s.nextEntry, call.sampled⟩ := by
  obtain ⟨host, began, _⟩ := call
  cases phase
  simp only [stored, found, absent]

theorem stored_refused (e : KafkaError) (found : s.calls.lookup c = some call) (phase : call.phase = .missed)
    (absent : s.map.lookup call.host = none) : stored s (.write c (.error e)) = none := by
  obtain ⟨host, began, _⟩ := call
  cases phase
  simp only [stored, found, absent]

end Stored

/-! ## What the time stamps hold -/

/-- Every entry has a cell. -/
def Celled (s : State K) : Prop :=
  ∀ host entry, s.map.lookup host = some entry → (s.cells.lookup entry.lastUsedEpochSecs).isSome

omit [Semiring K] [LinearOrder K] [FloorSemiring K] in
/-- No step takes a cell away. -/
theorem Celled.carry (celled : Celled s)
    (map : ∀ host entry, t.map.lookup host = some entry → s.map.lookup host = some entry)
    (cells : ∀ n, (s.cells.lookup n).isSome → (t.cells.lookup n).isSome) : Celled t :=
  fun host entry found => cells _ (celled host entry (map host entry found))

theorem Celled.step (celled : Celled s) (taken : Step s a s') : Celled s' := by
  have kept : ∀ {n : Nat} {f : Cell K → Cell K} (m : Nat), (s.cells.lookup m).isSome →
      ((s.cells.modify n f).lookup m).isSome := by
    intro n f m some
    rwa [Table.lookup_modify, Option.isSome_map]
  cases taken with
  | lookup found phase =>
    unfold State.lookup
    split
    · exact celled.carry (fun _ _ => id) kept
    · exact celled
  | store found phase => exact celled.carry (fun _ _ => id) kept
  | share res found phase shared => exact celled.carry (fun _ _ => id) kept
  | @create c call found phase absent =>
    intro host entry there
    simp only [State.create, Table.lookup_insert_eq_ite] at there ⊢
    split at there
    · cases there
      rw [if_pos rfl]
      rfl
    · split
      · rfl
      · exact celled host entry there
  | reap waiting =>
    refine celled.carry (fun host entry there => ?_) fun _ => id
    simp only [State.reap, Table.lookup_retain] at there
    obtain ⟨before, was, kept⟩ := Option.bind_eq_some_iff.1 there
    split at kept <;> cases kept
    exact was
  | _ => exact celled

theorem celled_of_reachable : (system K).Reachable s → Celled s :=
  Lts.Reachable.invariant (by simp [Celled, system, init])
    (fun _ _ _ _ celled taken => celled.step (.of_step taken)) s

/-- Every cell holds the second of the clock value that was stored into it last. -/
def Stamped (os : List (Store K)) (s : State K) : Prop :=
  ∀ n cell, s.cells.lookup n = some cell → (into n os).getLast?.map nowSecs = some cell.secs

omit [Semiring K] [LinearOrder K] [FloorSemiring K] in
theorem into_snoc (n : Nat) (u : Store K) :
    into n (os ++ [u]) = if u.cell = n then into n os ++ [u.began] else into n os := by
  unfold into
  rw [List.filterMap_append]
  split <;> simp [*]

/-- A step that stores nothing. -/
theorem Stamped.carry (stamped : Stamped os s) (cells : ∀ n cell', t.cells.lookup n = some cell' →
    ∃ cell, s.cells.lookup n = some cell ∧ cell'.secs = cell.secs) : Stamped os t := by
  intro n cell' found
  obtain ⟨cell, before, same⟩ := cells n cell' found
  rw [same]
  exact stamped n cell before

/-- A step that stores into cell `n`. -/
theorem Stamped.store (stamped : Stamped os s) {n : Nat} {began : K}
    (here : ∀ cell, t.cells.lookup n = some cell → cell.secs = nowSecs began)
    (others : ∀ m, m ≠ n → t.cells.lookup m = s.cells.lookup m) : Stamped (os ++ [⟨n, began⟩]) t := by
  intro m cell found
  rw [into_snoc]
  by_cases same : n = m
  · subst same
    rw [if_pos rfl, List.getLast?_concat, Option.map_some, here cell found]
  · rw [others m (Ne.symm same)] at found
    rw [if_neg same]
    exact stamped m cell found

theorem Stamped.step (stamped : Stamped os s) (taken : Step s a s') : Stamped (os ++ (stored s a).toList) s' := by
  have still : ∀ n cell', s.cells.lookup n = some cell' →
      ∃ cell, s.cells.lookup n = some cell ∧ cell'.secs = cell.secs := fun _ cell found => ⟨cell, found, rfl⟩
  have silent : stored s a = none → (∀ n cell', s'.cells.lookup n = some cell' →
      ∃ cell, s.cells.lookup n = some cell ∧ cell'.secs = cell.secs) → Stamped (os ++ (stored s a).toList) s' := by
    intro none cells
    rw [none]
    exact (List.append_nil os).symm ▸ stamped.carry cells
  have modified : ∀ {n : Nat} {f : Cell K → Cell K} {began : K}, stored s a = some ⟨n, began⟩ →
      (∀ cell, (f cell).secs = nowSecs began) → s'.cells = s.cells.modify n f →
      Stamped (os ++ (stored s a).toList) s' := by
    intro n f began stores secs cells
    rw [stores]
    refine stamped.store (fun cell found => ?_) fun m other => ?_
    · rw [cells, Table.lookup_modify, if_pos rfl] at found
      obtain ⟨before, -, rfl⟩ := Option.map_eq_some_iff.1 found
      exact secs before
    · rw [cells, Table.lookup_modify, if_neg other, Option.map_id]
      rfl
  cases taken with
  | lookup found phase =>
    refine silent rfl ?_
    unfold State.lookup
    split
    · exact fun n cell' there => Table.related_of_modify (f := Cell.obtained s.clock)
        (R := fun cell cell' : Cell K => cell'.secs = cell.secs) (fun _ => rfl) (fun _ => rfl) there
    · exact still
  | store found phase => exact modified (stored_store found phase) (fun _ => rfl) rfl
  | @share c call entry res found phase shared =>
    exact modified (f := fun cell => (cell.store call.sampled).obtained s.clock) (stored_share res found phase shared)
      (fun _ => rfl) rfl
  | @create c call found phase absent =>
    rw [stored_create found phase absent]
    refine stamped.store (fun cell there => ?_) fun m other => ?_
    · rw [State.create, Table.lookup_insert_eq_ite, if_pos rfl] at there
      cases there
      rfl
    · rw [State.create, Table.lookup_insert_eq_ite, if_neg other]
  | refused e found phase absent => exact silent (stored_refused e found phase absent) still
  | _ => exact silent rfl still

theorem stamped_of_exec {as : List (Action K)} (run : (system K).exec init as = some s) : Stamped (stores as) s :=
  Lts.outputs_invariant (M := system K) (by simp [Stamped, system, init])
    (fun _ _ _ _ _ stamped taken => stamped.step (.of_step taken)) run

/-! ## What a pass spares -/

/-- A pass drops the entries whose time stamp is old enough. -/
theorem reap_lookup_eq_none_iff {host : String} {entry : ProducerCacheEntry} {cell : Cell K}
    (there : s.map.lookup host = some entry) (found : s.cells.lookup entry.lastUsedEpochSecs = some cell)
    (sampled : K) : (s.reap sampled).map.lookup host = none ↔
      cell.secs + asSecs Cache.evictAfterIdle ≤ nowSecs sampled := by
  have positive : 0 < asSecs Cache.evictAfterIdle := by decide
  simp only [State.reap, Table.lookup_retain, there, Option.bind_some, State.load, found]
  split
  · simp only [reduceCtorEq, false_iff]; omega
  · simp only [true_iff]; omega

/-- It is the last store that decides. -/
theorem inTime_iff {sampled last : K} {stores : List K} (final : stores.getLast? = some last) :
    InTime sampled stores ↔ Recent sampled last := by
  constructor
  · rintro ⟨earlier, began, later, rfl, recent⟩
    rw [List.getLast?_append_of_ne_nil _ (List.cons_ne_nil _ _)] at final
    exact recent last (List.mem_of_getLast? final)
  · intro recent
    obtain ⟨earlier, rfl⟩ := List.getLast?_eq_some_iff.1 final
    exact ⟨earlier, last, [], rfl, fun t here => List.mem_singleton.1 here ▸ recent⟩

/-- A pass drops an entry exactly when it does not come in time for it. -/
theorem dropped_iff {before : List (Action K)} (run : (system K).exec init before = some s) {host : String}
    {entry : ProducerCacheEntry} {cell : Cell K} (there : s.map.lookup host = some entry)
    (found : s.cells.lookup entry.lastUsedEpochSecs = some cell) (sampled : K) :
    (s.reap sampled).map.lookup host = none ↔
      ¬ InTime sampled (into entry.lastUsedEpochSecs (stores before)) := by
  obtain ⟨last, final, secs⟩ := Option.map_eq_some_iff.1 (stamped_of_exec run _ cell found)
  rw [reap_lookup_eq_none_iff there found, inTime_iff final, Recent, not_lt, secs]

/-- **Producers in use.** On every run, the passes spare the producers obtained within
`EVICT_AFTER_IDLE` exactly when they come in time for them. A pass between a clone and its store is too
early, one after the late store of an older clock value is too late, and the whole seconds of a call and
of a pass may be further apart than their clock values. -/
theorem producer_in_use_iff (as : List (Action K)) :
    (system K).Along EvictsUnused init as ↔ PassesInTime as := by
  rw [Lts.along_iff_forall]
  constructor
  · intro spared before after s sampled split run waiting host entry cell there found used
    have taken : step s .reap = some (s.reap sampled) := by simp only [step, waiting]
    by_contra late
    have dropped := (dropped_iff run there found sampled).2 late
    exact absurd (spared before .reap after s _ split run taken _ taken ⟨host, entry⟩ (Table.mem_of_lookup there)
      dropped cell found) (not_le.2 used)
  · intro inTime before a after s s' split run taken
    cases Step.of_step taken with
    | @reap sampled waiting =>
      rintro _ again ⟨host, entry⟩ listed dropped cell found
      have there : s.map.lookup host = some entry := Table.lookup_of_mem listed
      cases again.symm.trans taken
      by_contra used
      exact (dropped_iff run there found sampled).1 dropped
        (inTime before after s sampled split run waiting host entry cell there found (not_le.1 used))
    | _ => trivial

/-- A producer created at once, and a call that clones it after a minute and is overtaken by a pass
before it stores its clock value. -/
def overtaken : List (Action ℚ) :=
  [.begin "broker", .lookup 0, .write 0 (.ok ()), .tick 60, .begin "broker", .lookup 1, .wake, .reap]

/-- The pass evicts the producer at the very moment a call obtains it. -/
theorem overtaken_evicted : ¬ (system ℚ).Along EvictsUnused init overtaken := by decide +kernel

end PubSub.Kafka.ProducerCache
