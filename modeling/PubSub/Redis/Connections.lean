import PubSub.Base.GetOrCreate
import PubSub.Redis.Value

/-!
# Shared connections

`HOST_MAP`, the calls of `get_connection` on it, and the tasks of `start_stream` that evict a host's
connection when an `XREAD` on theirs has failed, as one system. A lock section is one step. A call
looks the host up under the read lock and, if it finds nothing, once more under the write lock, where
it creates the connection; publishers and snapshots are calls that nothing follows. A task names
the connection to evict by its host alone.
-/

namespace PubSub.Redis.Connections
set_option autoImplicit false
open Base

/-- How far a call is: before its read-lock section, before its write-lock section, or returned. -/
inductive Phase where
  | reading
  | missed
  | returned (res : Except RedisError Nat)
  deriving DecidableEq

/-- A call of `get_connection`. -/
structure Call where
  host : String
  phase : Phase
  deriving DecidableEq

/-- How far an iteration of `start_stream` is: not begun, waiting for its call of `get_connection`,
monitoring on a connection, or about to evict because the connection's `XREAD` failed. -/
inductive Stage where
  | starting
  | connecting (c : Nat)
  | monitoring (connection : Nat)
  | failed (connection : Nat)
  deriving DecidableEq

/-- A background task. -/
structure Task where
  host : String
  stage : Stage
  deriving DecidableEq

/-- Connections are named in the order of their creation. `latest` is history, read by no step: the
last connection created for each host. -/
structure State where
  map : Table String Nat
  nextConnection : Nat
  latest : Table String Nat
  calls : Table Nat Call
  nextCall : Nat
  tasks : Table Nat Task
  nextTask : Nat

def init : State where
  map := ∅
  nextConnection := 0
  latest := ∅
  calls := ∅
  nextCall := 0
  tasks := ∅
  nextTask := 0

/-- A new call. -/
def State.begin (s : State) (host : String) : State :=
  { s with
    calls := s.calls.insert s.nextCall ⟨host, .reading⟩
    nextCall := s.nextCall + 1 }

/-- The call is at `phase` now. -/
def State.advance (s : State) (c : Nat) (host : String) (phase : Phase) : State :=
  { s with calls := s.calls.insert c ⟨host, phase⟩ }

/-- The task is at `stage` now. -/
def State.move (s : State) (t : Nat) (host : String) (stage : Stage) : State :=
  { s with tasks := s.tasks.insert t ⟨host, stage⟩ }

/-- The read-lock section of `get_connection`. -/
def State.read (s : State) (c : Nat) (host : String) : State :=
  match s.map.lookup host with
  | some connection => s.advance c host (.returned (.ok connection))
  | none => s.advance c host .missed

/-- The write-lock section of `get_connection`, if it creates the connection. -/
def State.create (s : State) (c : Nat) (host : String) : State :=
  { s.advance c host (.returned (.ok s.nextConnection)) with
    map := s.map.insert host s.nextConnection
    nextConnection := s.nextConnection + 1
    latest := s.latest.insert host s.nextConnection }

/-- `evict_connection`; the task backs off and begins anew. -/
def State.evict (s : State) (t : Nat) (host : String) : State :=
  { s.move t host .starting with map := s.map.erase host }

inductive Action where
  /-- a publisher or a snapshot calls `get_connection` -/
  | begin (host : String)
  /-- the read-lock section of a call -/
  | read (c : Nat)
  /-- the write-lock section of a call that missed; `res` is the client library's answer -/
  | write (c : Nat) (res : Except RedisError Unit)
  /-- the caller drops its call while it waits for a lock -/
  | abandon (c : Nat)
  /-- a task is spawned -/
  | spawn (host : String)
  /-- a task calls `get_connection` -/
  | connect (t : Nat)
  /-- the task's call has returned -/
  | proceed (t : Nat)
  /-- an `XREAD` of the task fails -/
  | fail (t : Nat)
  /-- the write-lock section of the task's `evict_connection` -/
  | evict (t : Nat)
  /-- the token fires and the task returns -/
  | stop (t : Nat)

def step (s : State) : Action → Option State
  | .begin host => some (s.begin host)
  | .read c =>
    match s.calls.lookup c with
    | some ⟨host, .reading⟩ => some (s.read c host)
    | _ => none
  | .write c res =>
    match s.calls.lookup c with
    | some ⟨host, .missed⟩ =>
      match s.map.lookup host with
      | some connection => some (s.advance c host (.returned (.ok connection)))
      | none =>
        match res with
        | .ok () => some (s.create c host)
        | .error e => some (s.advance c host (.returned (.error e)))
    | _ => none
  | .abandon c =>
    match s.calls.lookup c with
    | some ⟨_, .reading⟩ | some ⟨_, .missed⟩ => some { s with calls := s.calls.erase c }
    | _ => none
  | .spawn host => some
      { s.move s.nextTask host .starting with nextTask := s.nextTask + 1 }
  | .connect t =>
    match s.tasks.lookup t with
    | some ⟨host, .starting⟩ => some ((s.begin host).move t host (.connecting s.nextCall))
    | _ => none
  | .proceed t =>
    match s.tasks.lookup t with
    | some ⟨host, .connecting c⟩ =>
      match s.calls.lookup c with
      | some ⟨_, .returned (.ok connection)⟩ => some (s.move t host (.monitoring connection))
      -- backs off
      | some ⟨_, .returned (.error _)⟩ => some (s.move t host .starting)
      | _ => none
    | _ => none
  | .fail t =>
    match s.tasks.lookup t with
    | some ⟨host, .monitoring connection⟩ => some (s.move t host (.failed connection))
    | _ => none
  | .evict t =>
    match s.tasks.lookup t with
    | some ⟨host, .failed _⟩ => some (s.evict t host)
    | _ => none
  | .stop t =>
    match s.tasks.lookup t with
    | some ⟨_, .starting⟩ | some ⟨_, .monitoring _⟩ => some { s with tasks := s.tasks.erase t }
    | _ => none

def system : Lts State Action := ⟨init, step⟩

/-- What each step needs and does, one constructor for each branch of `step`. -/
inductive Step (s : State) : Action → State → Prop where
  | begin (host : String) : Step s (.begin host) (s.begin host)
  | read {c : Nat} {host : String} (found : s.calls.lookup c = some ⟨host, .reading⟩) :
      Step s (.read c) (s.read c host)
  | share {c connection : Nat} {host : String} (res : Except RedisError Unit)
      (found : s.calls.lookup c = some ⟨host, .missed⟩) (stored : s.map.lookup host = some connection) :
      Step s (.write c res) (s.advance c host (.returned (.ok connection)))
  | create {c : Nat} {host : String} (found : s.calls.lookup c = some ⟨host, .missed⟩)
      (absent : s.map.lookup host = none) : Step s (.write c (.ok ())) (s.create c host)
  | refused {c : Nat} {host : String} (e : RedisError) (found : s.calls.lookup c = some ⟨host, .missed⟩)
      (absent : s.map.lookup host = none) :
      Step s (.write c (.error e)) (s.advance c host (.returned (.error e)))
  | abandon {c : Nat} {host : String}
      (found : s.calls.lookup c = some ⟨host, .reading⟩ ∨ s.calls.lookup c = some ⟨host, .missed⟩) :
      Step s (.abandon c) { s with calls := s.calls.erase c }
  | spawn (host : String) : Step s (.spawn host)
      { s.move s.nextTask host .starting with nextTask := s.nextTask + 1 }
  | connect {t : Nat} {host : String} (task : s.tasks.lookup t = some ⟨host, .starting⟩) :
      Step s (.connect t) ((s.begin host).move t host (.connecting s.nextCall))
  | proceed {t c : Nat} {host : String} (stage : Stage) (task : s.tasks.lookup t = some ⟨host, .connecting c⟩) :
      Step s (.proceed t) (s.move t host stage)
  | fail {t connection : Nat} {host : String} (task : s.tasks.lookup t = some ⟨host, .monitoring connection⟩) :
      Step s (.fail t) (s.move t host (.failed connection))
  | evict {t connection : Nat} {host : String} (task : s.tasks.lookup t = some ⟨host, .failed connection⟩) :
      Step s (.evict t) (s.evict t host)
  | stop (t : Nat) : Step s (.stop t) { s with tasks := s.tasks.erase t }

theorem Step.of_step {s s' : State} {a : Action} (taken : step s a = some s') : Step s a s' := by
  cases a with
  | begin host =>
    cases taken
    exact .begin host
  | read c =>
    simp only [step] at taken
    split at taken <;> cases taken
    exact .read ‹_›
  | write c res =>
    simp only [step] at taken
    split at taken
    · split at taken
      · cases taken
        exact .share res ‹_› ‹_›
      · split at taken <;> cases taken
        · exact .create ‹_› ‹_›
        · exact .refused _ ‹_› ‹_›
    · cases taken
  | abandon c =>
    simp only [step] at taken
    split at taken <;> cases taken
    · exact .abandon (.inl ‹_›)
    · exact .abandon (.inr ‹_›)
  | spawn host =>
    cases taken
    exact .spawn host
  | connect t =>
    simp only [step] at taken
    split at taken <;> cases taken
    exact .connect ‹_›
  | proceed t =>
    simp only [step] at taken
    split at taken
    · split at taken <;> cases taken
      · exact .proceed _ ‹_›
      · exact .proceed _ ‹_›
    · cases taken
  | fail t =>
    simp only [step] at taken
    split at taken <;> cases taken
    exact .fail ‹_›
  | evict t =>
    simp only [step] at taken
    split at taken <;> cases taken
    exact .evict ‹_›
  | stop t =>
    simp only [step] at taken
    split at taken <;> cases taken
    · exact .stop t
    · exact .stop t

/-! ## Evictions -/

/-- An eviction removes the connection whose `XREAD` failed if it is still stored, and nothing else; in
particular no connection that was created after it. -/
def EvictsOwn (s : State) : Action → Prop
  | .evict t =>
    match s.tasks.lookup t with
    | some ⟨host, .failed connection⟩ =>
      (s.evict t host).map = (if s.map.lookup host = some connection then s.map.erase host else s.map) ∧
        ∀ e ∈ s.map.entries, (s.evict t host).map.lookup e.1 = none → e.2 ≤ connection
    | _ => True
  | _ => True

/-- If the host of an eviction has an entry, no connection was created for it after the one whose
`XREAD` failed. -/
def Unreplaced (s : State) : Action → Prop
  | .evict t =>
    match s.tasks.lookup t with
    | some ⟨host, .failed connection⟩ =>
      (s.map.lookup host).isSome → s.latest.lookup host = some connection
    | _ => True
  | _ => True

instance (s : State) (a : Action) : Decidable (EvictsOwn s a) := by
  have : DecidableEq (Table String Nat) := fun t u => decidable_of_iff (t.entries = u.entries) AList.ext_iff.symm
  unfold EvictsOwn
  split <;> (try split) <;> infer_instance

/-- What a host's entry names is the last connection created for the host. -/
def Current (s : State) : Prop :=
  ∀ host connection, s.map.lookup host = some connection → s.latest.lookup host = some connection

variable {s s' : State} {a : Action}

theorem State.read_map (s : State) (c : Nat) (host : String) : (s.read c host).map = s.map ∧
    (s.read c host).latest = s.latest := by
  unfold State.read
  split <;> exact ⟨rfl, rfl⟩

theorem Current.step (current : Current s) (taken : Step s a s') : Current s' := by
  cases taken with
  | @read c host found =>
    obtain ⟨map, latest⟩ := s.read_map c host
    intro host connection stored
    rw [latest]
    exact current host connection (map ▸ stored)
  | @create c host found absent =>
    intro host' connection stored
    simp only [State.create, Table.lookup_insert_eq_ite] at stored ⊢
    split
    · rename_i same
      rwa [if_pos same] at stored
    · rename_i other
      rw [if_neg other] at stored
      exact current host' connection stored
  | @evict t connection host task =>
    intro host' connection' stored
    simp only [State.evict, Table.lookup_erase_eq_ite] at stored
    split at stored
    · cases stored
    · exact current host' connection' stored
  | _ => exact current

theorem current_of_reachable : system.Reachable s → Current s :=
  Lts.Reachable.invariant (by simp [Current, system, init]) (fun _ _ _ _ current taken => current.step (.of_step taken)) s

/-- One eviction in a reachable state. -/
theorem evictsOwn_iff_unreplaced (reached : system.Reachable s) : EvictsOwn s a ↔ Unreplaced s a := by
  have current := current_of_reachable reached
  cases a with
  | evict t =>
    simp only [EvictsOwn, Unreplaced]
    split
    · rename_i host connection task
      have evicted : (s.evict t host).map = s.map.erase host := rfl
      rw [evicted]
      constructor
      · rintro ⟨own, -⟩ some
        obtain ⟨other, stored⟩ := Option.isSome_iff_exists.1 some
        by_cases same : s.map.lookup host = Option.some connection
        · exact current host connection same
        · -- then the eviction removes somebody else's connection
          rw [if_neg same] at own
          have gone : (s.map.erase host).lookup host = none := by simp
          rw [own, stored] at gone
          cases gone
      · intro unreplaced
        cases stored : s.map.lookup host with
        | none =>
          have nothing : s.map.erase host = s.map := Table.erase_eq_self stored
          refine ⟨by rw [if_neg (by simp), nothing], fun e here gone => ?_⟩
          rw [nothing, Table.lookup_of_mem here] at gone
          cases gone
        | some other =>
          have latest := unreplaced (by rw [stored]; rfl)
          obtain rfl : other = connection := Option.some.inj ((current host other stored).symm.trans latest)
          refine ⟨by rw [if_pos rfl], fun e here gone => ?_⟩
          rw [Table.lookup_erase_eq_ite, Table.lookup_of_mem here] at gone
          split at gone
          · rename_i same
            have there := Table.lookup_of_mem here
            rw [same, stored] at there
            exact Nat.le_of_eq (Option.some.inj there).symm
          · cases gone
    · exact Iff.rfl
  | _ => exact Iff.rfl

/-- **Evictions.** On every run, evictions remove only connections whose `XREAD` failed exactly when
no connection they meet was created after the failed one. -/
theorem evicts_own_iff (as : List Action) : system.Along EvictsOwn init as ↔ system.Along Unreplaced init as :=
  Lts.Along.iff (M := system) (fun _ _ _ reached _ => evictsOwn_iff_unreplaced reached) as

/-- Two tasks share a connection that breaks; the first has evicted it and connected again when the
second comes to evict. -/
def lateEviction : List Action :=
  let host := "redis://127.0.0.1/"
  [.spawn host, .spawn host, .connect 0, .read 0, .write 0 (.ok ()), .proceed 0, .connect 1, .read 1, .proceed 1,
    .fail 0, .fail 1, .evict 0, .connect 0, .read 2, .write 2 (.ok ()), .proceed 0, .evict 1]

/-- The second eviction removes the first task's new connection. -/
theorem lateEviction_removes_new : ¬ system.Along EvictsOwn init lateEviction := by decide

/-! ## Creations -/

/-- What a step does to the map. -/
def event (s : State) : Action → Option (CacheEvent String Nat)
  | .read c =>
    match s.calls.lookup c with
    | some ⟨host, .reading⟩ => (s.map.lookup host).map (.found c host)
    | _ => none
  | .write c res =>
    match s.calls.lookup c with
    | some ⟨host, .missed⟩ =>
      match s.map.lookup host with
      | some connection => some (.found c host connection)
      | none =>
        match res with
        | .ok () => some (.created c host s.nextConnection)
        | .error _ => some (.refused c host)
    | _ => none
  | .evict t =>
    match s.tasks.lookup t with
    | some ⟨host, .failed _⟩ => if (s.map.lookup host).isSome then some (.removed [host]) else none
    | _ => none
  | _ => none

/-- What a call has returned. -/
def answer (s : State) (c : Nat) : Option (Except RedisError Nat) :=
  (s.calls.lookup c).bind fun call =>
    match call.phase with
    | .returned res => some res
    | .reading | .missed => none

/-- Calls are numbered in order. -/
def Numbered (s : State) : Prop := ∀ c call, s.calls.lookup c = some call → c < s.nextCall

theorem Numbered.step (numbered : Numbered s) (taken : Step s a s') : Numbered s' := by
  have advance : ∀ {c : Nat} {host host' : String} {phase : Phase} (phase' : Phase),
      s.calls.lookup c = some ⟨host, phase⟩ → Numbered (s.advance c host' phase') := by
    intro c host host' phase phase' found c' call found'
    simp only [State.advance, Table.lookup_insert_eq_ite] at found'
    split at found'
    · subst_vars
      exact numbered c' _ found
    · exact numbered c' call found'
  have begin' : ∀ host, Numbered (s.begin host) := by
    intro host c call found
    simp only [State.begin, Table.lookup_insert_eq_ite] at found ⊢
    split at found
    · omega
    · have := numbered c call found
      omega
  cases taken with
  | begin host => exact begin' host
  | read found =>
    unfold State.read
    split <;> exact advance _ found
  | share res found stored => exact advance _ found
  | create found absent => exact advance (.returned (.ok s.nextConnection)) found
  | refused e found absent => exact advance _ found
  | abandon found =>
    intro c' call found'
    simp only [Table.lookup_erase_eq_ite] at found'
    split at found'
    · cases found'
    · exact numbered c' call found'
  | connect task => exact begin' _
  | _ => exact numbered

theorem numbered_of_reachable : system.Reachable s → Numbered s :=
  Lts.Reachable.invariant (by simp [Numbered, system, init])
    (fun _ _ _ _ numbered taken => numbered.step (.of_step taken)) s

theorem answer_advance (s : State) (c : Nat) (host : String) (phase : Phase) (c' : Nat) :
    answer (s.advance c host phase) c' =
      if c' = c then (match phase with | .returned res => some res | .reading | .missed => none)
      else answer s c' := by
  simp only [answer, State.advance, Table.lookup_insert_eq_ite]
  split
  · rfl
  · rfl

/-- The steps that show nothing leave the map and the answers alone. -/
theorem silent_step (numbered : Numbered s) (taken : Step s a s') (silent : event s a = none) :
    s'.map = s.map ∧ ∀ c, answer s' c = answer s c := by
  have begin' : ∀ host c, answer (s.begin host) c = answer s c := by
    intro host c
    simp only [answer, State.begin, Table.lookup_insert_eq_ite]
    split
    · subst_vars
      cases before : s.calls.lookup s.nextCall with
      | none => rfl
      | some call => exact absurd (numbered _ call before) (Nat.lt_irrefl _)
    · rfl
  cases taken with
  | begin host => exact ⟨rfl, begin' host⟩
  | @read c host found =>
    simp only [event, found, Option.map_eq_none_iff] at silent
    simp only [State.read, silent]
    refine ⟨rfl, fun c' => ?_⟩
    rw [answer_advance]
    split
    · subst_vars
      simp [answer, found]
    · rfl
  | share res found stored => simp [event, found, stored] at silent
  | create found absent => simp [event, found, absent] at silent
  | refused e found absent => simp [event, found, absent] at silent
  | @abandon c host found =>
    refine ⟨rfl, fun c' => ?_⟩
    simp only [answer, Table.lookup_erase_eq_ite]
    split
    · subst_vars
      rcases found with found | found <;> simp [found]
    · rfl
  | connect task => exact ⟨rfl, begin' _⟩
  | @evict t connection host task =>
    have absent : s.map.lookup host = none := by simpa [event, task] using silent
    exact ⟨Table.erase_eq_self absent, fun _ => rfl⟩
  | spawn host => exact ⟨rfl, fun _ => rfl⟩
  | proceed stage task => exact ⟨rfl, fun _ => rfl⟩
  | fail task => exact ⟨rfl, fun _ => rfl⟩
  | stop t => exact ⟨rfl, fun _ => rfl⟩

/-- What the other steps show, and do. -/
inductive Shown (s : State) : CacheEvent String Nat → State → Prop
  | found {c connection : Nat} {host : String} {phase : Phase} (open' : s.calls.lookup c = some ⟨host, phase⟩)
      (waiting : phase = .reading ∨ phase = .missed) (stored : s.map.lookup host = some connection) :
      Shown s (.found c host connection) (s.advance c host (.returned (.ok connection)))
  | created {c : Nat} {host : String} (open' : s.calls.lookup c = some ⟨host, .missed⟩)
      (absent : s.map.lookup host = none) : Shown s (.created c host s.nextConnection) (s.create c host)
  | refused {c : Nat} {host : String} (e : RedisError) (open' : s.calls.lookup c = some ⟨host, .missed⟩)
      (absent : s.map.lookup host = none) :
      Shown s (.refused c host) (s.advance c host (.returned (.error e)))
  | removed {t connection : Nat} {host : String} (task : s.tasks.lookup t = some ⟨host, .failed connection⟩)
      (stored : (s.map.lookup host).isSome) : Shown s (.removed [host]) (s.evict t host)

theorem shown_of_event {e : CacheEvent String Nat} (taken : Step s a s') (shown : event s a = some e) :
    Shown s e s' := by
  cases taken with
  | @read c host found =>
    simp only [event, found] at shown
    obtain ⟨connection, stored, rfl⟩ := Option.map_eq_some_iff.1 shown
    simp only [State.read, stored]
    exact .found found (.inl rfl) stored
  | share res found stored =>
    simp only [event, found, stored] at shown
    cases shown
    exact .found found (.inr rfl) stored
  | create found absent =>
    simp only [event, found, absent] at shown
    cases shown
    exact .created found absent
  | refused err found absent =>
    simp only [event, found, absent] at shown
    cases shown
    exact .refused err found absent
  | evict task =>
    simp only [event, task] at shown
    split at shown
    · cases shown
      exact .removed task ‹_›
    · cases shown
  | _ => cases shown

theorem answer_eq_none {c : Nat} {host : String} {phase : Phase} (open' : s.calls.lookup c = some ⟨host, phase⟩)
    (waiting : phase = .reading ∨ phase = .missed) : answer s c = none := by
  rcases waiting with rfl | rfl <;> simp [answer, open']

/-- The connections are looked up or created. -/
theorem getOrCreate : GetOrCreate system State.map id event answer where
  serves s a s' _ taken e shown := by
    simp only [Option.map_id_fun, id_eq]
    cases shown_of_event (.of_step taken) shown with
    | found open' waiting stored => exact .found _ stored
    | @created c host open' absent =>
      have after : (fun k => (s.create c host).map.lookup k) =
          fun k => if k = host then some s.nextConnection else s.map.lookup k :=
        funext fun k => Table.lookup_insert_eq_ite s.map host k s.nextConnection
      rw [after]
      exact .created _ _ absent
    | refused e open' absent => exact .refused _ absent
    | @removed t connection host task stored =>
      have after : (fun k => (s.evict t host).map.lookup k) =
          fun k => if k ∈ [host] then none else s.map.lookup k := by
        funext k
        simp only [List.mem_singleton]
        exact Table.lookup_erase_eq_ite s.map host k
      rw [after]
      exact .removed (by simpa using stored)
  silent s a s' reached taken shown k := by
    rw [(silent_step (numbered_of_reachable reached) (.of_step taken) shown).1]
  refused s a s' call k _ taken shown := by
    cases shown_of_event (.of_step taken) shown with
    | refused e open' absent => exact ⟨rfl, absent, e, by simp [answer_advance]⟩
  unanswered call := rfl
  answered s a s' call reached taken := by
    cases shown : event s a with
    | none => exact (silent_step (numbered_of_reachable reached) (.of_step taken) shown).2 call
    | some e =>
      cases shown_of_event (.of_step taken) shown with
      | @found c connection host phase open' waiting stored =>
        exact CacheEvent.answered (.ok connection) (answer_advance s c host (.returned (.ok connection)))
          (answer_eq_none open' waiting) (fun _ => rfl) call
      | @created c host open' absent =>
        exact CacheEvent.answered (.ok s.nextConnection) (answer_advance s c host (.returned (.ok s.nextConnection)))
          (answer_eq_none open' (.inr rfl)) (fun _ => rfl) call
      | @refused c host e open' absent =>
        exact CacheEvent.answered (.error e) (answer_advance s c host (.returned (.error e)))
          (answer_eq_none open' (.inr rfl)) (fun _ => rfl) call
      | removed task stored => rfl

end PubSub.Redis.Connections
