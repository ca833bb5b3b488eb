import Mathlib.Algebra.Group.Nat.Defs
import PubSub.Base.Lts
import PubSub.Base.Broadcast
import PubSub.Message

/-!
# The shared subscriber cache

`RUNTIMES_MAP`, the calls of `get_raw_stream` on it, the background tasks these calls spawn, the
streams they return and the reaper, as one system. A read-lock section is one step (`read`). The
write-lock section of a call that finds an entry is one step (`write`); when it has to create the
runtime it holds the lock over three steps, `write` (create and spawn), `subscribe` and `insert`,
because the spawned task may already run between them. While the lock is held (`creating`) no
other section can start. `sections` is the same system with every lock section run as one step.

The objects behind one `CachedRuntime` (its token, its channel and the task that holds a child
token and a clone of the sender) are one `Runtime`, named by its allocation number; the map entry
is the handle.
-/

namespace PubSub.Cache
set_option autoImplicit false
open Base

/-- Interval between idle-runtime cleanup passes. -/
def reaperInterval : Nat := fromSecs 10

/-- Idle duration after which an unused runtime is evicted. -/
def evictAfterIdle : Nat := fromSecs 60

/-- Capacity of the message channels. -/
def defaultChannelCapacity : Nat := 100

/-- How the channel implementation rounds a requested capacity up. -/
structure Ring where
  size : Nat → Nat
  le : ∀ n, n ≤ size n

/-- Rings whose size is a power of two. -/
def powerOfTwo : Ring where
  size n := 2 ^ ((n - 1).log2 + 1)
  le n := by
    have := Nat.lt_log2_self (n := n - 1)
    omega

inductive Source where
  | Kafka
  | RedisPubSub
  | RedisStream
  deriving DecidableEq

structure CacheKey where
  host : String
  topic : String
  source : Source
  deriving DecidableEq

/-- A map entry: the handle on its runtime, and the reaper's time stamp. -/
structure CachedRuntime where
  runtime : Nat
  lastUsed : Nat
  deriving DecidableEq

/-- The objects one call of `CachedRuntime::new` allocates, and the task spawned on them. The last
four fields are history, read by no step: every message the task has sent, those it sent
before its creator subscribed, the clock of the last pass that found a listener (at first the
creation), and when the last listener left (at first the creation). -/
structure Runtime where
  key : CacheKey
  cancelled : Bool
  running : Bool
  channel : Broadcast ByteMessage
  sends : List ByteMessage
  early : List ByteMessage
  seenAt : Nat
  idleSince : Nat

/-- A returned stream: a receiver of `runtime`'s channel. `creator` marks the stream of the call
that created the runtime; `received` and `missed` are what it has yielded and lost so far. -/
structure Stream where
  key : CacheKey
  runtime : Nat
  creator : Bool
  received : List ByteMessage
  missed : Nat

/-- A call inside the create branch: it holds the write lock, has built `entry` and spawned the
task, and has subscribed once `stream` is set. -/
structure Creation where
  key : CacheKey
  entry : CachedRuntime
  stream : Option Nat

/-- The reaper task: not spawned yet, asleep, or waiting for the write lock with its sampled clock. -/
inductive Reaper where
  | notStarted
  | sleeping (wake : Nat)
  | waiting (now : Nat)

structure State where
  clock : Nat
  map : Table CacheKey CachedRuntime
  creating : Option Creation
  missed : List CacheKey
  runtimes : Table Nat Runtime
  nextRuntime : Nat
  streams : Table Nat Stream
  nextStream : Nat
  reaper : Reaper

def init : State where
  clock := 0
  map := ∅
  creating := none
  missed := []
  runtimes := ∅
  nextRuntime := 0
  streams := ∅
  nextStream := 0
  reaper := .notStarted

/-- The objects of a fresh `CachedRuntime`, with the task already holding its clone of the sender. -/
def Runtime.new (ring : Ring) (key : CacheKey) (now : Nat) : Runtime where
  key := key
  cancelled := false
  running := true
  channel := (Broadcast.channel (ring.size defaultChannelCapacity)).cloneSender
  sends := []
  early := []
  seenAt := now
  idleSince := now

def Runtime.subscribe (n : Nat) (rt : Runtime) : Runtime :=
  { rt with channel := rt.channel.subscribe n }

/-- Drop a receiver. -/
def Runtime.unsubscribe (now : Nat) (n : Nat) (rt : Runtime) : Runtime :=
  { rt with
    channel := rt.channel.unsubscribe n
    idleSince := if (rt.channel.unsubscribe n).receiverCount = 0 then now else rt.idleSince }

/-- The task sends `m` and ignores the result; `early` tells whether its creator has yet to subscribe. -/
def Runtime.send (m : ByteMessage) (early : Bool) (rt : Runtime) : Runtime :=
  { rt with
    channel := (rt.channel.send m).getD rt.channel
    sends := rt.sends ++ [m]
    early := if early then rt.early ++ [m] else rt.early }

/-- The task returns and drops its sender. -/
def Runtime.exit (rt : Runtime) : Runtime :=
  { rt with running := false, channel := rt.channel.dropSender }

/-- `Drop` of the map entry: cancel the token; the entry's sender goes with it. -/
def Runtime.dropEntry (rt : Runtime) : Runtime :=
  { rt with cancelled := true, channel := rt.channel.dropSender }

/-- History of a pass. -/
def Runtime.passed (now : Nat) (rt : Runtime) : Runtime :=
  { rt with seenAt := if rt.channel.receiverCount > 0 then now else rt.seenAt }

/-- The number of listeners attached to an entry's runtime. -/
def State.receiverCount (s : State) (entry : CachedRuntime) : Nat :=
  match s.runtimes.lookup entry.runtime with
  | some rt => rt.channel.receiverCount
  | none => 0

/-- `CachedRuntime::get_stream`: a new receiver of the entry's channel. -/
def State.getStream (s : State) (entry : CachedRuntime) : State :=
  { s with
    runtimes := s.runtimes.modify entry.runtime (Runtime.subscribe s.nextStream)
    nextStream := s.nextStream + 1 }

/-- Hand receiver `n` to the caller. -/
def State.hand (s : State) (key : CacheKey) (entry : CachedRuntime) (n : Nat) (creator : Bool) : State :=
  { s with streams := s.streams.insert n ⟨key, entry.runtime, creator, [], 0⟩ }

/-- Under either lock: subscribe to a stored entry and return the stream. -/
def State.share (s : State) (key : CacheKey) (entry : CachedRuntime) : State :=
  (s.getStream entry).hand key entry s.nextStream false

/-- Create a runtime and spawn its task; the first creation spawns the reaper. -/
def State.create (ring : Ring) (s : State) (key : CacheKey) : State :=
  { s with
    reaper := match s.reaper with
      | .notStarted => .sleeping (s.clock + reaperInterval)
      | started => started
    runtimes := s.runtimes.insert s.nextRuntime (.new ring key s.clock)
    nextRuntime := s.nextRuntime + 1
    creating := some ⟨key, ⟨s.nextRuntime, s.clock⟩, none⟩ }

/-- What a pass does with one entry: a listener refreshes it, else it has to be recent enough. -/
def CachedRuntime.retained (receivers : Nat) (now : Nat) (entry : CachedRuntime) :
    Option CachedRuntime :=
  if receivers > 0 then some { entry with lastUsed := now }
  else if now - entry.lastUsed < evictAfterIdle then some entry
  else none

/-- The pass drops the entry of runtime `r`. -/
def State.evicts (s : State) (now : Nat) (r : Nat) : Bool :=
  s.map.entries.any fun e => e.2.runtime = r && (e.2.retained (s.receiverCount e.2) now).isNone

/-- The write-lock section of `reap_unused_streams`. -/
def State.reap (s : State) (now : Nat) : State :=
  { s with
    map := s.map.retain fun _ entry => entry.retained (s.receiverCount entry) now
    runtimes := s.runtimes.retain fun r rt =>
      some ((if s.evicts now r then rt.dropEntry else rt).passed now)
    reaper := .sleeping (s.clock + reaperInterval) }

/-- The creator of runtime `r` has spawned its task but not subscribed yet. -/
def State.unsubscribed (s : State) (r : Nat) : Bool :=
  match s.creating with
  | some c => c.entry.runtime = r && c.stream.isNone
  | none => false

/-- A stream after one read: what the reader is given, or told that it missed. -/
def Stream.next (st : Stream) : Broadcast.Recv ByteMessage → Stream
  | .ok m => { st with received := st.received ++ [m] }
  | .lagged k => { st with missed := st.missed + k }
  | .empty | .closed => st

/-- One read of a stream. -/
def State.poll (s : State) (n : Nat) (st : Stream) (rt : Runtime)
    (read : Broadcast.Recv ByteMessage × Broadcast ByteMessage) : State :=
  { s with
    runtimes := s.runtimes.insert st.runtime { rt with channel := read.2 }
    streams := s.streams.insert n (st.next read.1) }

inductive Action where
  /-- time passes -/
  | tick (d : Nat)
  /-- the read-lock section of a new call -/
  | read (key : CacheKey)
  /-- the write-lock section of a call that missed; it stays open if it creates -/
  | write (key : CacheKey)
  /-- the creating call subscribes -/
  | subscribe
  /-- the creating call inserts the entry, unlocks and returns -/
  | insert
  /-- a caller drops its call while it waits for the write lock -/
  | abandon (key : CacheKey)
  | poll (n : Nat)
  | drop (n : Nat)
  /-- the task of a runtime sends -/
  | send (r : Nat) (m : ByteMessage)
  /-- the task of a runtime returns -/
  | exit (r : Nat)
  /-- the reaper wakes up and samples the clock -/
  | wake
  /-- the reaper's write-lock section -/
  | reap
  deriving DecidableEq

def step (ring : Ring) (s : State) : Action → Option State
  | .tick d => some { s with clock := s.clock + d }
  | .read key =>
    match s.creating with
    | some _ => none
    | none =>
      match s.map.lookup key with
      | some entry => some (s.share key entry)
      | none => some { s with missed := key :: s.missed }
  | .write key =>
    if s.creating.isNone ∧ key ∈ s.missed then
      let s := { s with missed := s.missed.erase key }
      match s.map.lookup key with
      | some entry => some (s.share key entry)
      | none => some (s.create ring key)
    else none
  | .subscribe =>
    match s.creating with
    | some ⟨key, entry, none⟩ =>
      some { s.getStream entry with creating := some ⟨key, entry, some s.nextStream⟩ }
    | _ => none
  | .insert =>
    match s.creating with
    | some ⟨key, entry, some n⟩ =>
      some { s.hand key entry n true with map := s.map.insert key entry, creating := none }
    | _ => none
  | .abandon key => if key ∈ s.missed then some { s with missed := s.missed.erase key } else none
  | .poll n =>
    match s.streams.lookup n with
    | none => none
    | some st =>
      match s.runtimes.lookup st.runtime with
      | none => none
      | some rt => (rt.channel.recv n).map (s.poll n st rt)
  | .drop n =>
    match s.streams.lookup n with
    | none => none
    | some st => some
        { s with
          runtimes := s.runtimes.modify st.runtime (Runtime.unsubscribe s.clock n)
          streams := s.streams.erase n }
  | .send r m =>
    match s.runtimes.lookup r with
    | none => none
    | some rt =>
      if rt.running then some { s with runtimes := s.runtimes.modify r (Runtime.send m (s.unsubscribed r)) }
      else none
  | .exit r =>
    match s.runtimes.lookup r with
    | none => none
    | some rt =>
      if rt.running ∧ rt.cancelled then some { s with runtimes := s.runtimes.modify r Runtime.exit }
      else none
  | .wake =>
    match s.reaper with
    | .sleeping wake => if wake ≤ s.clock then some { s with reaper := .waiting s.clock } else none
    | _ => none
  | .reap =>
    match s.creating, s.reaper with
    | none, .waiting now => some (s.reap now)
    | _, _ => none

/-- The cache, with the steps of a creating call exposed. -/
def system (ring : Ring) : Lts State Action := ⟨init, step ring⟩

/-- A step of the system in which every lock section is atomic. -/
inductive Section where
  /-- the whole write-lock section of a call that missed -/
  | write (key : CacheKey)
  /-- any other step -/
  | other (a : Action)

/-- The steps a creating call makes under its write lock. -/
def Action.underLock : Action → Bool
  | .write _ | .subscribe | .insert => true
  | _ => false

/-- Finish the create branch at once, if the call is in it. -/
def finish (ring : Ring) (s : State) : Option State :=
  match s.creating with
  | none => some s
  | some _ => (step ring s .subscribe).bind fun s' => step ring s' .insert

def sectionStep (ring : Ring) (s : State) : Section → Option State
  | .write key => (step ring s (.write key)).bind (finish ring)
  | .other a => if a.underLock then none else step ring s a

/-- The cache with every lock section as one step. -/
def sections (ring : Ring) : Lts State Section := ⟨init, sectionStep ring⟩

/-- What each step needs and does, one constructor for each branch of `step`. -/
inductive Step (ring : Ring) (s : State) : Action → State → Prop where
  | tick (d : Nat) : Step ring s (.tick d) { s with clock := s.clock + d }
  | readHit {key : CacheKey} {entry : CachedRuntime} (free : s.creating = none)
      (found : s.map.lookup key = some entry) : Step ring s (.read key) (s.share key entry)
  | readMiss {key : CacheKey} (free : s.creating = none) (absent : s.map.lookup key = none) :
      Step ring s (.read key) { s with missed := key :: s.missed }
  | writeHit {key : CacheKey} {entry : CachedRuntime} (free : s.creating = none)
      (found : s.map.lookup key = some entry) :
      Step ring s (.write key) ({ s with missed := s.missed.erase key }.share key entry)
  | create {key : CacheKey} (free : s.creating = none) (absent : s.map.lookup key = none) :
      Step ring s (.write key) ({ s with missed := s.missed.erase key }.create ring key)
  | subscribe {key : CacheKey} {entry : CachedRuntime} (open' : s.creating = some ⟨key, entry, none⟩) :
      Step ring s .subscribe
        { s.getStream entry with creating := some ⟨key, entry, some s.nextStream⟩ }
  | insert {key : CacheKey} {entry : CachedRuntime} {n : Nat}
      (open' : s.creating = some ⟨key, entry, some n⟩) :
      Step ring s .insert
        { s.hand key entry n true with map := s.map.insert key entry, creating := none }
  | abandon (key : CacheKey) : Step ring s (.abandon key) { s with missed := s.missed.erase key }
  | poll {n : Nat} {st : Stream} {rt : Runtime} {out : Broadcast.Recv ByteMessage}
      {channel : Broadcast ByteMessage} (held : s.streams.lookup n = some st)
      (runtime : s.runtimes.lookup st.runtime = some rt)
      (read : rt.channel.recv n = some (out, channel)) :
      Step ring s (.poll n) (s.poll n st rt (out, channel))
  | drop {n : Nat} {st : Stream} (held : s.streams.lookup n = some st) :
      Step ring s (.drop n)
        { s with
          runtimes := s.runtimes.modify st.runtime (Runtime.unsubscribe s.clock n)
          streams := s.streams.erase n }
  | send {r : Nat} {rt : Runtime} (m : ByteMessage) (runtime : s.runtimes.lookup r = some rt)
      (running : rt.running = true) :
      Step ring s (.send r m)
        { s with runtimes := s.runtimes.modify r (Runtime.send m (s.unsubscribed r)) }
  | exit {r : Nat} {rt : Runtime} (runtime : s.runtimes.lookup r = some rt)
      (running : rt.running = true) (cancelled : rt.cancelled = true) :
      Step ring s (.exit r) { s with runtimes := s.runtimes.modify r Runtime.exit }
  | wake {t : Nat} (asleep : s.reaper = .sleeping t) (due : t ≤ s.clock) :
      Step ring s .wake { s with reaper := .waiting s.clock }
  | reap {now : Nat} (free : s.creating = none) (waiting : s.reaper = .waiting now) :
      Step ring s .reap (s.reap now)

theorem Step.of_step {ring : Ring} {s s' : State} {a : Action} (taken : step ring s a = some s') :
    Step ring s a s' := by
  cases a with
  | tick d => cases taken; exact .tick d
  | read key =>
    simp only [step] at taken
    split at taken
    · cases taken
    · split at taken <;> cases taken
      · exact .readHit ‹_› ‹_›
      · exact .readMiss ‹_› ‹_›
  | write key =>
    simp only [step] at taken
    split at taken
    · rename_i guard
      have free : s.creating = none := Option.isNone_iff_eq_none.1 guard.1
      split at taken <;> cases taken
      · exact .writeHit free ‹_›
      · exact .create free ‹_›
    · cases taken
  | subscribe =>
    simp only [step] at taken
    split at taken <;> cases taken
    exact .subscribe ‹_›
  | insert =>
    simp only [step] at taken
    split at taken <;> cases taken
    exact .insert ‹_›
  | abandon key =>
    simp only [step] at taken
    split at taken <;> cases taken
    exact .abandon key
  | poll n =>
    simp only [step] at taken
    split at taken
    · cases taken
    · split at taken
      · cases taken
      · obtain ⟨⟨out, channel⟩, read, rfl⟩ := Option.map_eq_some_iff.1 taken
        exact .poll ‹_› ‹_› read
  | drop n =>
    simp only [step] at taken
    split at taken <;> cases taken
    exact .drop ‹_›
  | send r m =>
    simp only [step] at taken
    split at taken
    · cases taken
    · split at taken <;> cases taken
      exact .send m ‹_› ‹_›
  | exit r =>
    simp only [step] at taken
    split at taken
    · cases taken
    · split at taken <;> cases taken
      rename_i guard
      exact .exit ‹_› guard.1 guard.2
  | wake =>
    simp only [step] at taken
    split at taken
    · split at taken <;> cases taken
      exact .wake ‹_› ‹_›
    · cases taken
  | reap =>
    simp only [step] at taken
    split at taken <;> cases taken
    exact .reap ‹_› ‹_›

/-- What a step of `s` can do to one runtime; only a pass touches its history. -/
inductive Runtime.Moves (s : State) (a : Action) (rt : Runtime) : Runtime → Prop where
  | same : Moves s a rt rt
  | subscribe (n : Nat) : Moves s a rt (rt.subscribe n)
  | poll {n : Nat} {out : Broadcast.Recv ByteMessage} {channel : Broadcast ByteMessage}
      (read : rt.channel.recv n = some (out, channel)) : Moves s a rt { rt with channel := channel }
  | unsubscribe (n : Nat) : Moves s a rt (rt.unsubscribe s.clock n)
  | send (m : ByteMessage) (early : Bool) : Moves s a rt (rt.send m early)
  | exit : Moves s a rt rt.exit
  | passed {now : Nat} (pass : a = .reap) (waiting : s.reaper = .waiting now) (gone : Bool) :
      Moves s a rt ((if gone then rt.dropEntry else rt).passed now)

/-- Where the runtimes after a step come from. -/
theorem Step.runtime_cases {ring : Ring} {s s' : State} {a : Action} (taken : Step ring s a s') {r : Nat}
    {rt' : Runtime} (found : s'.runtimes.lookup r = some rt') :
    (r = s.nextRuntime ∧ ∃ key, rt' = .new ring key s.clock) ∨
      ∃ rt, s.runtimes.lookup r = some rt ∧ rt.Moves s a rt' := by
  have modified : ∀ {r₀ : Nat} {f : Runtime → Runtime}, (∀ rt : Runtime, rt.Moves s a (f rt)) →
      (s.runtimes.modify r₀ f).lookup r = some rt' →
      ∃ rt, s.runtimes.lookup r = some rt ∧ rt.Moves s a rt' :=
    fun moves found => Table.related_of_modify (R := Runtime.Moves s a) (fun _ => .same) moves found
  cases taken with
  | readHit free stored => exact .inr (modified (fun rt => .subscribe _) found)
  | writeHit free stored => exact .inr (modified (fun rt => .subscribe _) found)
  | create free absent =>
    simp only [State.create, Table.lookup_insert_eq_ite] at found
    split at found
    · cases found
      exact .inl ⟨‹_›, _, rfl⟩
    · exact .inr ⟨rt', found, .same⟩
  | subscribe open' => exact .inr (modified (fun rt => .subscribe _) found)
  | @poll n st rt out channel held runtime read =>
    simp only [State.poll, Table.lookup_insert_eq_ite] at found
    split at found
    · cases found
      subst_vars
      exact .inr ⟨rt, runtime, .poll read⟩
    · exact .inr ⟨rt', found, .same⟩
  | drop held => exact .inr (modified (fun rt => .unsubscribe _) found)
  | send m runtime running => exact .inr (modified (fun rt => .send m _) found)
  | exit runtime running cancelled => exact .inr (modified (fun rt => .exit) found)
  | reap free waiting =>
    simp only [State.reap, Table.lookup_retain] at found
    obtain ⟨rt, before, passed⟩ := Option.bind_eq_some_iff.1 found
    cases passed
    exact .inr ⟨rt, before, .passed rfl waiting _⟩
  | _ => exact .inr ⟨rt', found, .same⟩

/-- Where the streams after a step come from: handed out by it, there before, or read from by it. -/
theorem Step.stream_cases {ring : Ring} {s s' : State} {a : Action} (taken : Step ring s a s') {n : Nat}
    {st' : Stream} (held : s'.streams.lookup n = some st') :
    (st'.received = [] ∧ (n = s.nextStream ∨ ∃ c, s.creating = some c ∧ c.stream = some n)) ∨
      s.streams.lookup n = some st' ∨
      ∃ st rt out channel, s.streams.lookup n = some st ∧ s.runtimes.lookup st.runtime = some rt ∧
        rt.channel.recv n = some (out, channel) ∧ st' = st.next out := by
  have handed : ∀ {key : CacheKey} {entry : CachedRuntime} {n' : Nat} {creator : Bool},
      (s.streams.insert n' ⟨key, entry.runtime, creator, [], 0⟩).lookup n = some st' →
      (st'.received = [] ∧ n = n') ∨ s.streams.lookup n = some st' := by
    intro key entry n' creator found
    rw [Table.lookup_insert_eq_ite] at found
    split at found
    · cases found
      exact .inl ⟨rfl, ‹_›⟩
    · exact .inr found
  cases taken with
  | readHit free stored => exact (handed held).imp (And.imp_right .inl) .inl
  | writeHit free stored => exact (handed held).imp (And.imp_right .inl) .inl
  | insert open' => exact (handed held).imp (And.imp_right fun same => .inr ⟨_, open', by rw [same]⟩) .inl
  | @poll n' st rt out channel there runtime read =>
    simp only [State.poll, Table.lookup_insert_eq_ite] at held
    split at held
    · cases held
      subst_vars
      exact .inr (.inr ⟨st, rt, out, channel, there, runtime, read, rfl⟩)
    · exact .inr (.inl held)
  | drop there =>
    simp only [Table.lookup_erase_eq_ite] at held
    split at held
    · cases held
    · exact .inr (.inl held)
  | _ => exact .inr (.inl held)

/-- A pass drops the entry of `r` exactly when `r` is stored under some key and its entry is
neither in use nor recent. -/
theorem evicts_iff {s : State} {now : Nat} {r : Nat} :
    s.evicts now r = true ↔ ∃ key entry, s.map.lookup key = some entry ∧ entry.runtime = r ∧
      entry.retained (s.receiverCount entry) now = none := by
  simp only [State.evicts, List.any_eq_true, Bool.and_eq_true, decide_eq_true_eq,
    Option.isNone_iff_eq_none]
  constructor
  · rintro ⟨⟨key, entry⟩, listed, same, gone⟩
    exact ⟨key, entry, Table.lookup_of_mem listed, same, gone⟩
  · rintro ⟨key, entry, found, same, gone⟩
    exact ⟨⟨key, entry⟩, Table.mem_of_lookup found, same, gone⟩

/-- A read changes nothing in a stream but what it has yielded and lost. -/
theorem Stream.next_frame (st : Stream) (out : Broadcast.Recv ByteMessage) :
    (st.next out).key = st.key ∧ (st.next out).runtime = st.runtime ∧
      (st.next out).creator = st.creator := by
  cases out <;> exact ⟨rfl, rfl, rfl⟩

theorem Stream.mem_next {st : Stream} {out : Broadcast.Recv ByteMessage} {m : ByteMessage}
    (got : m ∈ (st.next out).received) : m ∈ st.received ∨ out = .ok m := by
  cases out with
  | ok m' =>
    rcases List.mem_append.1 got with old | new
    · exact .inl old
    · rw [List.mem_singleton] at new
      exact .inr (by rw [new])
  | lagged k => exact .inl got
  | empty => exact .inl got
  | closed => exact .inl got

/-- A pass changes nothing in an entry but its time stamp. -/
theorem CachedRuntime.retained_runtime {entry kept : CachedRuntime} {receivers : Nat} {now : Nat}
    (keep : entry.retained receivers now = some kept) : kept.runtime = entry.runtime := by
  unfold CachedRuntime.retained at keep
  split at keep
  · cases keep; rfl
  · split at keep <;> cases keep
    rfl

/-- A pass drops exactly the entries without a listener whose time stamp is old enough. -/
theorem CachedRuntime.retained_eq_none_iff {entry : CachedRuntime} {receivers : Nat} {now : Nat} :
    entry.retained receivers now = none ↔
      receivers = 0 ∧ entry.lastUsed + evictAfterIdle ≤ now := by
  unfold CachedRuntime.retained
  have positive : 0 < evictAfterIdle := by decide
  split
  · simp only [reduceCtorEq, false_iff]; omega
  · split
    · simp only [reduceCtorEq, false_iff]; omega
    · simp only [true_iff]; omega

end PubSub.Cache
