import Mathlib.Algebra.Group.Nat.Defs
import PubSub.Base.Lts
import PubSub.Base.Table

/-!
# The mock Kafka cluster

The calls of `create_topic` and `new_topic` on the shared `MockKafka`, and the worker thread of
`run_cluster`, as one system. A call looks its topic up under the read lock, then again under the write
lock, and keeps that lock while it waits for room in the channel; the worker takes topics from the channel
and creates them. Nobody tells a call when its topic has been created.
-/

namespace PubSub.Kafka.TestingUtils
set_option autoImplicit false
open Base

/-- How far a call of `create_topic` is: it has not looked its topic up yet; it has not found it; it
has not found it under the write lock either, and waits for room in the channel; it has sent it. -/
inductive Phase where
  | called
  | missed
  | sending
  | sent
  | returned
  deriving DecidableEq

/-- A call of `create_topic`, with the number that the topic was named with if `new_topic` makes it. -/
structure Call where
  topic : String
  number : Option Nat
  phase : Phase
  deriving DecidableEq

structure State where
  knownTopics : List String
  nextTopicId : Nat
  /-- The one place of the channel. -/
  channel : Option String
  /-- The call that holds the write lock of `known_topics`. -/
  writer : Option Nat
  calls : Table Nat Call
  nextCall : Nat
  /-- The topic that the worker has received and not created yet. -/
  worker : Option String
  /-- History: the sends, and the topics that the worker has dealt with. -/
  sent : List (Nat × String)
  created : List String

def init : State where
  knownTopics := []
  nextTopicId := 1
  channel := none
  writer := none
  calls := ∅
  nextCall := 0
  worker := none
  sent := []
  created := []

def topicName (topicPrefix : String) (number : Nat) : String := s!"{topicPrefix}-{number}"

/-- A set's `insert`. -/
def insertTopic (topic : String) (knownTopics : List String) : List String :=
  if topic ∈ knownTopics then knownTopics else knownTopics ++ [topic]

def State.begin (s : State) (topic : String) (number : Option Nat) : State :=
  { s with calls := s.calls.insert s.nextCall ⟨topic, number, .called⟩, nextCall := s.nextCall + 1 }

/-- The call is at `phase` now. -/
def State.advance (s : State) (c : Nat) (call : Call) (phase : Phase) : State :=
  { s with calls := s.calls.insert c { call with phase } }

/-- The write lock is free, and the second look at the topics. -/
def State.acquire (s : State) (c : Nat) (call : Call) : State :=
  if call.topic ∈ s.knownTopics then s.advance c call .returned
  else { s.advance c call .sending with writer := some c }

def State.send (s : State) (c : Nat) (call : Call) : State :=
  { s.advance c call .sent with channel := some call.topic, sent := s.sent ++ [(c, call.topic)] }

def State.insert (s : State) (c : Nat) (call : Call) : State :=
  { s.advance c call .returned with knownTopics := insertTopic call.topic s.knownTopics, writer := none }

/-- The call is dropped, and with it the write lock if it holds it. -/
def State.abandon (s : State) (c : Nat) (call : Call) : State :=
  { s with calls := s.calls.erase c, writer := if call.phase = .sending then none else s.writer }

inductive Action where
  /-- a new call of `create_topic` -/
  | createTopic (topic : String)
  /-- a new call of `new_topic`, which draws its number -/
  | newTopic (topicPrefix : String)
  /-- the first look, under the read lock -/
  | lookup (c : Nat)
  /-- the write lock is acquired -/
  | acquire (c : Nat)
  /-- there is room in the channel -/
  | send (c : Nat)
  /-- the topic is recorded, and the call returns -/
  | insert (c : Nat)
  /-- the caller drops its call while it waits for a lock or for room -/
  | abandon (c : Nat)
  /-- the worker takes a topic from the channel -/
  | receive
  /-- the worker creates it -/
  | create
  deriving DecidableEq

/-- What a call does that is at this phase. -/
def State.call (s : State) (c : Nat) (phase : Phase) (next : Call → Option State) : Option State :=
  (s.calls.lookup c).bind fun call => if call.phase = phase then next call else none

def step (s : State) : Action → Option State
  | .createTopic topic => some (s.begin topic none)
  | .newTopic topicPrefix => some
      { s.begin (topicName topicPrefix s.nextTopicId) (some s.nextTopicId) with
        nextTopicId := (s.nextTopicId + 1) % 2 ^ 64 }
  | .lookup c => s.call c .called fun call =>
      if s.writer = none then
        some (s.advance c call (if call.topic ∈ s.knownTopics then .returned else .missed))
      else none
  | .acquire c => s.call c .missed fun call => if s.writer = none then some (s.acquire c call) else none
  | .send c => s.call c .sending fun call => if s.channel = none then some (s.send c call) else none
  | .insert c => s.call c .sent fun call => some (s.insert c call)
  | .abandon c => (s.calls.lookup c).bind fun call =>
      match call.phase with
      | .called | .missed | .sending => some (s.abandon c call)
      | .sent | .returned => none
  | .receive =>
    if s.worker = none then s.channel.map fun topic => { s with channel := none, worker := some topic } else none
  | .create => s.worker.map fun topic => { s with worker := none, created := s.created ++ [topic] }

def system : Lts State Action := ⟨init, step⟩

/-- What each step needs and does. -/
inductive Step (s : State) : Action → State → Prop where
  | createTopic (topic : String) : Step s (.createTopic topic) (s.begin topic none)
  | newTopic (topicPrefix : String) : Step s (.newTopic topicPrefix)
      { s.begin (topicName topicPrefix s.nextTopicId) (some s.nextTopicId) with
        nextTopicId := (s.nextTopicId + 1) % 2 ^ 64 }
  | found {c : Nat} {call : Call} (open' : s.calls.lookup c = some call) (phase : call.phase = .called)
      (free : s.writer = none) (known : call.topic ∈ s.knownTopics) :
      Step s (.lookup c) (s.advance c call .returned)
  | missed {c : Nat} {call : Call} (open' : s.calls.lookup c = some call) (phase : call.phase = .called)
      (free : s.writer = none) (missing : call.topic ∉ s.knownTopics) :
      Step s (.lookup c) (s.advance c call .missed)
  | late {c : Nat} {call : Call} (open' : s.calls.lookup c = some call) (phase : call.phase = .missed)
      (free : s.writer = none) (known : call.topic ∈ s.knownTopics) :
      Step s (.acquire c) (s.advance c call .returned)
  | acquire {c : Nat} {call : Call} (open' : s.calls.lookup c = some call) (phase : call.phase = .missed)
      (free : s.writer = none) (missing : call.topic ∉ s.knownTopics) :
      Step s (.acquire c) { s.advance c call .sending with writer := some c }
  | send {c : Nat} {call : Call} (open' : s.calls.lookup c = some call) (phase : call.phase = .sending)
      (room : s.channel = none) : Step s (.send c) (s.send c call)
  | insert {c : Nat} {call : Call} (open' : s.calls.lookup c = some call) (phase : call.phase = .sent) :
      Step s (.insert c) (s.insert c call)
  | abandon {c : Nat} {call : Call} (open' : s.calls.lookup c = some call)
      (phase : call.phase = .called ∨ call.phase = .missed ∨ call.phase = .sending) :
      Step s (.abandon c) (s.abandon c call)
  | receive {topic : String} (idle : s.worker = none) (queued : s.channel = some topic) :
      Step s .receive { s with channel := none, worker := some topic }
  | create {topic : String} (busy : s.worker = some topic) :
      Step s .create { s with worker := none, created := s.created ++ [topic] }

theorem call_eq_some_iff {s s' : State} {c : Nat} {phase : Phase} {next : Call → Option State} :
    s.call c phase next = some s' ↔ ∃ call, s.calls.lookup c = some call ∧ call.phase = phase ∧ next call = some s' := by
  simp only [State.call, Option.bind_eq_some_iff, Option.ite_none_right_eq_some]

theorem Step.of_step {s s' : State} {a : Action} (taken : step s a = some s') : Step s a s' := by
  cases a with
  | createTopic topic => cases taken; exact .createTopic topic
  | newTopic topicPrefix => cases taken; exact .newTopic topicPrefix
  | lookup c =>
    obtain ⟨call, open', phase, taken⟩ := call_eq_some_iff.1 taken
    obtain ⟨free, same⟩ := Option.ite_none_right_eq_some.1 taken
    cases same
    split
    · exact .found open' phase free ‹_›
    · exact .missed open' phase free ‹_›
  | acquire c =>
    obtain ⟨call, open', phase, taken⟩ := call_eq_some_iff.1 taken
    obtain ⟨free, same⟩ := Option.ite_none_right_eq_some.1 taken
    cases same
    unfold State.acquire
    split
    · exact .late open' phase free ‹_›
    · exact .acquire open' phase free ‹_›
  | send c =>
    obtain ⟨call, open', phase, taken⟩ := call_eq_some_iff.1 taken
    obtain ⟨room, same⟩ := Option.ite_none_right_eq_some.1 taken
    cases same
    exact .send open' phase room
  | insert c =>
    obtain ⟨call, open', phase, taken⟩ := call_eq_some_iff.1 taken
    cases taken
    exact .insert open' phase
  | abandon c =>
    obtain ⟨call, open', taken⟩ := Option.bind_eq_some_iff.1 taken
    split at taken
    · cases taken
      exact .abandon open' (.inl ‹_›)
    · cases taken
      exact .abandon open' (.inr (.inl ‹_›))
    · cases taken
      exact .abandon open' (.inr (.inr ‹_›))
    · cases taken
    · cases taken
  | receive =>
    obtain ⟨idle, taken⟩ := Option.ite_none_right_eq_some.1 taken
    obtain ⟨topic, queued, same⟩ := Option.map_eq_some_iff.1 taken
    cases same
    exact .receive idle queued
  | create =>
    obtain ⟨topic, busy, same⟩ := Option.map_eq_some_iff.1 taken
    cases same
    exact .create busy

/-! ## What the write lock protects -/

/-- The topics that were sent, in order. -/
def State.topics (s : State) : List String := s.sent.map Prod.snd

/-- Whoever holds the write lock is about to send a topic that is missing, or has sent it and is about
to record it; otherwise the topics sent are those recorded. -/
inductive Section (s : State) : Prop where
  | free (writer : s.writer = none) (recorded : s.topics = s.knownTopics)
  | sending {c : Nat} {call : Call} (writer : s.writer = some c) (open' : s.calls.lookup c = some call)
      (phase : call.phase = .sending) (missing : call.topic ∉ s.knownTopics) (recorded : s.topics = s.knownTopics)
  | sent {c : Nat} {call : Call} {earlier : List (Nat × String)} (writer : s.writer = some c)
      (open' : s.calls.lookup c = some call) (phase : call.phase = .sent)
      (latest : s.sent = earlier ++ [(c, call.topic)]) (recorded : earlier.map Prod.snd = s.knownTopics)

structure Invariant (s : State) : Prop where
  inside : Section s
  exclusive : ∀ c call, s.calls.lookup c = some call → call.phase = .sending ∨ call.phase = .sent → s.writer = some c
  numbered : ∀ c call, s.calls.lookup c = some call → c < s.nextCall
  nodup : s.topics.Nodup
  pipeline : s.topics = s.created ++ s.worker.toList ++ s.channel.toList

variable {s s' : State} {a : Action}

/-- A step that leaves the lock, the call that holds it, and what it protects alone. -/
theorem Section.frame (inside : Section s) (writer : s'.writer = s.writer) (sent : s'.sent = s.sent)
    (known : s'.knownTopics = s.knownTopics)
    (calls : ∀ c, s.writer = some c → s'.calls.lookup c = s.calls.lookup c) : Section s' := by
  have topics : s'.topics = s.topics := by rw [State.topics, sent, State.topics]
  cases inside with
  | free none recorded => exact .free (writer.trans none) (by rw [topics, known, recorded])
  | @sending c call held open' phase missing recorded =>
    refine .sending (writer.trans held) ((calls c held).trans open') phase ?_ ?_
    · rwa [known]
    · rw [topics, known, recorded]
  | @sent c call earlier held open' phase latest recorded =>
    exact .sent (writer.trans held) ((calls c held).trans open') phase (sent.trans latest) (recorded.trans known.symm)

/-- Nobody holds the lock, so all that was sent is recorded. -/
theorem Section.recorded (inside : Section s) (free : s.writer = none) : s.topics = s.knownTopics := by
  cases inside with
  | free _ recorded => exact recorded
  | sending writer => rw [free] at writer; cases writer
  | sent writer => rw [free] at writer; cases writer

theorem Section.exists_open (inside : Section s) {c : Nat} (held : s.writer = some c) :
    ∃ call, s.calls.lookup c = some call := by
  cases inside with
  | free none _ => rw [none] at held; cases held
  | sending writer open' =>
    obtain rfl := Option.some.inj (writer.symm.trans held)
    exact ⟨_, open'⟩
  | sent writer open' =>
    obtain rfl := Option.some.inj (writer.symm.trans held)
    exact ⟨_, open'⟩

/-- What the call that holds the lock knows. -/
theorem Section.of_held (inside : Section s) {c : Nat} {call : Call} (held : s.writer = some c)
    (open' : s.calls.lookup c = some call) :
    (call.phase = .sending ∧ call.topic ∉ s.knownTopics ∧ s.topics = s.knownTopics) ∨
      call.phase = .sent ∧ ∃ earlier, s.sent = earlier ++ [(c, call.topic)] ∧ earlier.map Prod.snd = s.knownTopics := by
  cases inside with
  | free none _ => rw [none] at held; cases held
  | sending writer found phase missing recorded =>
    obtain rfl := Option.some.inj (writer.symm.trans held)
    obtain rfl := Option.some.inj (found.symm.trans open')
    exact .inl ⟨phase, missing, recorded⟩
  | sent writer found phase latest recorded =>
    obtain rfl := Option.some.inj (writer.symm.trans held)
    obtain rfl := Option.some.inj (found.symm.trans open')
    exact .inr ⟨phase, _, latest, recorded⟩

theorem Section.of_sending (inside : Section s) {c : Nat} {call : Call} (held : s.writer = some c)
    (open' : s.calls.lookup c = some call) (phase : call.phase = .sending) :
    call.topic ∉ s.knownTopics ∧ s.topics = s.knownTopics := by
  obtain ⟨-, missing⟩ | ⟨later, -⟩ := inside.of_held held open'
  · exact missing
  · rw [phase] at later
    cases later

theorem Section.of_sent (inside : Section s) {c : Nat} {call : Call} (held : s.writer = some c)
    (open' : s.calls.lookup c = some call) (phase : call.phase = .sent) :
    ∃ earlier, s.sent = earlier ++ [(c, call.topic)] ∧ earlier.map Prod.snd = s.knownTopics := by
  obtain ⟨before, -⟩ | ⟨-, latest⟩ := inside.of_held held open'
  · rw [phase] at before
    cases before
  · exact latest

/-! ## The invariant of every run -/

theorem invariant_init : Invariant init where
  inside := .free rfl rfl
  exclusive _ _ open' := by cases open'
  numbered _ _ open' := by cases open'
  nodup := List.nodup_nil
  pipeline := rfl

variable {c : Nat} {call : Call}

/-- A call that moves on holds the lock if its new phase does; the others keep it. -/
theorem Invariant.exclusive_insert (inv : Invariant s) {phase : Phase} {writer : Option Nat}
    (own : phase = .sending ∨ phase = .sent → writer = some c)
    (others : ∀ c', c' ≠ c → s.writer = some c' → writer = some c') (c' : Nat) (call' : Call)
    (open' : (s.calls.insert c { call with phase }).lookup c' = some call')
    (holds : call'.phase = .sending ∨ call'.phase = .sent) : writer = some c' := by
  rw [Table.lookup_insert_eq_ite] at open'
  split at open'
  · cases open'
    subst_vars
    exact own holds
  · exact others c' ‹_› (inv.exclusive c' call' open' holds)

theorem Invariant.numbered_insert (inv : Invariant s) (open' : s.calls.lookup c = some call) (call₁ : Call) (c' : Nat)
    (call' : Call) (there : (s.calls.insert c call₁).lookup c' = some call') : c' < s.nextCall := by
  rw [Table.lookup_insert_eq_ite] at there
  split at there
  · subst_vars
    exact inv.numbered c' call open'
  · exact inv.numbered c' call' there

/-- A call that does not hold the lock moves on without it. -/
theorem Invariant.advance (inv : Invariant s) (open' : s.calls.lookup c = some call) {phase : Phase}
    (waiting : phase ≠ .sending ∧ phase ≠ .sent) (free : s.writer = none) : Invariant (s.advance c call phase) where
  inside := inv.inside.frame rfl rfl rfl fun c' held => by rw [free] at held; cases held
  exclusive := inv.exclusive_insert (fun holds => (not_or.2 waiting holds).elim) fun _ _ held => held
  numbered := inv.numbered_insert open' _
  nodup := inv.nodup
  pipeline := inv.pipeline

theorem Invariant.begin (inv : Invariant s) (topic : String) (number : Option Nat) (next : Nat) :
    Invariant { s.begin topic number with nextTopicId := next } where
  inside := by
    refine inv.inside.frame rfl rfl rfl fun c held => ?_
    have old : c ≠ s.nextCall := by
      obtain ⟨call, open'⟩ := inv.inside.exists_open held
      exact Nat.ne_of_lt (inv.numbered c call open')
    exact (Table.lookup_insert_eq_ite _ _ _ _).trans (if_neg old)
  exclusive := by
    intro c call open' holds
    rw [State.begin, Table.lookup_insert_eq_ite] at open'
    split at open'
    · cases open'
      exact holds.elim nofun nofun
    · exact inv.exclusive c call open' holds
  numbered := by
    intro c call open'
    rw [State.begin, Table.lookup_insert_eq_ite] at open'
    split at open'
    · subst_vars
      exact Nat.lt_succ_self _
    · exact Nat.lt_succ_of_lt (inv.numbered c call open')
  nodup := inv.nodup
  pipeline := inv.pipeline

theorem Invariant.acquire (inv : Invariant s) (open' : s.calls.lookup c = some call) (free : s.writer = none)
    (missing : call.topic ∉ s.knownTopics) : Invariant { s.advance c call .sending with writer := some c } where
  inside := by
    refine .sending rfl ((Table.lookup_insert_eq_ite _ _ _ _).trans (if_pos rfl)) rfl missing ?_
    exact inv.inside.recorded free
  exclusive := inv.exclusive_insert (fun _ => rfl) fun c' _ held => by rw [free] at held; cases held
  numbered := inv.numbered_insert open' _
  nodup := inv.nodup
  pipeline := inv.pipeline

theorem Invariant.send (inv : Invariant s) (open' : s.calls.lookup c = some call) (phase : call.phase = .sending)
    (room : s.channel = none) : Invariant (s.send c call) := by
  have held := inv.exclusive c call open' (.inl phase)
  obtain ⟨missing, recorded⟩ := inv.inside.of_sending held open' phase
  have topics : (s.send c call).topics = s.topics ++ [call.topic] := List.map_append
  refine ⟨?_, ?_, inv.numbered_insert open' _, ?_, ?_⟩
  · exact .sent held ((Table.lookup_insert_eq_ite _ _ _ _).trans (if_pos rfl)) rfl rfl recorded
  · exact inv.exclusive_insert (fun _ => held) fun _ _ other => other
  · rw [topics, List.nodup_append_comm]
    exact List.nodup_cons.2 ⟨recorded ▸ missing, inv.nodup⟩
  · rw [topics, inv.pipeline, room, Option.toList_none, List.append_nil]
    rfl

theorem Invariant.insert (inv : Invariant s) (open' : s.calls.lookup c = some call) (phase : call.phase = .sent) :
    Invariant (s.insert c call) := by
  have held := inv.exclusive c call open' (.inr phase)
  obtain ⟨earlier, latest, recorded⟩ := inv.inside.of_sent held open' phase
  have topics : s.topics = s.knownTopics ++ [call.topic] := by
    rw [State.topics, latest, List.map_append, recorded]
    rfl
  refine ⟨.free rfl ?_, ?_, inv.numbered_insert open' _, inv.nodup, inv.pipeline⟩
  · have missing : call.topic ∉ s.knownTopics := by
      have nodup := inv.nodup
      rw [topics, List.nodup_append_comm] at nodup
      exact (List.nodup_cons.1 nodup).1
    show s.topics = insertTopic call.topic s.knownTopics
    rw [insertTopic, if_neg missing, topics]
  · refine inv.exclusive_insert (fun holds => holds.elim nofun nofun) fun c' other held' => ?_
    exact absurd (Option.some.inj (held'.symm.trans held)) other

theorem Invariant.abandon (inv : Invariant s) (open' : s.calls.lookup c = some call)
    (phase : call.phase = .called ∨ call.phase = .missed ∨ call.phase = .sending) : Invariant (s.abandon c call) := by
  have others : ∀ c' call', (s.calls.erase c).lookup c' = some call' → c' ≠ c ∧ s.calls.lookup c' = some call' := by
    intro c' call' there
    rw [Table.lookup_erase_eq_ite] at there
    split at there
    · cases there
    · exact ⟨‹_›, there⟩
  refine ⟨?_, ?_, fun c' call' there => inv.numbered c' call' (others c' call' there).2, inv.nodup, inv.pipeline⟩
  · by_cases sending : call.phase = .sending
    · have held := inv.exclusive c call open' (.inl sending)
      exact .free (if_pos sending) (inv.inside.of_sending held open' sending).2
    · refine inv.inside.frame (if_neg sending) rfl rfl fun c' held => ?_
      have other : c' ≠ c := by
        rintro rfl
        obtain ⟨first, -⟩ | ⟨later, -⟩ := inv.inside.of_held held open'
        · exact sending first
        · simp [later] at phase
      exact (Table.lookup_erase_eq_ite _ _ _).trans (if_neg other)
  · intro c' call' there holds
    obtain ⟨other, there⟩ := others c' call' there
    have held := inv.exclusive c' call' there holds
    have kept : call.phase ≠ .sending := by
      intro sending
      exact other (Option.some.inj (held.symm.trans (inv.exclusive c call open' (.inl sending))))
    exact (if_neg kept).trans held

theorem Invariant.step (inv : Invariant s) (taken : Step s a s') : Invariant s' := by
  cases taken with
  | createTopic topic => exact inv.begin topic none s.nextTopicId
  | newTopic topicPrefix => exact inv.begin _ _ _
  | found open' _ free => exact inv.advance open' ⟨nofun, nofun⟩ free
  | missed open' _ free => exact inv.advance open' ⟨nofun, nofun⟩ free
  | late open' _ free => exact inv.advance open' ⟨nofun, nofun⟩ free
  | acquire open' _ free missing => exact inv.acquire open' free missing
  | send open' phase room => exact inv.send open' phase room
  | insert open' phase => exact inv.insert open' phase
  | abandon open' phase => exact inv.abandon open' phase
  | @receive topic idle queued =>
    refine ⟨inv.inside.frame rfl rfl rfl fun _ _ => rfl, inv.exclusive, inv.numbered, inv.nodup, ?_⟩
    have pipeline := inv.pipeline
    rw [idle, queued] at pipeline
    exact pipeline.trans (by simp)
  | @create topic busy =>
    refine ⟨inv.inside.frame rfl rfl rfl fun _ _ => rfl, inv.exclusive, inv.numbered, inv.nodup, ?_⟩
    have pipeline := inv.pipeline
    rw [busy] at pipeline
    exact pipeline.trans (by simp)

theorem invariant_of_reachable (reached : system.Reachable s) : Invariant s :=
  Lts.Reachable.invariant (M := system) invariant_init
    (fun _ _ _ _ inv taken => inv.step (.of_step taken)) s reached

/-! ## Calls that return -/

/-- The call that a step lets return. -/
def State.returning (s : State) : Action → Option (Nat × Call)
  | .lookup c | .acquire c =>
    (s.calls.lookup c).bind fun call => if call.topic ∈ s.knownTopics then some (c, call) else none
  | .insert c => (s.calls.lookup c).map fun call => (c, call)
  | _ => none

/-- The calls that return are those that a step moves to `returned`. -/
theorem Step.returning_iff (taken : Step s a s') : s.returning a = some (c, call) ↔
    s.calls.lookup c = some call ∧ call.phase ≠ .returned ∧
      ∃ call', s'.calls.lookup c = some call' ∧ call'.phase = .returned := by
  have moved : ∀ {c₀ : Nat} {call₀ : Call} {phase : Phase}, s.calls.lookup c₀ = some call₀ → call₀.phase ≠ .returned →
      ((s.calls.lookup c = some call ∧ call.phase ≠ .returned ∧
        ∃ call', (s.calls.insert c₀ { call₀ with phase }).lookup c = some call' ∧ call'.phase = .returned) ↔
          phase = .returned ∧ c₀ = c ∧ call₀ = call) := by
    intro c₀ call₀ phase was running
    rw [Table.lookup_insert_eq_ite]
    constructor
    · rintro ⟨open', waiting, call', after, returned⟩
      split at after
      · cases after
        subst_vars
        exact ⟨rfl, rfl, Option.some.inj (was.symm.trans open')⟩
      · obtain rfl := Option.some.inj (after.symm.trans open')
        exact absurd returned waiting
    · rintro ⟨rfl, rfl, rfl⟩
      exact ⟨was, running, _, if_pos rfl, rfl⟩
  have kept : ∀ {t : Table Nat Call}, (∀ call', t.lookup c = some call' → s.calls.lookup c = some call' ∨
      call'.phase = .called) → ¬ (s.calls.lookup c = some call ∧ call.phase ≠ .returned ∧
        ∃ call', t.lookup c = some call' ∧ call'.phase = .returned) := by
    rintro t origin ⟨open', waiting, call', after, returned⟩
    rcases origin call' after with before | new
    · obtain rfl := Option.some.inj (before.symm.trans open')
      exact waiting returned
    · rw [returned] at new
      cases new
  have started : ∀ topic number call', (s.calls.insert s.nextCall ⟨topic, number, .called⟩).lookup c = some call' →
      s.calls.lookup c = some call' ∨ call'.phase = .called := by
    intro topic number call' after
    rw [Table.lookup_insert_eq_ite] at after
    split at after
    · cases after
      exact .inr rfl
    · exact .inl after
  cases taken with
  | createTopic topic => exact iff_of_false nofun (kept (started topic none))
  | newTopic topicPrefix => exact iff_of_false nofun (kept (started _ _))
  | found was phase _ known =>
    refine Iff.trans ?_ (moved was (by simp [phase])).symm
    simp [State.returning, was, known]
  | missed was phase _ missing =>
    refine Iff.trans ?_ (moved was (by simp [phase])).symm
    simp [State.returning, was, missing]
  | late was phase _ known =>
    refine Iff.trans ?_ (moved was (by simp [phase])).symm
    simp [State.returning, was, known]
  | acquire was phase _ missing =>
    refine Iff.trans ?_ (moved was (by simp [phase])).symm
    simp [State.returning, was, missing]
  | send was phase =>
    refine Iff.trans ?_ (moved was (by simp [phase])).symm
    simp [State.returning]
  | insert was phase =>
    refine Iff.trans ?_ (moved was (by simp [phase])).symm
    simp [State.returning, was]
  | abandon =>
    refine iff_of_false nofun (kept fun call' after => ?_)
    rw [State.abandon, Table.lookup_erase_eq_ite] at after
    split at after
    · cases after
    · exact .inl after
  | receive => exact iff_of_false nofun (kept fun _ => .inl)
  | create => exact iff_of_false nofun (kept fun _ => .inl)

/-- A call returns because its topic is recorded, or because it has sent it itself. -/
theorem returning_cases (inv : Invariant s) (taken : Step s a s') (returns : s.returning a = some (c, call)) :
    s.calls.lookup c = some call ∧ call.phase ≠ .returned ∧
      ((call.phase ≠ .sent ∧ s.writer = none ∧ call.topic ∈ s.knownTopics) ∨
        call.phase = .sent ∧ (c, call.topic) ∈ s.sent) := by
  obtain ⟨open', running, -⟩ := taken.returning_iff.1 returns
  refine ⟨open', running, ?_⟩
  cases taken with
  | found was phase free known =>
    rw [State.returning, was, Option.bind_some, if_pos known] at returns
    cases returns
    exact .inl ⟨by simp [phase], free, known⟩
  | missed was phase free missing =>
    rw [State.returning, was, Option.bind_some, if_neg missing] at returns
    cases returns
  | late was phase free known =>
    rw [State.returning, was, Option.bind_some, if_pos known] at returns
    cases returns
    exact .inl ⟨by simp [phase], free, known⟩
  | acquire was phase free missing =>
    rw [State.returning, was, Option.bind_some, if_neg missing] at returns
    cases returns
  | insert was phase =>
    rw [State.returning, was, Option.map_some] at returns
    cases returns
    obtain ⟨earlier, latest, -⟩ := inv.inside.of_sent (inv.exclusive c call open' (.inr phase)) open' phase
    exact .inr ⟨phase, latest ▸ List.mem_append_right _ List.mem_cons_self⟩
  | _ => cases returns

/-- What returns has been sent. -/
theorem mem_topics_of_returning (inv : Invariant s) (taken : Step s a s')
    (returns : s.returning a = some (c, call)) : call.topic ∈ s.topics := by
  obtain ⟨-, -, ⟨-, free, known⟩ | ⟨-, sent⟩⟩ := returning_cases inv taken returns
  · rwa [inv.inside.recorded free]
  · exact List.mem_map_of_mem sent

/-! ## Whether the topic exists then -/

/-- The topic of a call that returns has been created. -/
def Created (s : State) (a : Action) : Prop := ∀ r ∈ s.returning a, r.2.topic ∈ s.created

/-- The topic of a call that returns is not on its way to being created: neither does it wait in the
channel nor has the worker just received it. -/
def Settled (s : State) (a : Action) : Prop :=
  ∀ r ∈ s.returning a, s.channel ≠ some r.2.topic ∧ s.worker ≠ some r.2.topic

instance (s : State) (a : Action) : Decidable (Created s a) := inferInstanceAs (Decidable (∀ r ∈ s.returning a, _))

theorem created_iff_settled (inv : Invariant s) (taken : Step s a s') : Created s a ↔ Settled s a := by
  refine forall_congr' fun r => forall_congr' fun returns => ?_
  have sent := mem_topics_of_returning inv taken returns
  have nodup := inv.nodup
  rw [inv.pipeline] at sent nodup
  rw [List.mem_append, List.mem_append, Option.mem_toList, Option.mem_toList] at sent
  obtain ⟨before, -, channel⟩ := List.nodup_append.1 nodup
  obtain ⟨-, -, worker⟩ := List.nodup_append.1 before
  constructor
  · intro created
    constructor
    · intro queued
      exact channel _ (List.mem_append_left _ created) _ (Option.mem_toList.2 queued) rfl
    · intro received
      exact worker _ created _ (Option.mem_toList.2 received) rfl
  · rintro ⟨notQueued, notReceived⟩
    rcases sent with (created | received) | queued
    · exact created
    · exact absurd received notReceived
    · exact absurd queued notQueued

/-- **The topic of every call exists when the call returns, exactly if none is still on its way then.** -/
theorem along_created_iff (as : List Action) : system.Along Created init as ↔ system.Along Settled init as :=
  Lts.Along.iff (M := system)
    (fun _ _ _ reached taken => created_iff_settled (invariant_of_reachable reached) (.of_step taken)) as

/-- The call returns as soon as its topic is in the channel. -/
theorem topic_is_queued : ¬ ∀ as, system.Along Created init as := by
  intro created
  exact absurd (created [.createTopic "t", .lookup 0, .acquire 0, .send 0, .insert 0]) (by decide)

end PubSub.Kafka.TestingUtils
