import PubSub.Base.Progress
import PubSub.Kafka.TestingUtils.MockKafka

/-!
# Calls of the mock Kafka cluster return

A call holds the write lock while it waits for room in the channel, and every other call waits for that
lock. This is no deadlock: the worker needs no lock to make room. Left to themselves, all calls return and
all their topics are created.
-/

namespace PubSub.Kafka.TestingUtils
set_option autoImplicit false
open Base

/-- The steps of the calls that are under way, and of the worker. -/
def Action.internal : Action → Prop
  | .lookup _ | .acquire _ | .send _ | .insert _ | .receive | .create => True
  | .createTopic _ | .newTopic _ | .abandon _ => False

/-- How many steps a call causes at most, the worker's included. -/
def Call.work (call : Call) : Nat :=
  match call.phase with
  | .called => 6
  | .missed => 5
  | .sending => 4
  | .sent => 1
  | .returned => 0

def State.work (s : State) : Nat :=
  s.calls.total Call.work + 2 * s.channel.toList.length + s.worker.toList.length

variable {s s' : State} {a : Action} {c : Nat} {call : Call}

/-! ## Less and less to do -/

theorem total_insert_add (open' : s.calls.lookup c = some call) (call' : Call) :
    Table.total Call.work (s.calls.insert c call') + call.work = s.calls.total Call.work + call'.work := by
  rw [Table.total_insert, Table.total_of_lookup open']
  omega

theorem Step.work_lt (taken : Step s a s') (own : a.internal) : s'.work < s.work := by
  -- a call at a phase of more work than its next one
  have advanced : ∀ {c : Nat} {call : Call} {phase : Phase}, s.calls.lookup c = some call →
      Call.work { call with phase } < call.work →
      (s.advance c call phase).calls.total Call.work < s.calls.total Call.work := by
    intro c call phase open' less
    have sum := total_insert_add open' { call with phase }
    show Table.total Call.work (s.calls.insert c { call with phase }) < _
    omega
  cases taken with
  | createTopic => exact own.elim
  | newTopic => exact own.elim
  | abandon => exact own.elim
  | found open' phase =>
    refine Nat.add_lt_add_right (Nat.add_lt_add_right (advanced open' ?_) _) _
    simp [Call.work, phase]
  | missed open' phase =>
    refine Nat.add_lt_add_right (Nat.add_lt_add_right (advanced open' ?_) _) _
    simp [Call.work, phase]
  | late open' phase =>
    refine Nat.add_lt_add_right (Nat.add_lt_add_right (advanced open' ?_) _) _
    simp [Call.work, phase]
  | acquire open' phase =>
    refine Nat.add_lt_add_right (Nat.add_lt_add_right (advanced open' ?_) _) _
    simp [Call.work, phase]
  | insert open' phase =>
    refine Nat.add_lt_add_right (Nat.add_lt_add_right (advanced open' ?_) _) _
    simp [Call.work, phase]
  | @send c call open' phase room =>
    have sum := total_insert_add open' { call with phase := .sent }
    have before : call.work = 4 := by rw [Call.work, phase]
    have after : Call.work { call with phase := .sent } = 1 := rfl
    simp only [State.work, State.send, State.advance, room, Option.toList_none, Option.toList_some, List.length_nil,
      List.length_singleton]
    omega
  | receive idle queued =>
    simp only [State.work, idle, queued, Option.toList_none, Option.toList_some, List.length_nil, List.length_singleton]
    omega
  | create busy =>
    simp only [State.work, busy, Option.toList_none, Option.toList_some, List.length_nil, List.length_singleton]
    omega

theorem decreasing : system.Decreasing Action.internal Invariant State.work where
  keeps _ _ _ inv _ taken := inv.step (.of_step taken)
  less _ _ _ _ own taken := (Step.of_step taken).work_lt own

/-! ## At rest -/

/-- The worker has dealt with everything. -/
theorem idle_of_atRest (rest : system.AtRest Action.internal s) : s.worker = none ∧ s.channel = none := by
  have idle : s.worker = none := Option.map_eq_none_iff.1 (rest .create trivial)
  refine ⟨idle, ?_⟩
  have receive : step s .receive = none := rest .receive trivial
  rw [step, if_pos idle] at receive
  exact Option.map_eq_none_iff.1 receive

/-- A call that holds the write lock could move on. -/
theorem free_of_atRest (inv : Invariant s) (rest : system.AtRest Action.internal s) : s.writer = none := by
  obtain ⟨-, room⟩ := idle_of_atRest rest
  cases inv.inside with
  | free writer => exact writer
  | @sending c call writer open' phase =>
    have send : step s (.send c) = none := rest (.send c) trivial
    simp [step, State.call, open', phase, room] at send
  | @sent c call earlier writer open' phase =>
    have insert : step s (.insert c) = none := rest (.insert c) trivial
    simp [step, State.call, open', phase] at insert

theorem returned_of_atRest (inv : Invariant s) (rest : system.AtRest Action.internal s)
    (open' : s.calls.lookup c = some call) : call.phase = .returned := by
  have free := free_of_atRest inv rest
  cases phase : call.phase with
  | called =>
    have lookup : step s (.lookup c) = none := rest (.lookup c) trivial
    simp [step, State.call, open', phase, free] at lookup
  | missed =>
    have acquire : step s (.acquire c) = none := rest (.acquire c) trivial
    simp [step, State.call, open', phase, free] at acquire
  | sending =>
    have held := inv.exclusive c call open' (.inl phase)
    rw [free] at held
    cases held
  | sent =>
    have held := inv.exclusive c call open' (.inr phase)
    rw [free] at held
    cases held
  | returned => rfl

/-! ## Topics of the calls that have returned -/

/-- A call that has returned has a topic that was sent. -/
def Answered (s : State) : Prop :=
  ∀ c call, s.calls.lookup c = some call → call.phase = .returned → call.topic ∈ s.topics

theorem answered_init : Answered init := fun _ _ open' => by cases open'

theorem Answered.insert (answered : Answered s) {c₁ : Nat} {call₁ : Call}
    (sent : call₁.phase = .returned → call₁.topic ∈ s.topics) (c : Nat) (call : Call)
    (open' : (s.calls.insert c₁ call₁).lookup c = some call) (returned : call.phase = .returned) :
    call.topic ∈ s.topics := by
  rw [Table.lookup_insert_eq_ite] at open'
  split at open'
  · cases open'
    exact sent returned
  · exact answered c call open' returned

theorem Answered.step (answered : Answered s) (inv : Invariant s) (taken : Step s a s') : Answered s' := by
  cases taken with
  | createTopic => exact answered.insert nofun
  | newTopic => exact answered.insert nofun
  | missed => exact answered.insert nofun
  | acquire => exact answered.insert nofun
  | found _ _ free known =>
    rw [← inv.inside.recorded free] at known
    exact answered.insert fun _ => known
  | late _ _ free known =>
    rw [← inv.inside.recorded free] at known
    exact answered.insert fun _ => known
  | @send c₁ call₁ =>
    intro c call open' returned
    have topics : (s.send c₁ call₁).topics = s.topics ++ [call₁.topic] := List.map_append
    rw [topics]
    refine List.mem_append_left _ (answered.insert ?_ c call open' returned)
    nofun
  | @insert c₁ call₁ open₁ phase =>
    obtain ⟨earlier, latest, -⟩ := inv.inside.of_sent (inv.exclusive c₁ call₁ open₁ (.inr phase)) open₁ phase
    refine answered.insert fun _ => ?_
    rw [State.topics, latest, List.map_append]
    exact List.mem_append_right _ List.mem_cons_self
  | abandon =>
    intro c call open' returned
    rw [State.abandon, Table.lookup_erase_eq_ite] at open'
    split at open'
    · cases open'
    · exact answered c call open' returned
  | receive => exact answered
  | create => exact answered

theorem answered_of_reachable (reached : system.Reachable s) : Answered s :=
  Lts.Reachable.invariant (M := system) answered_init
    (fun _ _ _ reached answered taken => answered.step (invariant_of_reachable reached) (.of_step taken)) s reached

/-- **Every call returns, and its topic is created.** Whatever the order of their steps, the calls under
way and the worker come to rest, after no more steps than there is work, and they can; then every call
has returned, the topics created are those recorded, each once, and those of the calls are among them. -/
theorem calls_return (reached : system.Reachable s) :
    (∀ as s', (∀ a ∈ as, a.internal) → system.exec s as = some s' → as.length ≤ s.work ∧
      (system.AtRest Action.internal s' → s'.created = s'.knownTopics ∧ s'.created.Nodup ∧
        ∀ c call, s'.calls.lookup c = some call → call.phase = .returned ∧ call.topic ∈ s'.created)) ∧
      ∃ as s', (∀ a ∈ as, a.internal) ∧ system.exec s as = some s' ∧ system.AtRest Action.internal s' := by
  have inv := invariant_of_reachable reached
  refine ⟨fun as s' own run => ⟨?_, fun rest => ?_⟩, decreasing.exists_atRest inv⟩
  · have bound := decreasing.length_le inv own run
    omega
  · have reached' := reached.exec run
    have inv' := invariant_of_reachable reached'
    obtain ⟨idle, room⟩ := idle_of_atRest rest
    have created : s'.topics = s'.created := by
      rw [inv'.pipeline, idle, room, Option.toList_none, List.append_nil, List.append_nil]
    refine ⟨?_, created ▸ inv'.nodup, fun c call open' => ?_⟩
    · rw [← created, inv'.inside.recorded (free_of_atRest inv' rest)]
    · have returned := returned_of_atRest inv' rest open'
      exact ⟨returned, created ▸ answered_of_reachable reached' c call open' returned⟩

/-- The second call holds the write lock and waits for room. -/
def waitingForRoom : List Action :=
  [.newTopic "p", .createTopic "q", .lookup 0, .lookup 1, .acquire 0, .send 0, .insert 0, .acquire 1]

theorem calls_return_waitingForRoom : ∃ s, system.exec init waitingForRoom = some s ∧
    (s.writer, s.channel, s.work) = (some 1, some "p-1", 6) ∧
    (∀ as s', (∀ a ∈ as, a.internal) → system.exec s as = some s' → as.length ≤ s.work ∧
      (system.AtRest Action.internal s' → s'.created = s'.knownTopics ∧ s'.created.Nodup ∧
        ∀ c call, s'.calls.lookup c = some call → call.phase = .returned ∧ call.topic ∈ s'.created)) ∧
      ∃ as s', (∀ a ∈ as, a.internal) ∧ system.exec s as = some s' ∧ system.AtRest Action.internal s' := by
  have ends : (system.exec init waitingForRoom).map (fun s => (s.writer, s.channel, s.work)) =
      some (some 1, some "p-1", 6) := by decide
  obtain ⟨s, run, facts⟩ := Option.map_eq_some_iff.1 ends
  exact ⟨s, run, facts, calls_return ⟨waitingForRoom, run⟩⟩

end PubSub.Kafka.TestingUtils
