import PubSub.Redis.StreamRuntime

/-!
# The Redis Stream poller over its sessions

`start_stream` as a system together with the server. It connects, reads in a call of
`monitor_stream` until an `XREAD` fails, and starts over. The position in the topic is local to
the call, so every session begins at `$`. Producers append and trim all the time, and a reply
that is on its way when an `XREAD` fails is lost.
-/

namespace PubSub.Redis
set_option autoImplicit false
open Base

/-- Where `start_stream` stands: it has no connection, it is in `monitor_stream`, or its token has
fired. -/
inductive Stage where
  | connecting
  | monitoring
  | cancelled
  deriving DecidableEq

/-- `start_stream` and the topic it reads, which its session holds; without a connection the session
has not begun. `told` is what was emitted before the session; `past` is history, the entries that
the earlier sessions read. -/
structure Poller (I : Type) [LinearOrder I] where
  stage : Stage
  session : Session I
  outage : OutageState ErrorKind
  told : List Event
  past : List (I × Fields)

namespace Poller

variable {I : Type} [LinearOrder I]

def start (topic : Topic I) : Poller I where
  stage := .connecting
  session := .start topic
  outage := default
  told := []
  past := []

/-- All entries read, over all sessions. -/
def read (s : Poller I) : List (I × Fields) := s.past ++ s.session.read

/-- All that was emitted, over all sessions. -/
def trace (s : Poller I) : List Event := s.told ++ s.session.events

inductive Action (I : Type) where
  /-- a step of the session, or of the producers while there is none -/
  | session (a : Session.Action I)
  /-- `get_connection` fails -/
  | connectionFailed (err : RedisError)
  /-- `get_connection` returns a connection, and `monitor_stream` is called -/
  | connected
  /-- an `XREAD` fails, wherever its request or its reply is -/
  | xreadFailed (err : RedisError)
  /-- the token fires -/
  | cancel

/-- The steps that the producers make, with or without a session. -/
def byProducer : Session.Action I → Bool
  | .xadd .. | .trim _ => true
  | _ => false

variable [RedisClient] [SerdeJson] [Debug ParsingError] [Debug (StreamId I)] [Debug RedisError]

/-- The loop goes back to its head after a failed `XREAD`. -/
def fail (s : Poller I) (err : RedisError) : Poller I :=
  let (events, outage) := s.outage.onError err.kind err "Redis stream XREAD error"
  { stage := .connecting
    session := .start s.session.topic
    outage := outage
    told := s.trace ++ ([.evict] ++ events)
    past := s.read }

def refuse (s : Poller I) (err : RedisError) : Poller I :=
  let (events, outage) := s.outage.onError err.kind err "Redis stream connection error"
  { s with outage := outage, told := s.told ++ (.attempt :: events) }

def connect (host : String) (s : Poller I) : Poller I :=
  let (recovered, outage) := s.outage.onRecovery
  { s with
    stage := .monitoring
    outage := outage
    told := s.told ++ (.attempt :: if recovered then [.info s!"Redis stream recovered for {host}"] else []) }

def step (host : String) (s : Poller I) : Action I → Option (Poller I)
  | .session a =>
    if s.stage = .monitoring ∨ byProducer a then
      (Session.step s.session a).map fun session => { s with session := session }
    else none
  | .connectionFailed err => if s.stage = .connecting then some (s.refuse err) else none
  | .connected => if s.stage = .connecting then some (s.connect host) else none
  | .xreadFailed err => if s.stage = .monitoring then some (s.fail err) else none
  | .cancel => if s.stage = .cancelled then none else some { s with stage := .cancelled }

/-- What each step needs and does, one constructor for each branch of `step`. -/
inductive Step (host : String) (s : Poller I) : Action I → Poller I → Prop where
  | session {a : Session.Action I} {session : Session I}
      (allowed : s.stage = .monitoring ∨ byProducer a) (taken : Session.step s.session a = some session) :
      Step host s (.session a) { s with session := session }
  | connectionFailed (err : RedisError) (connecting : s.stage = .connecting) :
      Step host s (.connectionFailed err) (s.refuse err)
  | connected (connecting : s.stage = .connecting) : Step host s .connected (s.connect host)
  | xreadFailed (err : RedisError) (monitoring : s.stage = .monitoring) :
      Step host s (.xreadFailed err) (s.fail err)
  | cancel (going : s.stage ≠ .cancelled) : Step host s .cancel { s with stage := .cancelled }

theorem Step.of_step {host : String} {s s' : Poller I} {a : Action I} (taken : step host s a = some s') :
    Step host s a s' := by
  cases a with
  | session a =>
    simp only [step] at taken
    split at taken
    · obtain ⟨session, inner, rfl⟩ := Option.map_eq_some_iff.1 taken
      exact .session ‹_› inner
    · cases taken
  | connectionFailed err =>
    simp only [step] at taken
    split at taken <;> cases taken
    exact .connectionFailed err ‹_›
  | connected =>
    simp only [step] at taken
    split at taken <;> cases taken
    exact .connected ‹_›
  | xreadFailed err =>
    simp only [step] at taken
    split at taken <;> cases taken
    exact .xreadFailed err ‹_›
  | cancel =>
    simp only [step] at taken
    split at taken <;> cases taken
    exact .cancel ‹_›

end Poller

section Polling

variable {I : Type} [LinearOrder I] [RedisClient] [SerdeJson] [Debug ParsingError] [Debug (StreamId I)]

/-- `start_stream` on one topic. -/
def poller [Debug RedisError] (host : String) (topic : Topic I) : Lts (Poller I) (Poller.Action I) :=
  ⟨.start topic, Poller.step host⟩

end Polling

/-! ## One session after the others -/

namespace Session

variable {I : Type} [LinearOrder I] {s s' : Session I} {a : Action I} {past : List (I × Fields)}

/-- The entries that earlier sessions read come before all that this one asks for and sees. -/
structure Behind (past : List (I × Fields)) (s : Session I) : Prop where
  known : ∀ e ∈ past, (e.1 : WithBot I) ≤ s.topic.lastId
  next : ∀ id, s.nextId = some id → ∀ e ∈ past, e.1 ≤ id
  waiting : ∀ t, s.phase = .waiting t → ∀ e ∈ past, (e.1 : WithBot I) ≤ t
  seen : ∀ e ∈ past, ∀ e' ∈ s.seen, e.1 < e'.1

/-- From its first entry on a session sees what is retained, without a gap: the entries seen were
appended, what is retained after the first of them was seen or comes after all of them, and the
next request asks for what comes after the last of them. -/
structure Contiguous (s : Session I) : Prop where
  origin : ∀ e ∈ s.seen, e ∈ s.topic.appended
  follows : ∀ first ∈ s.seen.head?, ∀ e ∈ s.topic.retained, first.1 < e.1 →
    e ∈ s.seen ∨ ∀ r ∈ s.seen, r.1 < e.1
  next : s.nextId = s.seen.getLast?.map Prod.fst
  waiting : ∀ t, s.phase = .waiting t → ∀ last ∈ s.read.getLast?, t = last.1

theorem Behind.receive (behind : Behind past s) (calling : s.phase = .calling) : Behind past s.receive := by
  obtain ⟨next, seen⟩ := idle (s := s) (by simp [calling])
  obtain ⟨next', seen'⟩ := idle_receive (s := s)
  refine ⟨behind.known, ?_, ?_, ?_⟩
  · rw [next', ← next]
    exact behind.next
  · rintro t ⟨⟩ e here
    unfold point
    split
    · exact WithBot.coe_le_coe.2 (behind.next _ (next.trans ‹_›) e here)
    · exact behind.known e here
  · rw [seen', ← seen]
    exact behind.seen

theorem Behind.reply (behind : Behind past s) {t : WithBot I} (waiting : s.phase = .waiting t)
    (answer : s.topic.after t ≠ []) : Behind past { s with phase := .answered (s.topic.after t) } := by
  obtain ⟨last, final, next⟩ := nextId_reply answer
  have seen := (idle (s := s) (by simp [waiting])).2
  have above : ∀ e ∈ past, ∀ e' ∈ s.topic.after t, e.1 < e'.1 := fun e here e' after =>
    WithBot.coe_lt_coe.1 (lt_of_le_of_lt (behind.waiting t waiting e here) (StreamLog.mem_after.1 after).2)
  refine ⟨behind.known, ?_, by rintro _ ⟨⟩, fun e here e' seen' => ?_⟩
  · rw [next]
    rintro id ⟨⟩ e here
    exact le_of_lt (above e here last (List.mem_of_getLast? final))
  · rcases List.mem_append.1 seen' with old | new
    · exact behind.seen e here e' (by rw [seen]; exact old)
    · exact above e here e' new

theorem Contiguous.start {topic : Topic I} : Contiguous (.start topic : Session I) := by
  refine ⟨?_, ?_, rfl, ?_⟩
  · intro e bad
    cases bad
  · intro first bad
    cases bad
  · intro t bad
    cases bad

/-- A step that neither appends nor shows the session anything. -/
theorem Contiguous.carry (contiguous : Contiguous s) (appended : s'.topic.appended = s.topic.appended)
    (trimmed : s.topic.trimmed ≤ s'.topic.trimmed) (seen : s'.seen = s.seen) (next : s'.nextId = s.nextId)
    (waiting : ∀ t, s'.phase = .waiting t → ∀ last ∈ s'.read.getLast?, t = last.1) : Contiguous s' := by
  refine ⟨?_, ?_, ?_, waiting⟩
  · rw [seen, appended]
    exact contiguous.origin
  · rw [seen]
    intro first head e retained
    refine contiguous.follows first head e ?_
    unfold StreamLog.retained at retained ⊢
    rw [appended] at retained
    exact List.drop_subset_drop_left _ trimmed retained
  · rw [next, seen]
    exact contiguous.next

/-- A new entry comes after all that was seen. -/
theorem Contiguous.xadd (contiguous : Contiguous s) {id : I} (fields : Fields) (newer : s.topic.lastId < id) :
    Contiguous { s with topic := s.topic.append id fields newer } := by
  refine ⟨fun e here => ?_, fun first head e retained after => ?_, contiguous.next, contiguous.waiting⟩
  · exact List.mem_append_left _ (contiguous.origin e here)
  · rcases StreamLog.mem_retained_append newer retained with old | rfl
    · exact contiguous.follows first head e old after
    · refine .inr fun r here => ?_
      exact WithBot.coe_lt_coe.1 (lt_of_le_of_lt (s.topic.le_lastId (contiguous.origin r here)) newer)

theorem Contiguous.receive (contiguous : Contiguous s) (calling : s.phase = .calling) : Contiguous s.receive := by
  obtain ⟨next, seen⟩ := idle (s := s) (by simp [calling])
  obtain ⟨next', seen'⟩ := idle_receive (s := s)
  refine contiguous.carry rfl (Nat.le_refl _) (seen'.trans seen.symm) (next'.trans next.symm) ?_
  rintro t ⟨⟩ last final
  have latest : s.latestId = some last.1 := by
    have final : s.read.getLast? = some last := final
    rw [← next, contiguous.next, seen, final]
    rfl
  unfold point
  rw [latest]

/-- A reply continues where the session stands. -/
theorem Contiguous.reply (contiguous : Contiguous s) {t : WithBot I} (waiting : s.phase = .waiting t)
    (answer : s.topic.after t ≠ []) : Contiguous { s with phase := .answered (s.topic.after t) } := by
  obtain ⟨last, final, next⟩ := nextId_reply answer
  have seen := (idle (s := s) (by simp [waiting])).2
  refine ⟨fun e here => ?_, fun first head e retained after => .inl ?_, ?_, by rintro _ ⟨⟩⟩
  · rcases List.mem_append.1 here with old | new
    · exact contiguous.origin e (by rw [seen]; exact old)
    · exact StreamLog.appended_of_retained (StreamLog.mem_after.1 new).1
  · -- the reply has what comes after `t`, and what comes before was read
    have head : first ∈ (s.read ++ s.topic.after t).head? := head
    show e ∈ s.read ++ s.topic.after t
    obtain none | ⟨init, r, split⟩ := List.eq_nil_or_concat' s.read
    · rw [none, List.nil_append] at head ⊢
      have first' := StreamLog.mem_after.1 (List.mem_of_mem_head? head)
      exact StreamLog.mem_after.2 ⟨retained, lt_trans first'.2 (WithBot.coe_lt_coe.2 after)⟩
    · have old : first ∈ s.seen.head? := by
        rw [seen]
        rw [split] at head ⊢
        cases init <;> exact head
      rcases contiguous.follows first old e retained after with had | new
      · exact List.mem_append_left _ (by rw [← seen]; exact had)
      · have point := contiguous.waiting t waiting r (by rw [split, List.getLast?_concat]; rfl)
        have later := new r (by rw [seen, split]; simp)
        refine List.mem_append_right _ (StreamLog.mem_after.2 ⟨retained, ?_⟩)
        rw [point]
        exact WithBot.coe_lt_coe.2 later
  · rw [next]
    show _ = (s.read ++ s.topic.after t).getLast?.map Prod.fst
    rw [List.getLast?_append, final]
    rfl

section Steps

variable [RedisClient] [SerdeJson] [Debug ParsingError] [Debug (StreamId I)]

theorem Behind.step (behind : Behind past s) (taken : step s a = some s') : Behind past s' := by
  cases Step.of_step taken with
  | xadd fields newer =>
    refine ⟨fun e here => ?_, behind.next, behind.waiting, behind.seen⟩
    rw [StreamLog.lastId_append]
    exact le_of_lt (lt_of_le_of_lt (behind.known e here) newer)
  | trim n => exact ⟨behind.known, behind.next, behind.waiting, behind.seen⟩
  | receive calling => exact behind.receive calling
  | reply waiting answer => exact behind.reply waiting answer
  | timeout waiting =>
    obtain ⟨next, seen⟩ := idle (s := s) (by simp [waiting])
    refine ⟨behind.known, ?_, by rintro _ ⟨⟩, ?_⟩
    · show ∀ id, s.latestId = some id → _
      rw [← next]
      exact behind.next
    · show ∀ e ∈ past, ∀ e' ∈ s.read ++ [], e.1 < e'.1
      rw [List.append_nil, ← seen]
      exact behind.seen
  | handle answered =>
    obtain ⟨seen, next⟩ := seen_handle answered
    refine ⟨behind.known, ?_, by rintro _ ⟨⟩, ?_⟩
    · rw [next]
      exact behind.next
    · rw [seen]
      exact behind.seen

theorem Contiguous.step (contiguous : Contiguous s) (taken : step s a = some s') : Contiguous s' := by
  cases Step.of_step taken with
  | xadd fields newer => exact contiguous.xadd fields newer
  | trim n => exact contiguous.carry rfl (s.topic.trimmed_le_trim n) rfl rfl contiguous.waiting
  | receive calling => exact contiguous.receive calling
  | reply waiting answer => exact contiguous.reply waiting answer
  | timeout waiting =>
    obtain ⟨next, seen⟩ := idle (s := s) (by simp [waiting])
    refine contiguous.carry rfl (Nat.le_refl _) ?_ ?_ (by rintro _ ⟨⟩)
    · rw [seen]
      exact List.append_nil _
    · rw [next]
      rfl
  | handle answered =>
    obtain ⟨seen, next⟩ := seen_handle answered
    exact contiguous.carry rfl (Nat.le_refl _) seen next (by rintro _ ⟨⟩)

end Steps

end Session

/-! ## What is read over all sessions -/

section Reading

variable {I : Type} [LinearOrder I] [RedisClient] [SerdeJson] [Debug ParsingError] [Debug (StreamId I)]

/-- What the poller broadcasts for an entry, if it converts. -/
def broadcast (e : I × Fields) : Option ByteMessage := (streamEntryToByteMessage (.ofEntry e)).toOption

omit [LinearOrder I] in
theorem sends_forward (entries : List (I × Fields)) :
    sends (entries.map fun e => forward (.ofEntry e)) = entries.filterMap broadcast := by
  rw [sends, List.filterMap_map]
  congr 1
  funext e
  simp only [Function.comp_apply, forward, broadcast]
  cases streamEntryToByteMessage (.ofEntry e) <;> rfl

namespace Poller

variable [Debug RedisError] {host : String} {topic : Topic I} {s s' : Poller I} {a : Action I}

/-- The sessions follow one another: what the earlier ones read comes in order before what the
current one asks for, and what was broadcast is what was read. -/
structure InOrder (s : Poller I) : Prop where
  ordered : s.session.Ordered
  contiguous : s.session.Contiguous
  behind : s.session.Behind s.past
  sorted : (s.past.map Prod.fst).Pairwise (· < ·)
  told : sends s.told = s.past.filterMap broadcast

omit [Debug RedisError] in
theorem InOrder.start : InOrder (.start topic : Poller I) := by
  refine ⟨.start, .start, ⟨?_, ?_, ?_, ?_⟩, .nil, rfl⟩ <;> intros <;> contradiction

omit [Debug RedisError] in
/-- The entries read over all sessions are in order. -/
theorem InOrder.read (inOrder : InOrder s) : (s.read.map Prod.fst).Pairwise (· < ·) := by
  have session := inOrder.ordered.sorted
  rw [Session.seen, List.map_append, List.pairwise_append] at session
  rw [Poller.read, List.map_append, List.pairwise_append]
  refine ⟨inOrder.sorted, session.1, fun i early j late => ?_⟩
  obtain ⟨e, before, rfl⟩ := List.mem_map.1 early
  obtain ⟨e', after, rfl⟩ := List.mem_map.1 late
  exact inOrder.behind.seen e before e' (List.mem_append_left _ after)

omit [Debug RedisError] in
/-- What was broadcast over all sessions is what was read. -/
theorem InOrder.trace (inOrder : InOrder s) : sends s.trace = s.read.filterMap broadcast := by
  rw [Poller.trace, sends_append, inOrder.told, inOrder.ordered.events, sends_forward, Poller.read,
    List.filterMap_append]

/-- A session starts behind all that was read: `$` is past every entry appended so far. -/
theorem InOrder.fail (inOrder : InOrder s) (err : RedisError) : InOrder (s.fail err) := by
  have known : ∀ e ∈ s.read, (e.1 : WithBot I) ≤ s.session.topic.lastId := by
    intro e here
    rcases List.mem_append.1 here with old | new
    · exact inOrder.behind.known e old
    · exact s.session.topic.le_lastId (inOrder.contiguous.origin e (List.mem_append_left _ new))
  refine ⟨.start, .start, ⟨known, ?_, ?_, ?_⟩, inOrder.read, ?_⟩
  · intro id bad
    cases bad
  · intro t bad
    cases bad
  · intro e here e' bad
    cases bad
  · show sends (s.trace ++ ([.evict] ++ (s.outage.onError err.kind err _).1)) = s.read.filterMap broadcast
    rw [sends_append, sends_append, sends_onError, inOrder.trace]
    exact List.append_nil _

theorem InOrder.step (inOrder : InOrder s) (taken : Step host s a s') : InOrder s' := by
  cases taken with
  | session allowed taken =>
    exact ⟨inOrder.ordered.step taken, inOrder.contiguous.step taken, inOrder.behind.step taken,
      inOrder.sorted, inOrder.told⟩
  | connectionFailed err connecting =>
    refine ⟨inOrder.ordered, inOrder.contiguous, inOrder.behind, inOrder.sorted, ?_⟩
    show sends (s.told ++ ([.attempt] ++ (s.outage.onError err.kind err _).1)) = _
    rw [sends_append, sends_append, sends_onError, inOrder.told]
    exact List.append_nil _
  | connected connecting =>
    refine ⟨inOrder.ordered, inOrder.contiguous, inOrder.behind, inOrder.sorted, ?_⟩
    show sends (s.told ++ ([.attempt] ++ if s.outage.onRecovery.1 then [.info _] else [])) = _
    rw [sends_append, sends_append, sends_recovered, inOrder.told]
    exact List.append_nil _
  | xreadFailed err monitoring => exact inOrder.fail err
  | cancel going => exact ⟨inOrder.ordered, inOrder.contiguous, inOrder.behind, inOrder.sorted, inOrder.told⟩

theorem inOrder_of_reachable : (poller host topic).Reachable s → InOrder s :=
  Lts.Reachable.invariant .start (fun _ _ _ _ inOrder taken => inOrder.step (.of_step taken)) s

/-- The reply that is gone through at a step, in whatever session. -/
def handled (s : Poller I) : Action I → Option (List (I × Fields))
  | .session a => s.session.handled a
  | _ => none

/-- What is read over all sessions are the replies that are gone through. -/
theorem read_of_exec {as : List (Action I)} (run : (poller host topic).exec (.start topic) as = some s) :
    s.read = ((poller host topic).outputs handled (.start topic) as).flatten := by
  refine Lts.outputs_invariant (M := poller host topic) (I := fun os s => s.read = os.flatten) rfl ?_ run
  intro os s a s' _ before taken
  cases Step.of_step taken with
  | session _ inner =>
    rw [Poller.read, Session.read_step inner, ← List.append_assoc, List.flatten_append, ← before]
    rfl
  | xreadFailed => exact (List.append_nil _).trans (before.trans (congrArg List.flatten (List.append_nil os).symm))
  | _ => exact before.trans (congrArg List.flatten (List.append_nil os).symm)

end Poller

end Reading

namespace Poller

/-- A text that converts, and bytes that do not. -/
def hello : Fields := [("data", ⟨#[104, 105]⟩)]

def refused : RedisError := ⟨.Io, "Connection refused", none⟩

end Poller

end PubSub.Redis
