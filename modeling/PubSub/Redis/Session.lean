import PubSub.Backoff
import PubSub.Base.Lts
import PubSub.Redis.Reference

/-!
# A session of the Redis Stream poller

One call of `monitor_stream` as a system together with the server: producers append and trim, the
server resolves and answers `XREAD` requests, and the poller handles the replies and asks again. A
request waits at the server until an entry comes after its point or the block time passes; `$` is
resolved to the last id when the server receives the request.
-/

namespace PubSub.Redis
set_option autoImplicit false
open Base

/-! ## A session and its topic -/

/-- Where the current request is: on its way to the server, waiting there for entries after a
point, or answered. -/
inductive Phase (I : Type) where
  | calling
  | waiting (point : WithBot I)
  | answered (entries : List (I × Fields))

/-- A call of `monitor_stream` and the topic it reads; `latestId = none` is `$`. The last two fields
are history: how many entries had been appended when the server received the first request, and
the entries the poller has read. -/
structure Session (I : Type) [LinearOrder I] where
  topic : Topic I
  latestId : Option I
  phase : Phase I
  events : List Event
  mark : Option Nat
  read : List (I × Fields)

namespace Session

variable {I : Type} [LinearOrder I]

/-- The call begins, on a topic with any past. -/
def start (topic : Topic I) : Session I where
  topic := topic
  latestId := none
  phase := .calling
  events := []
  mark := none
  read := []

/-- The server resolves the request's point. -/
def point (s : Session I) : WithBot I :=
  match s.latestId with
  | some id => id
  | none => s.topic.lastId

/-- The server receives the request; the first one starts the owing. -/
def receive (s : Session I) : Session I :=
  { s with phase := .waiting s.point, mark := s.mark <|> some s.topic.appended.length }

inductive Action (I : Type) where
  /-- a producer appends an entry -/
  | xadd (id : I) (fields : Fields)
  /-- the oldest entries are trimmed -/
  | trim (n : Nat)
  /-- the server receives the request -/
  | receive
  /-- the server answers with the entries after the request's point -/
  | reply
  /-- the block time passes without an entry -/
  | timeout
  /-- the poller handles the reply and asks again -/
  | handle

/-- The entries of a reply that the poller has yet to go through. -/
def pending (s : Session I) : List (I × Fields) :=
  match s.phase with
  | .answered entries => entries
  | _ => []

/-- What has reached the poller, handled or not. -/
def seen (s : Session I) : List (I × Fields) := s.read ++ s.pending

/-- What the poller asks for next. -/
def nextId (s : Session I) : Option I := s.pending.foldl (fun _ e => some e.1) s.latestId

/-- The entries appended since the server received the first request that are still retained. -/
def owed (s : Session I) : List (I × Fields) :=
  match s.mark with
  | some m => s.topic.appended.drop (max m s.topic.trimmed)
  | none => []

/-- As long as nothing was read, a request is received only when nothing is owed. -/
def NoGap (s : Session I) : Action I → Prop
  | .receive => s.read = [] → s.owed = []
  | _ => True

instance (s : Session I) (a : Action I) : Decidable (NoGap s a) := by
  unfold NoGap
  split <;> infer_instance

/-- Every entry owed has been had or comes after point `t`, which the topic has reached. -/
structure Covered (s : Session I) (t : WithBot I) (had : List (I × Fields)) : Prop where
  known : t ≤ s.topic.lastId
  owed : ∀ e ∈ s.owed, e ∈ had ∨ t < e.1

variable {s : Session I} {t : WithBot I} {had : List (I × Fields)}

theorem retained_of_owed {e : I × Fields} (here : e ∈ s.owed) : e ∈ s.topic.retained := by
  unfold Session.owed at here
  split at here
  · exact List.drop_subset_drop_left _ (Nat.le_max_right ..) here
  · cases here

theorem owed_xadd {id : I} {fields : Fields} {newer : s.topic.lastId < id} {e : I × Fields}
    (here : e ∈ owed { s with topic := s.topic.append id fields newer }) : e ∈ s.owed ∨ e = (id, fields) := by
  unfold Session.owed at here ⊢
  cases mark : s.mark with
  | none => simp only [mark] at here; cases here
  | some m =>
    simp only [mark] at here
    exact StreamLog.mem_drop_append here

theorem owed_trim {n : Nat} {e : I × Fields} (here : e ∈ owed { s with topic := s.topic.trim n }) :
    e ∈ s.owed := by
  unfold Session.owed at here ⊢
  cases mark : s.mark with
  | none => simp only [mark] at here; cases here
  | some m =>
    simp only [mark] at here
    have := s.topic.trimmed_le_trim n
    exact List.drop_subset_drop_left _ (by omega) here

theorem Covered.xadd (covered : Covered s t had) {id : I} {fields : Fields}
    (newer : s.topic.lastId < id) : Covered { s with topic := s.topic.append id fields newer } t had := by
  have new : t < id := lt_of_le_of_lt covered.known newer
  refine ⟨?_, fun e here => ?_⟩
  · rw [StreamLog.lastId_append]
    exact le_of_lt new
  · rcases owed_xadd here with old | rfl
    · exact covered.owed e old
    · exact .inr new

theorem Covered.trim (covered : Covered s t had) (n : Nat) :
    Covered { s with topic := s.topic.trim n } t had :=
  ⟨covered.known, fun e here => covered.owed e (owed_trim here)⟩

theorem Covered.carry (covered : Covered s t had) {s' : Session I} (topic : s'.topic = s.topic)
    (mark : s'.mark = s.mark) : Covered s' t had := by
  refine ⟨by rw [topic]; exact covered.known, ?_⟩
  unfold Session.owed
  rw [topic, mark]
  exact covered.owed

/-- The answer to a covered request covers up to its own last entry. -/
theorem Covered.reply (covered : Covered s t s.read) {last : I × Fields}
    (final : (s.topic.after t).getLast? = some last) : Covered s last.1 (s.read ++ s.topic.after t) := by
  have retained := (StreamLog.mem_after.1 (List.mem_of_getLast? final)).1
  refine ⟨s.topic.le_lastId (StreamLog.appended_of_retained retained), fun e here => .inl ?_⟩
  rcases covered.owed e here with old | new
  · exact List.mem_append_left _ old
  · exact List.mem_append_right _ (StreamLog.mem_after.2 ⟨retained_of_owed here, new⟩)

/-! ### What has been seen -/

theorem pending_eq_nil (waits : ∀ entries, s.phase ≠ .answered entries) : s.pending = [] := by
  unfold pending
  split
  · exact absurd ‹_› (waits _)
  · rfl

/-- Between two answers the next id is the latest one, and all that was seen was read. -/
theorem idle (waits : ∀ entries, s.phase ≠ .answered entries) : s.nextId = s.latestId ∧ s.seen = s.read := by
  simp [nextId, seen, pending_eq_nil waits]

theorem idle_receive : s.receive.nextId = s.latestId ∧ s.receive.seen = s.read := idle (by simp [receive])

/-- An answer is followed up from its last entry. -/
theorem nextId_reply (answer : s.topic.after t ≠ []) :
    ∃ last, (s.topic.after t).getLast? = some last ∧
      nextId { s with phase := .answered (s.topic.after t) } = some last.1 := by
  obtain ⟨init, last, split⟩ := (List.eq_nil_or_concat' _).resolve_left answer
  refine ⟨last, by rw [split, List.getLast?_concat], ?_⟩
  simp only [nextId, pending, split, List.foldl_append, List.foldl_cons, List.foldl_nil]

/-- The first request starts the owing with nothing, a later one changes nothing. -/
theorem owed_receive {e : I × Fields} (here : e ∈ s.receive.owed) : e ∈ s.owed := by
  unfold Session.owed receive at *
  cases mark : s.mark with
  | some m =>
    rw [mark] at here
    exact here
  | none =>
    rw [mark] at here
    have here : e ∈ s.topic.appended.drop (max s.topic.appended.length s.topic.trimmed) := here
    rw [List.drop_eq_nil_of_le (by omega)] at here
    cases here

/-- Every concrete id that is asked for, now or next, leaves nothing behind. -/
structure Gapless (s : Session I) : Prop where
  next : ∀ id : I, s.nextId = some id → Covered s id s.seen
  waiting : ∀ t, s.phase = .waiting t → Covered s t s.read

theorem Gapless.start {topic : Topic I} : Gapless (.start topic : Session I) := by
  refine ⟨?_, ?_⟩
  · intro id bad
    cases bad
  · intro t bad
    cases bad

theorem Gapless.receive (gapless : Gapless s) (calling : s.phase = .calling)
    (noGap : s.latestId = none → s.owed = []) : Gapless s.receive := by
  obtain ⟨next, seen⟩ := idle (s := s) (by simp [calling])
  obtain ⟨next', seen'⟩ := idle_receive (s := s)
  have covered : Covered s.receive s.point s.read := by
    refine ⟨?_, fun e here => ?_⟩
    · show s.point ≤ s.topic.lastId
      unfold point
      split
      · exact (gapless.next _ (by rw [next]; assumption)).known
      · exact le_refl _
    · have here := owed_receive here
      unfold point
      split
      · rw [← seen]
        exact (gapless.next _ (by rw [next]; assumption)).owed e here
      · rw [noGap ‹_›] at here
        cases here
  refine ⟨fun id latest => ?_, ?_⟩
  · have latest : s.latestId = some id := next'.symm.trans latest
    have point : s.point = id := by
      unfold Session.point
      rw [latest]
    rw [seen', ← point]
    exact covered
  · rintro t ⟨⟩
    exact covered

end Session

/-! ## The poller -/

section Polling

variable {I : Type} [RedisClient] [SerdeJson] [Debug ParsingError] [Debug (StreamId I)]

/-- One iteration of the loop over a reply's entries. -/
def forward (entry : StreamId I) : Event :=
  match streamEntryToByteMessage entry with
  | .ok message => .send message
  | .error _ => .warn s!"Failed to convert message: {Debug.text entry}"

namespace Session

variable [LinearOrder I]

/-- The poller goes through a reply. -/
def handle (s : Session I) (entries : List (I × Fields)) : Session I :=
  { s with
    latestId := entries.foldl (fun _ e => some e.1) s.latestId
    phase := .calling
    events := s.events ++ entries.map fun e => forward (.ofEntry e)
    read := s.read ++ entries }

def step (s : Session I) : Action I → Option (Session I)
  | .xadd id fields =>
    if newer : s.topic.lastId < id then some { s with topic := s.topic.append id fields newer } else none
  | .trim n => some { s with topic := s.topic.trim n }
  | .receive =>
    match s.phase with
    | .calling => some s.receive
    | _ => none
  | .reply =>
    match s.phase with
    | .waiting t => if s.topic.after t = [] then none else some { s with phase := .answered (s.topic.after t) }
    | _ => none
  | .timeout =>
    match s.phase with
    | .waiting t => if s.topic.after t = [] then some { s with phase := .answered [] } else none
    | _ => none
  | .handle =>
    match s.phase with
    | .answered entries => some (s.handle entries)
    | _ => none

/-- The reply that the poller goes through at a step. -/
def handled (s : Session I) : Action I → Option (List (I × Fields))
  | .handle => some s.pending
  | _ => none

/-- After an answer every entry that was owed is in it or was read before. -/
def NothingLost (s : Session I) (a : Action I) : Prop :=
  match a with
  | .reply | .timeout => ∀ s' ∈ step s a, ∀ e ∈ s.owed, e ∈ s'.seen
  | _ => True

instance (s : Session I) (a : Action I) : Decidable (NothingLost s a) := by
  unfold NothingLost
  split <;> infer_instance

/-- What each step needs and does, one constructor for each branch of `step`. -/
inductive Step (s : Session I) : Action I → Session I → Prop where
  | xadd {id : I} (fields : Fields) (newer : s.topic.lastId < id) :
      Step s (.xadd id fields) { s with topic := s.topic.append id fields newer }
  | trim (n : Nat) : Step s (.trim n) { s with topic := s.topic.trim n }
  | receive (calling : s.phase = .calling) : Step s .receive s.receive
  | reply {t : WithBot I} (waiting : s.phase = .waiting t) (some' : s.topic.after t ≠ []) :
      Step s .reply { s with phase := .answered (s.topic.after t) }
  | timeout {t : WithBot I} (waiting : s.phase = .waiting t) (none' : s.topic.after t = []) :
      Step s .timeout { s with phase := .answered [] }
  | handle {entries : List (I × Fields)} (answered : s.phase = .answered entries) :
      Step s .handle (s.handle entries)

variable {s s' : Session I} {a : Action I} {topic : Topic I}

theorem Step.of_step (taken : step s a = some s') : Step s a s' := by
  cases a with
  | xadd id fields =>
    simp only [step] at taken
    split at taken <;> cases taken
    exact .xadd fields ‹_›
  | trim n => cases taken; exact .trim n
  | receive =>
    simp only [step] at taken
    split at taken <;> cases taken
    exact .receive ‹_›
  | reply =>
    simp only [step] at taken
    split at taken
    · split at taken <;> cases taken
      exact .reply ‹_› ‹_›
    · cases taken
  | timeout =>
    simp only [step] at taken
    split at taken
    · split at taken <;> cases taken
      exact .timeout ‹_› ‹_›
    · cases taken
  | handle =>
    simp only [step] at taken
    split at taken <;> cases taken
    exact .handle ‹_›

theorem read_step (taken : step s a = some s') : s'.read = s.read ++ (handled s a).toList.flatten := by
  cases Step.of_step taken with
  | handle answered => simp [Session.handle, handled, pending, answered]
  | _ => exact (List.append_nil _).symm

end Session

/-- One call of `monitor_stream` on a topic. -/
def session [LinearOrder I] (topic : Topic I) : Lts (Session I) (Session.Action I) :=
  ⟨.start topic, Session.step⟩

/-! ## Nothing is lost without a gap -/

namespace Session

variable [LinearOrder I] {s s' : Session I} {a : Action I} {topic : Topic I}

/-- Handling changes neither what was seen nor what is asked for next. -/
theorem seen_handle {entries : List (I × Fields)} (answered : s.phase = .answered entries) :
    (s.handle entries).seen = s.seen ∧ (s.handle entries).nextId = s.nextId := by
  simp [seen, nextId, pending, handle, answered]

/-- The entries seen come in order, none after the point that is asked for next; what was handled
was forwarded. -/
structure Ordered (s : Session I) : Prop where
  sorted : (s.seen.map Prod.fst).Pairwise (· < ·)
  fresh : s.nextId = none ↔ s.seen = []
  last : ∀ id, s.nextId = some id → ∀ e ∈ s.seen, e.1 ≤ id
  waiting : ∀ t, s.phase = .waiting t → ∀ e ∈ s.read, (e.1 : WithBot I) ≤ t
  events : s.events = s.read.map fun e => forward (.ofEntry e)

theorem Ordered.start : Ordered (.start topic : Session I) := by
  refine ⟨.nil, iff_of_true rfl rfl, ?_, ?_, rfl⟩
  · intro id bad
    cases bad
  · intro t bad
    cases bad

/-- Where the next request points covers what was seen. -/
theorem Ordered.point (ordered : Ordered s) (calling : s.phase = .calling) :
    ∀ e ∈ s.read, (e.1 : WithBot I) ≤ s.point := by
  obtain ⟨next, seen⟩ := idle (s := s) (by simp [calling])
  intro e here
  unfold Session.point
  split
  · exact WithBot.coe_le_coe.2 (ordered.last _ (by rw [next]; assumption) e (by rw [seen]; exact here))
  · rw [← seen, ordered.fresh.1 (by rw [next]; assumption)] at here
    cases here

/-- A step that shows the poller nothing new. -/
theorem Ordered.carry (ordered : Ordered s) (seen : s'.seen = s.seen) (next : s'.nextId = s.nextId)
    (waiting : ∀ t, s'.phase = .waiting t → ∀ e ∈ s'.read, (e.1 : WithBot I) ≤ t)
    (events : s'.events = s'.read.map fun e => forward (.ofEntry e)) : Ordered s' := by
  refine ⟨?_, ?_, ?_, waiting, events⟩
  · rw [seen]
    exact ordered.sorted
  · rw [seen, next]
    exact ordered.fresh
  · rw [seen, next]
    exact ordered.last

theorem Ordered.reply (ordered : Ordered s) {t : WithBot I} (waiting : s.phase = .waiting t)
    (answer : s.topic.after t ≠ []) : Ordered { s with phase := .answered (s.topic.after t) } := by
  obtain ⟨last, final, next⟩ := nextId_reply answer
  have seen := (idle (s := s) (by simp [waiting])).2
  have below := ordered.waiting t waiting
  have above : t < last.1 := (StreamLog.mem_after.1 (List.mem_of_getLast? final)).2
  refine ⟨?_, ?_, ?_, by rintro _ ⟨⟩, ordered.events⟩
  · show ((s.read ++ s.topic.after t).map Prod.fst).Pairwise (· < ·)
    rw [List.map_append, List.pairwise_append]
    refine ⟨by rw [← seen]; exact ordered.sorted, s.topic.after_sorted t, fun i old j new => ?_⟩
    obtain ⟨e, before, rfl⟩ := List.mem_map.1 old
    obtain ⟨e', after, rfl⟩ := List.mem_map.1 new
    exact WithBot.coe_lt_coe.1 (lt_of_le_of_lt (below e before) (StreamLog.mem_after.1 after).2)
  · rw [next]
    exact iff_of_false nofun (List.append_ne_nil_of_right_ne_nil _ answer)
  · rw [next]
    rintro id ⟨⟩ e here
    rcases List.mem_append.1 here with old | new
    · exact WithBot.coe_le_coe.1 (le_of_lt (lt_of_le_of_lt (below e old) above))
    · exact StreamLog.after_le_last final e new

theorem Ordered.step (ordered : Ordered s) (taken : step s a = some s') : Ordered s' := by
  cases Step.of_step taken with
  | xadd | trim => exact ordered.carry rfl rfl ordered.waiting ordered.events
  | receive calling =>
    obtain ⟨next, seen⟩ := idle (s := s) (by simp [calling])
    refine ordered.carry ?_ ?_ ?_ ordered.events
    · rw [seen]
      exact idle_receive.2
    · rw [next]
      exact idle_receive.1
    · rintro t ⟨⟩
      exact ordered.point calling
  | reply waiting answer => exact ordered.reply waiting answer
  | timeout waiting =>
    obtain ⟨next, seen⟩ := idle (s := s) (by simp [waiting])
    refine ordered.carry ?_ ?_ (by rintro t ⟨⟩) ordered.events
    · rw [seen]
      exact List.append_nil _
    · rw [next]
      rfl
  | handle answered =>
    obtain ⟨seen, next⟩ := seen_handle answered
    refine ordered.carry seen next (by rintro t ⟨⟩) ?_
    show s.events ++ _ = (s.read ++ _).map _
    rw [List.map_append, ordered.events]

/-- Between two answers the next request carries `$` as long as nothing was read. -/
theorem Ordered.latestId_eq_none_iff (ordered : Ordered s) (waits : ∀ entries, s.phase ≠ .answered entries) :
    s.latestId = none ↔ s.read = [] := by
  obtain ⟨next, seen⟩ := idle waits
  rw [← next, ← seen]
  exact ordered.fresh

/-- A first entry that is owed when a request reaches the server may be left out of the answer: the
request carries `$`, which is past it. -/
theorem lost_of_gap (ordered : Ordered s) (calling : s.phase = .calling) (unread : s.read = [])
    (owing : s.owed ≠ []) : ¬ NothingLost s.receive .timeout := by
  have dollar := (ordered.latestId_eq_none_iff (by simp [calling])).2 unread
  have waiting : s.receive.phase = .waiting s.topic.lastId := by
    show Phase.waiting s.point = _
    rw [point, dollar]
  have nothing : s.receive.topic.after s.topic.lastId = [] := s.topic.after_lastId
  have same : s.receive.owed = s.owed := by
    unfold Session.owed receive
    cases mark : s.mark with
    | none => exact absurd (by simp [Session.owed, mark]) owing
    | some m => rfl
  have taken : step s.receive .timeout = some { s.receive with phase := .answered [] } := by
    simp only [step, waiting, nothing, if_true]
  intro kept
  have seen : seen { s.receive with phase := .answered [] } = [] :=
    (List.append_nil _).trans unread
  refine owing (List.eq_nil_iff_forall_not_mem.2 fun e here => ?_)
  have arrived := kept _ taken e (same ▸ here)
  rw [seen] at arrived
  cases arrived

theorem Gapless.step (gapless : Gapless s) (ordered : Ordered s) (noGap : NoGap s a) (taken : step s a = some s') :
    Gapless s' := by
  cases Step.of_step taken with
  | xadd fields newer =>
    exact ⟨fun id next => (gapless.next id next).xadd newer, fun t waiting => (gapless.waiting t waiting).xadd newer⟩
  | trim n =>
    exact ⟨fun id next => (gapless.next id next).trim n, fun t waiting => (gapless.waiting t waiting).trim n⟩
  | receive calling =>
    exact gapless.receive calling fun dollar =>
      noGap ((ordered.latestId_eq_none_iff (by simp [calling])).1 dollar)
  | reply waiting answer =>
    obtain ⟨last, final, next⟩ := nextId_reply answer
    refine ⟨?_, by rintro t ⟨⟩⟩
    rw [next]
    rintro id ⟨⟩
    exact ((gapless.waiting _ waiting).reply final).carry rfl rfl
  | timeout waiting =>
    obtain ⟨next, seen⟩ := idle (s := s) (by simp [waiting])
    refine ⟨fun id latest => ?_, by rintro t ⟨⟩⟩
    have covered := gapless.next id (next.trans latest)
    rw [seen] at covered
    show Covered _ _ (s.read ++ [])
    rw [List.append_nil]
    exact covered.carry rfl rfl
  | handle answered =>
    obtain ⟨seen, next⟩ := seen_handle answered
    refine ⟨?_, by rintro t ⟨⟩⟩
    rw [seen, next]
    exact fun id latest => (gapless.next id latest).carry rfl rfl

/-- A gapless wait is answered with all that is owed. -/
theorem Gapless.nothingLost (gapless : Gapless s) (a : Action I) : NothingLost s a := by
  have answered : ∀ t, s.phase = .waiting t → ∀ e ∈ s.owed, e ∈ s.read ++ s.topic.after t := by
    intro t waiting e here
    rcases (gapless.waiting t waiting).owed e here with old | new
    · exact List.mem_append_left _ old
    · exact List.mem_append_right _ (StreamLog.mem_after.2 ⟨retained_of_owed here, new⟩)
  unfold NothingLost
  split
  · intro s' taken
    cases Step.of_step taken with
    | reply waiting _ => exact answered _ waiting
  · intro s' taken
    cases Step.of_step taken with
    | timeout waiting none' => exact none' ▸ answered _ waiting
  · trivial

end Session

section Session

variable [LinearOrder I] {topic : Topic I} {s : Session I} {as : List (Session.Action I)}

/-- What a call reads are the replies that it goes through. -/
theorem read_of_exec (run : (session topic).exec (.start topic) as = some s) :
    s.read = ((session topic).outputs Session.handled (.start topic) as).flatten := by
  refine Lts.outputs_invariant (M := session topic) (I := fun os s => s.read = os.flatten) rfl ?_ run
  intro os s a s' _ before taken
  rw [Session.read_step taken, before, List.flatten_append]

theorem ordered_of_exec (run : (session topic).exec (.start topic) as = some s) : s.Ordered :=
  Lts.Reachable.invariant (M := session topic) .start (fun _ _ _ _ ordered taken => ordered.step taken) s ⟨as, run⟩

open Session in
/-- **Nothing is lost without a gap.** Along a run in which no request reaches the server before the first
entry was read and while one is owed, every answer completes what is owed. What is read is what the
answers had, in strictly increasing order, and each entry read is forwarded once. -/
theorem nothing_lost (noGap : (session topic).Along NoGap (start topic) as) :
    (session topic).Along NothingLost (start topic) as ∧
      ∀ s, (session topic).exec (start topic) as = some s →
        s.read = ((session topic).outputs handled (start topic) as).flatten ∧
          (s.read.map Prod.fst).Pairwise (· < ·) ∧ s.events = s.read.map fun e => forward (.ofEntry e) := by
  refine ⟨?_, fun s run => ?_⟩
  · apply Lts.Along.of_invariant (I := fun s => Ordered s ∧ Gapless s) (P := NoGap)
    · rintro s a s' ⟨ordered, gapless⟩ noGap taken
      exact ⟨ordered.step taken, gapless.step ordered noGap taken⟩
    · exact fun s a _ both _ _ => both.2.nothingLost a
    · exact ⟨.start, .start⟩
    · exact noGap
  · have ordered := ordered_of_exec run
    have sorted := ordered.sorted
    rw [seen, List.map_append, List.pairwise_append] at sorted
    exact ⟨read_of_exec run, sorted.1, ordered.events⟩

end Session

end Polling

/-- Once an entry was read, entries may come between two requests. -/
def caughtUp : List (Session.Action Nat) :=
  [.receive, .xadd 1 [], .reply, .handle, .xadd 2 [], .receive, .reply, .handle, .receive, .timeout, .handle,
    .xadd 3 [], .trim 1, .receive, .reply, .handle]

open Session Reference in
theorem nothing_lost_caughtUp :
    ((session (.empty : Topic Nat)).exec (start .empty) caughtUp).map (fun s => s.read.map Prod.fst) =
        some [1, 2, 3] ∧
      (session (.empty : Topic Nat)).Along NothingLost (start .empty) caughtUp ∧
      ∀ s, (session (.empty : Topic Nat)).exec (start .empty) caughtUp = some s →
        s.read = ((session (.empty : Topic Nat)).outputs handled (start .empty) caughtUp).flatten ∧
          (s.read.map Prod.fst).Pairwise (· < ·) ∧ s.events = s.read.map fun e => forward (.ofEntry e) :=
  ⟨by decide, nothing_lost (by decide)⟩

/-- An entry between an empty reply and the next `$` is behind that `$`. -/
def slippedBy : List (Session.Action Nat) := [.receive, .timeout, .handle, .xadd 1 [], .receive, .timeout]

open Session Reference in
theorem slippedBy_loses : ¬ (session (.empty : Topic Nat)).Along NothingLost (start .empty) slippedBy := by decide

end PubSub.Redis
