import PubSub.Redis.Poller

/-!
# Resuming after an outage

What the poller owes once it has read an entry is everything that was appended after the last
entry read and is still retained. Within a session the next request asks for exactly that. Across
sessions the position is lost: the new session's `$` is wherever the topic ends when the server
receives it.
-/

namespace PubSub.Redis.Poller
set_option autoImplicit false
open Base

variable {I : Type} [LinearOrder I] {s s' : Poller I} {a : Action I}

/-- What came after the last entry read and is still retained; nothing before the first entry. -/
def owed (s : Poller I) : List (I × Fields) :=
  match s.read.getLast? with
  | some last => s.session.topic.after last.1
  | none => []

/-- As long as nothing was read in a session, its requests are received only when nothing is owed. -/
def AtEnd (s : Poller I) : Action I → Prop
  | .session .receive => s.session.read = [] → s.owed = []
  | _ => True

/-- Entries are compared as pairs. -/
instance (es es' : List (I × Fields)) : Decidable (∀ e ∈ es, e ∈ es') :=
  decidable_of_iff (es.all fun e => es'.any fun e' => e = e') (by simp)

instance (s : Poller I) (a : Action I) : Decidable (AtEnd s a) := by
  unfold AtEnd
  split <;> infer_instance

/-- A request that waits has a point which the topic has reached, and no entry owed is before it. -/
def Pointed (s : Poller I) : Prop :=
  ∀ t, s.session.phase = .waiting t → t ≤ s.session.topic.lastId ∧ ∀ e ∈ s.owed, t < e.1

theorem Pointed.start {topic : Topic I} : Pointed (.start topic : Poller I) := by
  intro t bad
  cases bad

theorem mem_owed {e : I × Fields} :
    e ∈ s.owed ↔ ∃ last, s.read.getLast? = some last ∧ e ∈ s.session.topic.after last.1 := by
  unfold owed
  cases s.read.getLast? with
  | none => simp
  | some last => simp

/-- In the middle of a session the next request asks for what comes after the last entry read. -/
theorem Pointed.receive (contiguous : s.session.Contiguous) (calling : s.session.phase = .calling)
    (atEnd : s.session.latestId = none → s.owed = []) :
    Pointed { s with session := s.session.receive } := by
  obtain ⟨next, seen⟩ := Session.idle (s := s.session) (by simp [calling])
  rintro t ⟨⟩
  have same : owed { s with session := s.session.receive } = s.owed := rfl
  rw [same]
  unfold Session.point
  cases latest : s.session.latestId with
  | none => exact ⟨le_refl _, by rw [atEnd latest]; simp⟩
  | some id =>
    have final : s.session.read.getLast?.map Prod.fst = some id := by
      rw [← seen, ← contiguous.next, next, latest]
    obtain ⟨last, last', rfl⟩ := Option.map_eq_some_iff.1 final
    have whole : s.read.getLast? = some last := by
      rw [Poller.read, List.getLast?_append, last']
      rfl
    have origin := contiguous.origin last (by rw [seen]; exact List.mem_of_getLast? last')
    refine ⟨s.session.topic.le_lastId origin, fun e here => ?_⟩
    obtain ⟨_, final', after⟩ := mem_owed.1 here
    rw [whole] at final'
    cases final'
    exact (StreamLog.mem_after.1 after).2

section Steps

variable [RedisClient] [SerdeJson] [Debug ParsingError] [Debug (StreamId I)]

theorem Pointed.session (pointed : Pointed s) (ordered : s.session.Ordered) (contiguous : s.session.Contiguous)
    {b : Session.Action I} {session : Session I} (atEnd : AtEnd s (.session b))
    (taken : Session.step s.session b = some session) : Pointed { s with session := session } := by
  cases Session.Step.of_step taken with
  | xadd fields newer =>
    intro t waiting
    obtain ⟨known, ahead⟩ := pointed t waiting
    refine ⟨?_, fun e here => ?_⟩
    · rw [StreamLog.lastId_append]
      exact le_of_lt (lt_of_le_of_lt known newer)
    · obtain ⟨last, final, after⟩ := mem_owed.1 here
      obtain ⟨retained, later⟩ := StreamLog.mem_after.1 after
      rcases StreamLog.mem_retained_append newer retained with old | rfl
      · exact ahead e (mem_owed.2 ⟨last, final, StreamLog.mem_after.2 ⟨old, later⟩⟩)
      · exact lt_of_le_of_lt known newer
  | trim n =>
    intro t waiting
    obtain ⟨known, ahead⟩ := pointed t waiting
    refine ⟨known, fun e here => ?_⟩
    obtain ⟨last, final, after⟩ := mem_owed.1 here
    obtain ⟨retained, later⟩ := StreamLog.mem_after.1 after
    have old : e ∈ s.session.topic.retained :=
      List.drop_subset_drop_left _ (s.session.topic.trimmed_le_trim n) retained
    exact ahead e (mem_owed.2 ⟨last, final, StreamLog.mem_after.2 ⟨old, later⟩⟩)
  | receive calling =>
    exact Pointed.receive contiguous calling fun dollar =>
      atEnd ((ordered.latestId_eq_none_iff (by simp [calling])).1 dollar)
  | reply | timeout | handle => rintro t ⟨⟩

variable [Debug RedisError] {host : String} {topic : Topic I} {as : List (Action I)}

/-- An answer has every entry that is owed. -/
def Resumes (host : String) (s : Poller I) (a : Action I) : Prop :=
  match a with
  | .session .reply | .session .timeout => ∀ s' ∈ step host s a, ∀ e ∈ s.owed, e ∈ s'.session.pending
  | _ => True

instance (host : String) (s : Poller I) (a : Action I) : Decidable (Resumes host s a) := by
  unfold Resumes
  split <;> infer_instance

/-- A waiting request that leaves nothing behind is answered with all that is owed. -/
theorem Pointed.resumesAt (pointed : Pointed s) (a : Action I) : Resumes host s a := by
  have answered : ∀ t, s.session.phase = .waiting t → ∀ e ∈ s.owed, e ∈ s.session.topic.after t := by
    intro t waiting e here
    obtain ⟨last, -, after⟩ := mem_owed.1 here
    exact StreamLog.mem_after.2 ⟨(StreamLog.mem_after.1 after).1, (pointed t waiting).2 e here⟩
  unfold Resumes
  split
  · intro s' taken
    cases Step.of_step taken with
    | session _ inner =>
      cases Session.Step.of_step inner with
      | reply waiting _ => exact answered _ waiting
  · intro s' taken
    cases Step.of_step taken with
    | session _ inner =>
      cases Session.Step.of_step inner with
      | timeout waiting none' => exact none' ▸ answered _ waiting
  · trivial

theorem Pointed.step (pointed : Pointed s) (inOrder : InOrder s) (atEnd : AtEnd s a) (taken : Step host s a s') :
    Pointed s' := by
  cases taken with
  | session allowed taken => exact pointed.session inOrder.ordered inOrder.contiguous atEnd taken
  | connectionFailed | connected | cancel => exact pointed
  | xreadFailed err monitoring =>
    intro t bad
    cases bad

/-- **Resuming.** Along a run in which no request of a session that has read nothing is received while
entries are owed, every answer, after any number of outages, has every entry that came after the last
one read and is still retained. What is read is what the answers had that were gone through, and it is
broadcast, if it converts, in order and once. -/
theorem resumes (atEnd : (poller host topic).Along AtEnd (.start topic) as) :
    (poller host topic).Along (Resumes host) (.start topic) as ∧
      ∀ s, (poller host topic).exec (.start topic) as = some s →
        s.read = ((poller host topic).outputs handled (.start topic) as).flatten ∧
          (s.read.map Prod.fst).Pairwise (· < ·) ∧ sends s.trace = s.read.filterMap broadcast := by
  refine ⟨?_, fun s run => ?_⟩
  · apply Lts.Along.of_invariant (I := fun s : Poller I => InOrder s ∧ Pointed s) (P := AtEnd)
    · intro s a s' both atEnd taken
      have taken : Step host s a s' := .of_step taken
      exact ⟨both.1.step taken, both.2.step both.1 atEnd taken⟩
    · exact fun s a _ both _ _ => both.2.resumesAt a
    · exact ⟨.start, Pointed.start⟩
    · exact atEnd
  · have inOrder := inOrder_of_reachable ⟨as, run⟩
    exact ⟨read_of_exec run, inOrder.read, inOrder.trace⟩

/-- An entry that is owed when the first request of a session is received may be left out of the answer:
the request carries `$`, which is past it. -/
theorem skipped_of_owed (ordered : s.session.Ordered) (monitoring : s.stage = .monitoring)
    (calling : s.session.phase = .calling) (unread : s.session.read = []) (owing : s.owed ≠ []) :
    ¬ Resumes host { s with session := s.session.receive } (.session .timeout) := by
  have dollar := (ordered.latestId_eq_none_iff (by simp [calling])).2 unread
  have waiting : s.session.receive.phase = .waiting s.session.topic.lastId := by
    show Phase.waiting s.session.point = _
    rw [Session.point, dollar]
  have nothing : s.session.receive.topic.after s.session.topic.lastId = [] := s.session.topic.after_lastId
  have inner : Session.step s.session.receive .timeout = some { s.session.receive with phase := .answered [] } := by
    simp only [Session.step, waiting, nothing, if_true]
  have taken : step host { s with session := s.session.receive } (.session .timeout) =
      some { s with session := { s.session.receive with phase := .answered [] } } := by
    simp only [step, monitoring, true_or, if_true, inner, Option.map_some]
  intro resumes
  exact owing (List.eq_nil_iff_forall_not_mem.2 fun e here => List.not_mem_nil (resumes _ taken e here))

end Steps

/-- An outage during which nothing is appended, and entries before and after it. -/
def quietOutage : List (Action Nat) :=
  [.connected, .session .receive, .session (.xadd 1 hello), .session .reply, .session .handle,
    .session (.xadd 2 hello), .session .receive, .session .reply, .session .handle, .xreadFailed refused,
    .connectionFailed refused, .connected, .session .receive, .session (.xadd 3 hello), .session .reply,
    .session .handle]

open Reference in
theorem resumes_quietOutage :
    ((poller "localhost" (.empty : Topic Nat)).exec (.start .empty) quietOutage).map
        (fun s => s.read.map Prod.fst) = some [1, 2, 3] ∧
      (poller "localhost" (.empty : Topic Nat)).Along (Resumes "localhost") (.start .empty) quietOutage ∧
      ∀ s, (poller "localhost" (.empty : Topic Nat)).exec (.start .empty) quietOutage = some s →
        s.read = ((poller "localhost" (.empty : Topic Nat)).outputs handled (.start .empty) quietOutage).flatten ∧
          (s.read.map Prod.fst).Pairwise (· < ·) ∧ sends s.trace = s.read.filterMap broadcast :=
  ⟨by decide, resumes (by decide)⟩

/-- An entry is appended while the poller backs off. -/
def busyOutage : List (Action Nat) :=
  [.connected, .session .receive, .session (.xadd 1 hello), .session .reply, .session .handle,
    .xreadFailed refused, .session (.xadd 2 hello), .connected, .session .receive, .session .timeout]

open Reference in
theorem busyOutage_skips :
    ¬ (poller "localhost" (.empty : Topic Nat)).Along (Resumes "localhost") (.start .empty) busyOutage := by decide

end PubSub.Redis.Poller
