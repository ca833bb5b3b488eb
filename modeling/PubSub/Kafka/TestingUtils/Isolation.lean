import PubSub.Base.Decimal
import PubSub.Kafka.TestingUtils.MockKafka

/-!
# Topics of one's own

`new_topic` makes a name of its prefix and a number that no other call gets. That tells the calls of
`new_topic` apart, but a name may also be asked for by `create_topic`, and whoever comes first creates it.
-/

namespace PubSub.Kafka.TestingUtils
set_option autoImplicit false
open Base

/-! ## Names -/

/-- What stands after the last separator. -/
theorem eq_of_last_separator {α : Type} {sep : α} {as bs cs ds : List α} (same : as ++ sep :: bs = cs ++ sep :: ds)
    (first : sep ∉ bs) (second : sep ∉ ds) : bs = ds := by
  rcases List.append_eq_append_iff.1 same with ⟨more, -, rest⟩ | ⟨more, -, rest⟩
  · cases more with
    | nil => exact (List.cons.inj rest).2
    | cons x more =>
      rw [(List.cons.inj rest).2] at first
      exact absurd (List.mem_append_right more List.mem_cons_self) first
  · cases more with
    | nil => exact (List.cons.inj rest).2.symm
    | cons x more =>
      rw [(List.cons.inj rest).2] at second
      exact absurd (List.mem_append_right more List.mem_cons_self) second

theorem toList_topicName (topicPrefix : String) (number : Nat) :
    (topicName topicPrefix number).toList = topicPrefix.toList ++ '-' :: Nat.toDigits 10 number := by
  simp [topicName, toString]

/-- Names with different numbers are different, whatever the prefixes. -/
theorem topicName_inj {p q : String} {m n : Nat} (same : topicName p m = topicName q n) : m = n := by
  have lists := congrArg String.toList same
  have noDash : ∀ k, '-' ∉ Nat.toDigits 10 k := fun k here => absurd (Decimal.isDigit_of_mem here) (by decide)
  rw [toList_topicName, toList_topicName] at lists
  exact Decimal.toDigits_inj.1 (eq_of_last_separator lists (noDash m) (noDash n))

/-! ## Calls over a run -/

variable {s s' : State} {a : Action} {c : Nat} {call : Call}

def Action.isNewTopic : Action → Bool
  | .newTopic _ => true
  | _ => false

/-- A call keeps its topic and its number; a new one of `new_topic` has the next number. -/
theorem Step.origin (taken : Step s a s') {call' : Call} (open' : s'.calls.lookup c = some call') :
    (∃ call, s.calls.lookup c = some call ∧ call'.topic = call.topic ∧ call'.number = call.number) ∨
      c = s.nextCall ∧ (call'.number = none ∨ a.isNewTopic = true ∧ call'.number = some s.nextTopicId ∧
        ∃ p, call'.topic = topicName p s.nextTopicId) := by
  have moved : ∀ {c₀ : Nat} {call₀ : Call} {phase : Phase}, s.calls.lookup c₀ = some call₀ →
      (s.calls.insert c₀ { call₀ with phase }).lookup c = some call' →
      ∃ call, s.calls.lookup c = some call ∧ call'.topic = call.topic ∧ call'.number = call.number := by
    intro c₀ call₀ phase was there
    rw [Table.lookup_insert_eq_ite] at there
    split at there
    · cases there
      subst_vars
      exact ⟨call₀, was, rfl, rfl⟩
    · exact ⟨call', there, rfl, rfl⟩
  cases taken with
  | createTopic topic =>
    rw [State.begin, Table.lookup_insert_eq_ite] at open'
    split at open'
    · cases open'
      exact .inr ⟨‹_›, .inl rfl⟩
    · exact .inl ⟨call', open', rfl, rfl⟩
  | newTopic topicPrefix =>
    rw [State.begin, Table.lookup_insert_eq_ite] at open'
    split at open'
    · cases open'
      exact .inr ⟨‹_›, .inr ⟨rfl, rfl, topicPrefix, rfl⟩⟩
    · exact .inl ⟨call', open', rfl, rfl⟩
  | found was => exact .inl (moved was open')
  | missed was => exact .inl (moved was open')
  | late was => exact .inl (moved was open')
  | acquire was => exact .inl (moved was open')
  | send was => exact .inl (moved was open')
  | insert was => exact .inl (moved was open')
  | abandon =>
    rw [State.abandon, Table.lookup_erase_eq_ite] at open'
    split at open'
    · cases open'
    · exact .inl ⟨call', open', rfl, rfl⟩
  | receive => exact .inl ⟨call', open', rfl, rfl⟩
  | create => exact .inl ⟨call', open', rfl, rfl⟩

/-- A call that has sent its topic stays so. -/
theorem Step.kept (inv : Invariant s) (taken : Step s a s') (open' : s.calls.lookup c = some call)
    (done : call.phase = .sent ∨ call.phase = .returned) :
    ∃ call', s'.calls.lookup c = some call' ∧ call'.topic = call.topic ∧
      (call'.phase = .sent ∨ call'.phase = .returned) := by
  have inserted : ∀ {c₀ : Nat} {call₁ : Call}, c ≠ c₀ → (s.calls.insert c₀ call₁).lookup c = some call := by
    intro c₀ call₁ other
    rw [Table.lookup_insert_eq_ite, if_neg other]
    exact open'
  have apart : ∀ {c₀ : Nat} {call₀ : Call}, s.calls.lookup c₀ = some call₀ →
      call₀.phase ≠ .sent ∧ call₀.phase ≠ .returned → c ≠ c₀ := by
    rintro c₀ call₀ was waiting rfl
    obtain rfl := Option.some.inj (was.symm.trans open')
    exact not_or.2 waiting done
  have fresh : c ≠ s.nextCall := Nat.ne_of_lt (inv.numbered c call open')
  cases taken with
  | createTopic => exact ⟨call, inserted fresh, rfl, done⟩
  | newTopic => exact ⟨call, inserted fresh, rfl, done⟩
  | found was phase => exact ⟨call, inserted (apart was (by simp [phase])), rfl, done⟩
  | missed was phase => exact ⟨call, inserted (apart was (by simp [phase])), rfl, done⟩
  | late was phase => exact ⟨call, inserted (apart was (by simp [phase])), rfl, done⟩
  | acquire was phase => exact ⟨call, inserted (apart was (by simp [phase])), rfl, done⟩
  | send was phase => exact ⟨call, inserted (apart was (by simp [phase])), rfl, done⟩
  | @insert c₀ call₀ was phase =>
    by_cases same : c = c₀
    · subst same
      obtain rfl := Option.some.inj (was.symm.trans open')
      exact ⟨_, (Table.lookup_insert_eq_ite _ _ _ _).trans (if_pos rfl), rfl, .inr rfl⟩
    · exact ⟨call, inserted same, rfl, done⟩
  | @abandon c₀ call₀ was phase =>
    have other : c ≠ c₀ := apart was (by rcases phase with phase | phase | phase <;> simp [phase])
    exact ⟨call, (Table.lookup_erase_eq_ite _ _ _).trans ((if_neg other).trans open'), rfl, done⟩
  | receive => exact ⟨call, open', rfl, done⟩
  | create => exact ⟨call, open', rfl, done⟩

theorem Step.nextTopicId (taken : Step s a s') :
    s'.nextTopicId = if a.isNewTopic then (s.nextTopicId + 1) % 2 ^ 64 else s.nextTopicId := by
  cases taken <;> rfl

/-- What was sent: what was sent before, or the topic of the call that has just sent it. -/
theorem Step.sent_cases (taken : Step s a s') {topic : String} (here : (c, topic) ∈ s'.sent) :
    (c, topic) ∈ s.sent ∨
      ∃ call, s'.calls.lookup c = some call ∧ call.topic = topic ∧ call.phase = .sent := by
  cases taken with
  | send was phase room =>
    rcases List.mem_append.1 here with before | now
    · exact .inl before
    · cases List.mem_singleton.1 now
      exact .inr ⟨_, (Table.lookup_insert_eq_ite _ _ _ _).trans (if_pos rfl), rfl, rfl⟩
  | _ => exact .inl here

/-- After `k` numbers were drawn: the calls of `new_topic` have different numbers among these, and their
names; and what was sent has been sent by a call that is at least that far. -/
structure Drawn (k : Nat) (s : State) : Prop where
  next : s.nextTopicId = (k + 1) % 2 ^ 64
  number : ∀ c call n, s.calls.lookup c = some call → call.number = some n →
    (∃ j < k, n = (j + 1) % 2 ^ 64) ∧ ∃ p, call.topic = topicName p n
  distinct : ∀ c c' call call' n, s.calls.lookup c = some call → s.calls.lookup c' = some call' →
    call.number = some n → call'.number = some n → c = c'
  senders : ∀ c topic, (c, topic) ∈ s.sent → ∃ call, s.calls.lookup c = some call ∧ call.topic = topic ∧
    (call.phase = .sent ∨ call.phase = .returned)

theorem drawn_init : Drawn 0 init where
  next := rfl
  number _ _ _ open' := by cases open'
  distinct _ _ _ _ _ open' := by cases open'
  senders _ _ here := by cases here

variable {k : Nat}

/-- A call with a number had it before, or has just drawn it. -/
theorem Step.origin_of_number (taken : Step s a s') {call' : Call} {n : Nat} (open' : s'.calls.lookup c = some call')
    (number : call'.number = some n) :
    (∃ call, s.calls.lookup c = some call ∧ call'.topic = call.topic ∧ call.number = some n) ∨
      c = s.nextCall ∧ a.isNewTopic = true ∧ n = s.nextTopicId ∧ ∃ p, call'.topic = topicName p n := by
  obtain ⟨call, before, topic, same⟩ | ⟨rfl, none | ⟨draws, drawn, p, name⟩⟩ := taken.origin open'
  · exact .inl ⟨call, before, topic, same.symm.trans number⟩
  · rw [number] at none
    cases none
  · obtain rfl := Option.some.inj (number.symm.trans drawn)
    exact .inr ⟨rfl, draws, rfl, p, name⟩

/-- A number that was drawn before is not drawn again. -/
theorem Drawn.ne_next (drawn : Drawn k s) (few : k + 1 ≤ 2 ^ 64) {n : Nat} (open' : s.calls.lookup c = some call)
    (number : call.number = some n) : n ≠ s.nextTopicId := by
  obtain ⟨⟨j, less, rfl⟩, -⟩ := drawn.number c call n open' number
  rw [drawn.next]
  omega

theorem Drawn.step (drawn : Drawn k s) (inv : Invariant s) (taken : Step s a s')
    (few : k + (if a.isNewTopic then 1 else 0) ≤ 2 ^ 64) : Drawn (k + if a.isNewTopic then 1 else 0) s' := by
  have fewer : a.isNewTopic = true → k + 1 ≤ 2 ^ 64 := fun draws => by rwa [if_pos draws] at few
  constructor
  · rw [taken.nextTopicId, drawn.next]
    split
    · omega
    · rfl
  · intro c call n open' number
    obtain ⟨old, before, topic, same⟩ | ⟨rfl, draws, rfl, name⟩ := taken.origin_of_number open' number
    · obtain ⟨⟨j, less, drawn⟩, p, name⟩ := drawn.number c old n before same
      exact ⟨⟨j, Nat.lt_add_right _ less, drawn⟩, p, topic.trans name⟩
    · rw [if_pos draws]
      exact ⟨⟨k, Nat.lt_succ_self k, drawn.next⟩, name⟩
  · intro c c' call call' n first second number number'
    obtain ⟨old, before, -, same⟩ | ⟨rfl, draws, new, -⟩ := taken.origin_of_number first number
    · obtain ⟨old', before', -, same'⟩ | ⟨rfl, draws, new, -⟩ := taken.origin_of_number second number'
      · exact drawn.distinct c c' old old' n before before' same same'
      · exact absurd new (drawn.ne_next (fewer draws) before same)
    · obtain ⟨old', before', -, same'⟩ | ⟨rfl, -⟩ := taken.origin_of_number second number'
      · exact absurd new (drawn.ne_next (fewer draws) before' same')
      · rfl
  · intro c topic here
    obtain before | ⟨call, open', rfl, phase⟩ := taken.sent_cases here
    · obtain ⟨call, open', rfl, done⟩ := drawn.senders c topic before
      exact taken.kept inv open' done
    · exact ⟨call, open', rfl, .inl phase⟩

/-- In a run with at most `2 ^ 64` calls of `new_topic` no number is drawn twice. -/
theorem drawn_of_exec {as : List Action} (run : system.exec init as = some s)
    (few : as.countP Action.isNewTopic ≤ 2 ^ 64) : Drawn (as.countP Action.isNewTopic) s := by
  have walk : ∀ {as : List Action} {s s' : State} {k : Nat}, Invariant s → Drawn k s → system.exec s as = some s' →
      k + as.countP Action.isNewTopic ≤ 2 ^ 64 → Drawn (k + as.countP Action.isNewTopic) s' := by
    intro as
    induction as with
    | nil =>
      intro s s' k _ drawn run _
      cases run
      exact drawn
    | cons a as ih =>
      intro s s' k inv drawn run few
      obtain ⟨t, taken, rest⟩ := Option.bind_eq_some_iff.1 run
      have step := Step.of_step taken
      rw [List.countP_cons, Nat.add_comm (as.countP _), ← Nat.add_assoc] at few ⊢
      exact ih (inv.step step) (drawn.step inv step (Nat.le_trans (Nat.le_add_right _ _) few)) rest few
  have drawn := walk invariant_init drawn_init run (by rwa [Nat.zero_add])
  rwa [Nat.zero_add] at drawn

/-- Two calls of `new_topic` have different topics. -/
theorem Drawn.eq_of_topic (drawn : Drawn k s) {c' : Nat} {call' : Call} (open' : s.calls.lookup c = some call)
    (other : s.calls.lookup c' = some call') (number : call.number ≠ none) (number' : call'.number ≠ none)
    (same : call'.topic = call.topic) : c' = c ∧ call' = call := by
  obtain ⟨n, number⟩ := Option.ne_none_iff_exists'.1 number
  obtain ⟨n', number'⟩ := Option.ne_none_iff_exists'.1 number'
  obtain ⟨-, p, name⟩ := drawn.number c call n open' number
  obtain ⟨-, q, name'⟩ := drawn.number c' call' n' other number'
  rw [name, name'] at same
  rw [topicName_inj same] at number'
  obtain rfl := drawn.distinct c' c call' call n other open' number' number
  exact ⟨rfl, Option.some.inj (other.symm.trans open')⟩

/-! ## Whether a new topic is new -/

/-- A call of `new_topic` that returns has a topic that no other one has returned, that it has sent
itself, and that no other call has sent. -/
def Fresh (s : State) (a : Action) : Prop :=
  ∀ r ∈ s.returning a, r.2.number ≠ none →
    (∀ c call, s.calls.lookup c = some call → call.number ≠ none → call.phase = .returned → call.topic ≠ r.2.topic) ∧
      (r.1, r.2.topic) ∈ s.sent ∧ ∀ c, (c, r.2.topic) ∈ s.sent → c = r.1

/-- When a call of `new_topic` returns, its topic has not been sent by a call that asked for this very
name. -/
def Unclaimed (s : State) (a : Action) : Prop :=
  ∀ r ∈ s.returning a, r.2.number ≠ none →
    ∀ c call, (c, r.2.topic) ∈ s.sent → s.calls.lookup c = some call → call.number ≠ none

theorem fresh_iff_unclaimed (inv : Invariant s) (drawn : Drawn k s) (taken : Step s a s') :
    Fresh s a ↔ Unclaimed s a := by
  refine forall_congr' fun r => forall_congr' fun returns => forall_congr' fun number => ?_
  obtain ⟨c, call⟩ := r
  obtain ⟨open', running, cases⟩ := returning_cases inv taken returns
  constructor
  · rintro ⟨-, -, only⟩ c' call' sent other
    obtain rfl := only c' sent
    rwa [Option.some.inj (other.symm.trans open')]
  · intro unclaimed
    -- whoever has sent the topic is the call itself
    have own : ∀ c', (c', call.topic) ∈ s.sent → c' = c ∧ call.phase = .sent := by
      intro c' sent
      obtain ⟨call', other, topic, done⟩ := drawn.senders c' _ sent
      obtain ⟨rfl, rfl⟩ := drawn.eq_of_topic open' other number (unclaimed c' call' sent other) topic
      exact ⟨rfl, done.resolve_right running⟩
    refine ⟨fun c' call' other number' returned topic => ?_, ?_, fun c' sent => (own c' sent).1⟩
    · obtain ⟨-, rfl⟩ := drawn.eq_of_topic open' other number number' topic
      exact running returned
    · obtain ⟨waiting, free, known⟩ | ⟨-, sent⟩ := cases
      · rw [← inv.inside.recorded free] at known
        obtain ⟨⟨c', topic⟩, sent, rfl⟩ := List.mem_map.1 known
        exact absurd (own c' sent).2 waiting
      · exact sent

/-- What is recorded was sent. -/
theorem Section.mem_topics (inside : Section s) {topic : String} (known : topic ∈ s.knownTopics) : topic ∈ s.topics := by
  cases inside with
  | free _ recorded => rwa [recorded]
  | sending _ _ _ _ recorded => rwa [recorded]
  | sent _ _ _ latest recorded =>
    rw [State.topics, latest, List.map_append, recorded]
    exact List.mem_append_left _ known

/-- **No topic is sent twice, only topics that were sent are recorded, and every call of `new_topic` creates
its topic itself exactly if nobody asked for the same name before.** -/
theorem topics_isolated (as : List Action) (s : State) (run : system.exec init as = some s)
    (few : as.countP Action.isNewTopic < 2 ^ 64) :
    s.topics.Nodup ∧ (∀ topic ∈ s.knownTopics, topic ∈ s.topics) ∧
      (system.Along Fresh init as ↔ system.Along Unclaimed init as) := by
  have inv := invariant_of_reachable ⟨as, run⟩
  refine ⟨inv.nodup, fun _ known => inv.inside.mem_topics known, ?_⟩
  refine Lts.Along.iff_of_prefix (M := system) fun before s a s' start run taken => ?_
  have fewer : before.countP Action.isNewTopic ≤ as.countP Action.isNewTopic :=
    ((List.prefix_append before [a]).trans start).sublist.countP_le
  exact fresh_iff_unclaimed (invariant_of_reachable ⟨before, run⟩) (drawn_of_exec run (by omega)) (.of_step taken)

/-- Both calls of `new_topic` draw a number before one of them looks its topic up. -/
def twoPrefixes : List Action :=
  [.newTopic "p", .newTopic "p-1", .createTopic "q", .lookup 1, .lookup 0, .acquire 1, .send 1, .insert 1, .acquire 0,
    .receive, .send 0, .insert 0, .create]

theorem topics_isolated_twoPrefixes : ∃ s, system.exec init twoPrefixes = some s ∧ s.topics = ["p-1-2", "p-1"] ∧
    s.topics.Nodup ∧ (∀ topic ∈ s.knownTopics, topic ∈ s.topics) ∧
      (system.Along Fresh init twoPrefixes ↔ system.Along Unclaimed init twoPrefixes) := by
  have ends : (system.exec init twoPrefixes).map State.topics = some ["p-1-2", "p-1"] := by decide
  obtain ⟨s, run, topics⟩ := Option.map_eq_some_iff.1 ends
  exact ⟨s, run, topics, topics_isolated twoPrefixes s run (by decide)⟩

/-- The name is asked for before it is generated. -/
def nameTaken : List Action :=
  [.createTopic "p-1", .lookup 0, .acquire 0, .send 0, .insert 0, .newTopic "p"]

/-- The new topic is one that was asked for before. -/
theorem new_topic_is_shared : ¬ ∀ as s, system.exec init as = some s → as.countP Action.isNewTopic < 2 ^ 64 →
    s.topics.Nodup ∧ (∀ topic ∈ s.knownTopics, topic ∈ s.topics) ∧ system.Along Fresh init as := by
  intro isolated
  have facts : (system.exec init nameTaken).map (fun s => (s.returning (.lookup 1), s.sent)) =
      some (some (1, ⟨"p-1", some 1, .called⟩), [(0, "p-1")]) := by decide
  have ends : (system.exec init (nameTaken ++ [.lookup 1])).isSome = true := by decide
  obtain ⟨s', run⟩ := Option.isSome_iff_exists.1 ends
  obtain ⟨s, start, both⟩ := Option.map_eq_some_iff.1 facts
  obtain ⟨returns, sent⟩ := Prod.mk.inj both
  have along := (isolated _ s' run (by decide)).2.2
  rw [Lts.along_append] at along
  rw [Lts.exec_append, start, Option.bind_some] at run
  obtain ⟨t, taken, -⟩ := Option.bind_eq_some_iff.1 run
  obtain ⟨-, own, -⟩ := (along.2 s start t taken).1 _ returns (Option.some_ne_none 1)
  rw [sent] at own
  exact absurd own (by decide)

end PubSub.Kafka.TestingUtils
