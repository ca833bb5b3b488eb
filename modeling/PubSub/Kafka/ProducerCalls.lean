import PubSub.Base.GetOrCreate
import PubSub.Kafka.ProducerCache

/-!
# The calls on the producer cache

The producer cache as a map of clients that are looked up or created. A call that finds its entry
under the read lock returns the producer only after it has stored its clock value, but nothing it
meets on the way changes which one.
-/

namespace PubSub.Kafka.ProducerCache
set_option autoImplicit false
open Base

section Answers

variable {K : Type}

/-- What a phase commits a call to return. -/
def Phase.answer : Phase K → Option (Except KafkaError Nat)
  | .hit entry => some (.ok entry.producer)
  | .returned _ res => some res
  | .sampled | .missed => none

/-- What a call has returned, or will once it has stored its clock value. -/
def answer (s : State K) (c : Nat) : Option (Except KafkaError Nat) :=
  (s.calls.lookup c).bind fun call => call.phase.answer

variable {s : State K}

/-- A call that moves on: its answer is the one of its new phase, and no other call's answer changes. -/
theorem answer_insert {t : State K} {c : Nat} {call : Call K} (phase : Phase K)
    (calls : t.calls = s.calls.insert c { call with phase := phase }) (c' : Nat) :
    answer t c' = if c' = c then phase.answer else answer s c' := by
  simp only [answer, calls, Table.lookup_insert_eq_ite]
  split <;> rfl

theorem answer_of_lookup {c : Nat} {call : Call K} (found : s.calls.lookup c = some call) :
    answer s c = call.phase.answer := by
  simp [answer, found]

theorem answer_eq_none {c : Nat} {call : Call K} (open' : s.calls.lookup c = some call)
    (waiting : call.phase = .sampled ∨ call.phase = .missed) : answer s c = none := by
  rw [answer_of_lookup open']
  rcases waiting with waiting | waiting <;> rw [waiting] <;> rfl

end Answers

variable {K : Type} [Semiring K] [LinearOrder K] [FloorSemiring K]

/-- The hosts that a pass drops. -/
def State.dropped (s : State K) (sampled : K) : List String :=
  (s.map.entries.map Sigma.fst).filter fun host => ((s.reap sampled).map.lookup host).isNone

/-- What a step does to the map. -/
def event (s : State K) : Action K → Option (CacheEvent String Nat)
  | .lookup c =>
    match s.calls.lookup c with
    | some ⟨host, _, .sampled⟩ => (s.map.lookup host).map fun entry => .found c host entry.producer
    | _ => none
  | .write c res =>
    match s.calls.lookup c with
    | some ⟨host, _, .missed⟩ =>
      match s.map.lookup host with
      | some entry => some (.found c host entry.producer)
      | none =>
        match res with
        | .ok () => some (.created c host s.nextEntry)
        | .error _ => some (.refused c host)
    | _ => none
  | .reap =>
    match s.reaper with
    | .waiting sampled => some (.removed (s.dropped sampled))
    | _ => none
  | _ => none

/-- Calls are numbered in order. -/
def Numbered (s : State K) : Prop := ∀ c call, s.calls.lookup c = some call → c < s.nextCall

variable {s s' : State K} {a : Action K}

/-- Where the calls after a step come from. -/
theorem Step.call_cases (taken : Step s a s') {c : Nat} {call' : Call K} (found : s'.calls.lookup c = some call') :
    (c < s'.nextCall ∧ call'.sampled = s.clock) ∨
      ∃ call, s.calls.lookup c = some call ∧ call'.sampled = call.sampled := by
  have moved : ∀ {c₀ : Nat} {call₀ : Call K} {phase : Phase K}, s.calls.lookup c₀ = some call₀ →
      (s.calls.insert c₀ { call₀ with phase := phase }).lookup c = some call' →
      ∃ call, s.calls.lookup c = some call ∧ call'.sampled = call.sampled := by
    intro c₀ call₀ phase was found
    rw [Table.lookup_insert_eq_ite] at found
    split at found
    · cases found
      subst_vars
      exact ⟨call₀, was, rfl⟩
    · exact ⟨call', found, rfl⟩
  cases taken with
  | begin host =>
    simp only [Table.lookup_insert_eq_ite] at found
    split at found
    · cases found
      subst_vars
      exact .inl ⟨Nat.lt_succ_self _, rfl⟩
    · exact .inr ⟨call', found, rfl⟩
  | lookup was phase =>
    unfold State.lookup at found
    split at found <;> exact .inr (moved was found)
  | store was phase => exact .inr (moved was found)
  | share res was phase stored => exact .inr (moved was found)
  | create was phase absent => exact .inr (moved was found)
  | refused e was phase absent => exact .inr (moved was found)
  | abandon was phase =>
    rw [Table.lookup_erase_eq_ite] at found
    split at found
    · cases found
    · exact .inr ⟨call', found, rfl⟩
  | _ => exact .inr ⟨call', found, rfl⟩

theorem Step.nextCall_le (taken : Step s a s') : s.nextCall ≤ s'.nextCall := by
  cases taken with
  | begin host => exact Nat.le_succ _
  | lookup found phase =>
    unfold State.lookup
    split <;> exact Nat.le_refl _
  | _ => exact Nat.le_refl _

theorem Numbered.step (numbered : Numbered s) (taken : Step s a s') : Numbered s' := by
  intro c call' found
  obtain ⟨below, -⟩ | ⟨call, before, -⟩ := taken.call_cases found
  · exact below
  · exact Nat.lt_of_lt_of_le (numbered c call before) taken.nextCall_le

theorem numbered_of_reachable : (system K).Reachable s → Numbered s :=
  Lts.Reachable.invariant (by simp [Numbered, system, init])
    (fun _ _ _ _ numbered taken => numbered.step (.of_step taken)) s

/-- The steps that show nothing leave the map and the answers alone. -/
theorem silent_step (numbered : Numbered s) (taken : Step s a s') (silent : event s a = none) :
    s'.map = s.map ∧ ∀ c, answer s' c = answer s c := by
  have same : ∀ {t : State K} {c : Nat} {call : Call K} {phase : Phase K}, s.calls.lookup c = some call →
      t.calls = s.calls.insert c { call with phase := phase } → phase.answer = call.phase.answer →
      ∀ c', answer t c' = answer s c' := by
    intro t c call phase found calls alike c'
    rw [answer_insert _ calls]
    split
    · subst_vars
      rw [alike, answer_of_lookup found]
    · rfl
  cases taken with
  | begin host =>
    refine ⟨rfl, fun c => ?_⟩
    simp only [answer, Table.lookup_insert_eq_ite]
    split
    · subst_vars
      cases before : s.calls.lookup s.nextCall with
      | none => rfl
      | some call => exact absurd (numbered _ call before) (Nat.lt_irrefl _)
    · rfl
  | @lookup c call found phase =>
    obtain ⟨host, sampled, _⟩ := call
    cases phase
    have absent : s.map.lookup host = none := by simpa [event, found] using silent
    simp only [State.lookup, absent]
    exact ⟨rfl, same found rfl rfl⟩
  | store found phase => exact ⟨rfl, same found rfl (by rw [phase]; rfl)⟩
  | @share c call entry res found phase stored =>
    obtain ⟨host, sampled, _⟩ := call
    cases phase
    simp [event, found, stored] at silent
  | @create c call found phase absent =>
    obtain ⟨host, sampled, _⟩ := call
    cases phase
    simp [event, found, absent] at silent
  | @refused c call e found phase absent =>
    obtain ⟨host, sampled, _⟩ := call
    cases phase
    simp [event, found, absent] at silent
  | @abandon c call found phase =>
    refine ⟨rfl, fun c' => ?_⟩
    have open' := answer_eq_none found phase
    simp only [answer, Table.lookup_erase_eq_ite] at open' ⊢
    split
    · subst_vars
      exact open'.symm
    · rfl
  | reap waiting => simp [event, waiting] at silent
  | tick nonneg => exact ⟨rfl, fun _ => rfl⟩
  | wake asleep due => exact ⟨rfl, fun _ => rfl⟩

/-- What the other steps show, and do. -/
inductive Shown (s : State K) : CacheEvent String Nat → State K → Prop
  | found {c : Nat} {call : Call K} {entry : ProducerCacheEntry} {t : State K} {phase : Phase K}
      (open' : s.calls.lookup c = some call) (waiting : call.phase = .sampled ∨ call.phase = .missed)
      (stored : s.map.lookup call.host = some entry) (map : t.map = s.map)
      (calls : t.calls = s.calls.insert c { call with phase := phase })
      (given : phase.answer = some (.ok entry.producer)) : Shown s (.found c call.host entry.producer) t
  | created {c : Nat} {call : Call K} (open' : s.calls.lookup c = some call) (waiting : call.phase = .missed)
      (absent : s.map.lookup call.host = none) : Shown s (.created c call.host s.nextEntry) (s.create c call)
  | refused {c : Nat} {call : Call K} (e : KafkaError) (open' : s.calls.lookup c = some call)
      (waiting : call.phase = .missed) (absent : s.map.lookup call.host = none) :
      Shown s (.refused c call.host) (s.advance c call (.returned s.clock (.error e)))
  | removed (sampled : K) : Shown s (.removed (s.dropped sampled)) (s.reap sampled)

theorem shown_of_event {e : CacheEvent String Nat} (taken : Step s a s') (shown : event s a = some e) :
    Shown s e s' := by
  cases taken with
  | @lookup c call found phase =>
    obtain ⟨host, sampled, _⟩ := call
    cases phase
    simp only [event, found] at shown
    obtain ⟨entry, stored, rfl⟩ := Option.map_eq_some_iff.1 shown
    simp only [State.lookup, stored]
    exact .found found (.inl rfl) stored rfl rfl rfl
  | @share c call entry res found phase stored =>
    obtain ⟨host, sampled, _⟩ := call
    cases phase
    simp only [event, found, stored] at shown
    cases shown
    exact .found found (.inr rfl) stored rfl rfl rfl
  | @create c call found phase absent =>
    obtain ⟨host, sampled, _⟩ := call
    cases phase
    simp only [event, found, absent] at shown
    cases shown
    exact .created found rfl absent
  | @refused c call err found phase absent =>
    obtain ⟨host, sampled, _⟩ := call
    cases phase
    simp only [event, found, absent] at shown
    cases shown
    exact .refused err found rfl absent
  | reap waiting =>
    simp only [event, waiting] at shown
    cases shown
    exact .removed _
  | _ => cases shown

theorem mem_dropped {sampled : K} {host : String} :
    host ∈ s.dropped sampled ↔ (s.map.lookup host).isSome ∧ (s.reap sampled).map.lookup host = none := by
  simp only [State.dropped, List.mem_filter, List.mem_map, Option.isNone_iff_eq_none]
  refine and_congr_left fun _ => ?_
  constructor
  · rintro ⟨⟨_, entry⟩, listed, rfl⟩
    rw [Table.lookup_of_mem listed]
    rfl
  · intro some
    obtain ⟨entry, stored⟩ := Option.isSome_iff_exists.1 some
    exact ⟨⟨host, entry⟩, Table.mem_of_lookup stored, rfl⟩

/-- A pass keeps an entry as it is, or drops it. -/
theorem lookup_reap (sampled : K) (host : String) :
    (s.reap sampled).map.lookup host = if host ∈ s.dropped sampled then none else s.map.lookup host := by
  by_cases dropped : host ∈ s.dropped sampled
  · rw [if_pos dropped]
    exact (mem_dropped.1 dropped).2
  · rw [if_neg dropped]
    have kept : ¬ ((s.map.lookup host).isSome ∧ (s.reap sampled).map.lookup host = none) :=
      fun both => dropped (mem_dropped.2 both)
    simp only [State.reap, Table.lookup_retain] at kept ⊢
    cases stored : s.map.lookup host with
    | none => rfl
    | some entry =>
      rw [stored] at kept
      simp only [Option.isSome_some, true_and, Option.bind_some] at kept ⊢
      split
      · rfl
      · rename_i late
        rw [if_neg late] at kept
        exact absurd rfl kept

/-- The producers are looked up or created. -/
theorem getOrCreate : GetOrCreate (system K) State.map ProducerCacheEntry.producer event answer where
  serves s a s' _ taken e shown := by
    cases shown_of_event (.of_step taken) shown with
    | found open' waiting stored map calls given =>
      rw [map]
      exact .found _ (by rw [stored]; rfl)
    | @created c call open' waiting absent =>
      have after : (fun k => ((s.create c call).map.lookup k).map ProducerCacheEntry.producer) =
          fun k => if k = call.host then some s.nextEntry else (s.map.lookup k).map ProducerCacheEntry.producer := by
        funext k
        simp only [State.create, Table.lookup_insert_eq_ite]
        split <;> rfl
      rw [after]
      exact .created _ _ (by rw [absent]; rfl)
    | refused e open' waiting absent => exact .refused _ (by rw [absent]; rfl)
    | removed sampled =>
      have after : (fun k => ((s.reap sampled).map.lookup k).map ProducerCacheEntry.producer) = fun k =>
          if k ∈ s.dropped sampled then none else (s.map.lookup k).map ProducerCacheEntry.producer := by
        funext k
        rw [lookup_reap]
        split <;> rfl
      rw [after]
      exact .removed fun k here => by rw [Option.isSome_map]; exact (mem_dropped.1 here).1
  silent s a s' reached taken shown k := by
    rw [(silent_step (numbered_of_reachable reached) (.of_step taken) shown).1]
  refused s a s' call k _ taken shown := by
    cases shown_of_event (.of_step taken) shown with
    | @refused c call e open' waiting absent =>
      refine ⟨rfl, absent, e, ?_⟩
      rw [answer_insert (.returned s.clock (.error e)) rfl, if_pos rfl]
      rfl
  unanswered call := rfl
  answered s a s' call reached taken := by
    cases shown : event s a with
    | none => exact (silent_step (numbered_of_reachable reached) (.of_step taken) shown).2 call
    | some e =>
      cases shown_of_event (.of_step taken) shown with
      | @found c cl entry t phase open' waiting stored map calls given =>
        exact CacheEvent.answered (.ok entry.producer) (given ▸ answer_insert _ calls) (answer_eq_none open' waiting)
          (fun _ => rfl) call
      | created open' waiting absent =>
        exact CacheEvent.answered (.ok s.nextEntry) (answer_insert (.returned s.clock (.ok s.nextEntry)) rfl)
          (answer_eq_none open' (.inr waiting)) (fun _ => rfl) call
      | refused e open' waiting absent =>
        exact CacheEvent.answered (.error e) (answer_insert (.returned s.clock (.error e)) rfl)
          (answer_eq_none open' (.inr waiting)) (fun _ => rfl) call
      | removed sampled => rfl

end PubSub.Kafka.ProducerCache
