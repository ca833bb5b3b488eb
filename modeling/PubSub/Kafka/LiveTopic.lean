import PubSub.Base.Lts
import PubSub.Delivery

/-!
# A topic that changes while a snapshot reads it

Producers append records to the partitions and retention removes the oldest ones. In between a snapshot
asks for the watermarks of each partition and waits for messages. The client fetches ahead, so a record
may still be delivered after it was removed; what was removed before it was fetched is skipped.
-/

namespace PubSub.Kafka
set_option autoImplicit false
open Base

/-- The message of a poll. -/
def Poll.message : Poll → Option BorrowedMessage
  | .item (.ok msg) => some msg
  | _ => none

namespace LiveTopic

/-- A partition, and how far the snapshot is with it. -/
structure PartitionState where
  /-- All records that were ever appended; the place of a record is its offset. -/
  records : List FutureRecord
  /-- The records before this offset have been removed. -/
  low : Nat
  /-- The watermarks that the snapshot got. -/
  watermarks : Option (Nat × Nat)
  /-- The client has fetched or skipped the records before this offset. -/
  next : Nat

structure State where
  partitions : Table Int PartitionState
  /-- What the snapshot's waits for a message gave. -/
  polls : List Poll

def init (ids : List Int) : State := ⟨Table.ofPairs (ids.map fun id => (id, ⟨[], 0, none, 0⟩)), []⟩

inductive Action where
  /-- a producer appends a record -/
  | publish (id : Int) (record : FutureRecord)
  /-- retention -/
  | expire (id : Int) (low : Nat)
  | fetchWatermarks (id : Int)
  /-- the snapshot gets the message with this offset -/
  | deliver (id : Int) (offset : Nat)
  /-- a wait that does not give a message -/
  | disturb (poll : Poll)

/-- The bounds are known, so the snapshot waits for messages. -/
def State.measured (s : State) : Bool := s.partitions.entries.all fun e => e.2.watermarks.isSome

def step (s : State) : Action → Option State
  | .publish id record =>
    (s.partitions.lookup id).map fun p =>
      { s with partitions := s.partitions.insert id { p with records := p.records ++ [record] } }
  | .expire id low =>
    (s.partitions.lookup id).bind fun p =>
      if p.low ≤ low ∧ low ≤ p.records.length then
        some { s with partitions := s.partitions.insert id { p with low } }
      else none
  | .fetchWatermarks id =>
    (s.partitions.lookup id).bind fun p =>
      if p.watermarks = none then
        some { s with partitions := s.partitions.insert id { p with watermarks := some (p.low, p.records.length) } }
      else none
  | .deliver id offset =>
    (s.partitions.lookup id).bind fun p =>
      if s.measured ∧ p.next ≤ offset ∧ offset ≤ max p.next p.low then
        (p.records[offset]?).map fun record =>
          { partitions := s.partitions.insert id { p with next := offset + 1 }
            polls := s.polls ++ [.item (.ok ⟨id, offset, record.key, some record.payload⟩)] }
      else none
  | .disturb poll => if poll.message = none then some { s with polls := s.polls ++ [poll] } else none

/-- A topic with these partitions. -/
def system (ids : List Int) : Lts State Action := ⟨init ids, step⟩

/-- What the client library returns to the snapshot. -/
def State.consumer (ids : List Int) (s : State) : StreamConsumer where
  subscribe := .ok ()
  metadata := .ok [ids]
  watermarks id :=
    match (s.partitions.lookup id).bind PartitionState.watermarks with
    | some (low, high) => .ok (low, high)
    | none => .error (.Other 0 "no reply")
  poll i := (s.polls[i]?).getD .elapsed

/-- The messages that the snapshot got. -/
def State.messages (s : State) : List BorrowedMessage := s.polls.filterMap Poll.message

/-! ## What a step does -/

/-- A partition, and the partition later on. -/
structure Evolves (p p' : PartitionState) : Prop where
  records : p.records <+: p'.records
  low : p.low ≤ p'.low
  next : p.next ≤ p'.next
  watermarks : p'.watermarks = p.watermarks ∨
    p.watermarks = none ∧ p'.watermarks = some (p.low, p.records.length)

variable {ids : List Int} {s s' : State} {a : Action} {id : Int}

inductive Step (s : State) : State → Prop where
  /-- the snapshot gets no message -/
  | silent {id : Int} {p p' : PartitionState} (found : s.partitions.lookup id = some p) (evolves : Evolves p p')
      (next : p'.next = p.next) : Step s { s with partitions := s.partitions.insert id p' }
  | deliver {id : Int} {p : PartitionState} {offset : Nat} {record : FutureRecord}
      (found : s.partitions.lookup id = some p) (from' : p.next ≤ offset) (upTo : offset ≤ max p.next p.low)
      (here : p.records[offset]? = some record) :
      Step s { partitions := s.partitions.insert id { p with next := offset + 1 }
               polls := s.polls ++ [.item (.ok ⟨id, offset, record.key, some record.payload⟩)] }
  | disturb {poll : Poll} (none : poll.message = none) : Step s { s with polls := s.polls ++ [poll] }

theorem Step.of_step (taken : step s a = some s') : Step s s' := by
  cases a with
  | publish id record =>
    obtain ⟨p, found, rfl⟩ := Option.map_eq_some_iff.1 taken
    exact .silent found ⟨List.prefix_append _ _, Nat.le_refl _, Nat.le_refl _, .inl rfl⟩ rfl
  | expire id low =>
    obtain ⟨p, found, taken⟩ := Option.bind_eq_some_iff.1 taken
    obtain ⟨⟨more, -⟩, same⟩ := Option.ite_none_right_eq_some.1 taken
    cases same
    exact .silent found ⟨List.prefix_rfl, more, Nat.le_refl _, .inl rfl⟩ rfl
  | fetchWatermarks id =>
    obtain ⟨p, found, taken⟩ := Option.bind_eq_some_iff.1 taken
    obtain ⟨unknown, same⟩ := Option.ite_none_right_eq_some.1 taken
    cases same
    exact .silent found ⟨List.prefix_rfl, Nat.le_refl _, Nat.le_refl _, .inr ⟨unknown, rfl⟩⟩ rfl
  | deliver id offset =>
    obtain ⟨p, found, taken⟩ := Option.bind_eq_some_iff.1 taken
    obtain ⟨⟨-, from', upTo⟩, taken⟩ := Option.ite_none_right_eq_some.1 taken
    obtain ⟨record, here, rfl⟩ := Option.map_eq_some_iff.1 taken
    exact .deliver found from' upTo here
  | disturb poll =>
    obtain ⟨none, same⟩ := Option.ite_none_right_eq_some.1 taken
    cases same
    exact .disturb none

theorem Evolves.refl (p : PartitionState) : Evolves p p :=
  ⟨List.prefix_rfl, Nat.le_refl _, Nat.le_refl _, .inl rfl⟩

theorem Evolves.getElem? {p p' : PartitionState} (evolves : Evolves p p') {o : Nat} {record : FutureRecord}
    (here : p.records[o]? = some record) : p'.records[o]? = some record := by
  obtain ⟨more, same⟩ := evolves.records
  obtain ⟨short, -⟩ := List.getElem?_eq_some_iff.1 here
  rwa [← same, List.getElem?_append_left short]

/-- Partitions stay. -/
theorem evolves_of_step (taken : Step s s') (id : Int) :
    (∀ p, s.partitions.lookup id = some p → ∃ p', s'.partitions.lookup id = some p' ∧ Evolves p p') ∧
      ∀ p', s'.partitions.lookup id = some p' → ∃ p, s.partitions.lookup id = some p ∧ Evolves p p' := by
  have change : ∀ (id' : Int) (p p' : PartitionState), s.partitions.lookup id' = some p → Evolves p p' →
      (∀ q, s.partitions.lookup id = some q → ∃ q', (s.partitions.insert id' p').lookup id = some q' ∧ Evolves q q') ∧
        ∀ q', (s.partitions.insert id' p').lookup id = some q' →
          ∃ q, s.partitions.lookup id = some q ∧ Evolves q q' := by
    intro id' p p' found evolves
    rw [Table.lookup_insert_eq_ite]
    by_cases this : id = id'
    · subst this
      rw [if_pos rfl, found]
      refine ⟨fun q same => ?_, fun q' same => ?_⟩
      · exact ⟨p', rfl, Option.some.inj same ▸ evolves⟩
      · exact ⟨p, rfl, Option.some.inj same ▸ evolves⟩
    · rw [if_neg this]
      exact ⟨fun q there => ⟨q, there, .refl q⟩, fun q' there => ⟨q', there, .refl q'⟩⟩
  cases taken with
  | silent found evolves next => exact change _ _ _ found evolves
  | deliver found from' upTo here =>
    apply change _ _ _ found
    exact ⟨List.prefix_rfl, Nat.le_refl _, Nat.le_succ_of_le from', .inl rfl⟩
  | disturb none => exact ⟨fun q there => ⟨q, there, .refl q⟩, fun q' there => ⟨q', there, .refl q'⟩⟩

/-! ## The invariant of every run -/

/-- A record at its place in the topic, and the message that it is handed out as. -/
def State.Holds (s : State) (msg : BorrowedMessage) : Prop :=
  ∃ p record, ∃ o : Nat, s.partitions.lookup msg.partition = some p ∧ msg.offset = o ∧ o < p.next ∧
    p.records[o]? = some record ∧ BorrowedMessage.Carries record msg

structure Invariant (ids : List Int) (s : State) : Prop where
  listed : ∀ id p, s.partitions.lookup id = some p → id ∈ ids
  held : ∀ msg ∈ s.messages, s.Holds msg
  inOrder : s.messages.Pairwise fun a b => a.partition = b.partition → a.offset < b.offset
  whole : ∀ id p, s.partitions.lookup id = some p → ∀ o : Nat, o < p.next → p.low ≤ o →
    ∃ msg ∈ s.messages, msg.position = (id, (o : Int))

theorem State.Holds.step {msg : BorrowedMessage} (holds : s.Holds msg) (taken : Step s s') : s'.Holds msg := by
  obtain ⟨p, record, o, found, offset, below, here, carries⟩ := holds
  obtain ⟨p', found', evolves⟩ := (evolves_of_step taken msg.partition).1 p found
  exact ⟨p', record, o, found', offset, Nat.lt_of_lt_of_le below evolves.next, evolves.getElem? here, carries⟩

theorem invariant_init (ids : List Int) : Invariant ids (init ids) := by
  have new : ∀ id p, (init ids).partitions.lookup id = some p → id ∈ ids ∧ p = ⟨[], 0, none, 0⟩ := by
    intro id p found
    obtain ⟨id, here, same⟩ := List.mem_map.1 (Table.mem_of_lookup_ofPairs found)
    cases same
    exact ⟨here, rfl⟩
  refine ⟨fun id p found => (new id p found).1, nofun, .nil, fun id p found o below kept => ?_⟩
  rw [(new id p found).2] at below
  exact absurd below (Nat.not_lt_zero o)

theorem Invariant.step (inv : Invariant ids s) (taken : Step s s') : Invariant ids s' := by
  have listed : ∀ id p, s'.partitions.lookup id = some p → id ∈ ids := by
    intro id p' found'
    obtain ⟨p, found, -⟩ := (evolves_of_step taken id).2 p' found'
    exact inv.listed id p found
  have held : ∀ msg ∈ s.messages, s'.Holds msg := fun msg here => (inv.held msg here).step taken
  cases taken with
  | @silent id p p' found evolves next =>
    refine ⟨listed, held, inv.inOrder, fun id' q found' o below kept => ?_⟩
    rw [Table.lookup_insert_eq_ite] at found'
    split at found'
    · cases found'
      subst_vars
      exact inv.whole _ p found o (next ▸ below) (Nat.le_trans evolves.low kept)
    · exact inv.whole id' q found' o below kept
  | @deliver id p offset record found from' upTo here =>
    have messages : State.messages
        { partitions := s.partitions.insert id { p with next := offset + 1 }
          polls := s.polls ++ [.item (.ok ⟨id, offset, record.key, some record.payload⟩)] } =
        s.messages ++ [⟨id, offset, record.key, some record.payload⟩] := List.filterMap_append
    refine ⟨listed, ?_, ?_, fun id' q found' o below kept => ?_⟩
    · rw [messages, List.forall_mem_append]
      refine ⟨held, List.forall_mem_singleton.2 ⟨_, record, offset, AList.lookup_insert _, rfl, ?_, here, rfl, rfl⟩⟩
      exact Nat.lt_succ_self offset
    · rw [messages, List.pairwise_append]
      refine ⟨inv.inOrder, List.pairwise_singleton _ _, fun msg earlier other last same => ?_⟩
      rw [List.mem_singleton.1 last] at same ⊢
      obtain ⟨q, -, o, found', at', below, -⟩ := inv.held msg earlier
      rw [show msg.partition = id from same, found] at found'
      cases found'
      show msg.offset < (offset : Int)
      omega
    · rw [messages]
      rw [Table.lookup_insert_eq_ite] at found'
      split at found'
      · cases found'
        subst_vars
        by_cases fetched : o < p.next
        · obtain ⟨msg, earlier, position⟩ := inv.whole _ p found o fetched kept
          exact ⟨msg, List.mem_append_left _ earlier, position⟩
        · -- what the client skipped had been removed
          have last : o = offset := by
            have : o < offset + 1 := below
            have : p.low ≤ o := kept
            omega
          exact ⟨_, List.mem_append_right _ (List.mem_singleton_self _), by rw [last]; rfl⟩
      · obtain ⟨msg, earlier, position⟩ := inv.whole id' q found' o below kept
        exact ⟨msg, List.mem_append_left _ earlier, position⟩
  | @disturb poll none =>
    have same : State.messages { s with polls := s.polls ++ [poll] } = s.messages := by
      rw [State.messages, List.filterMap_append, List.filterMap_cons_none none, List.filterMap_nil, List.append_nil]
      rfl
    refine ⟨listed, ?_, ?_, ?_⟩
    · rw [same]
      exact held
    · rw [same]
      exact inv.inOrder
    · rw [same]
      exact inv.whole

theorem invariant_of_reachable (reached : (system ids).Reachable s) : Invariant ids s :=
  Lts.Reachable.invariant (M := system ids) (invariant_init ids)
    (fun _ _ _ _ inv taken => inv.step (.of_step taken)) s reached

/-- The watermarks that are fetched later on are above all that is in the partition now. -/
theorem watermarks_of_exec {as : List Action} {p : PartitionState} (run : (system ids).exec s as = some s')
    (found : s.partitions.lookup id = some p) (unknown : p.watermarks = none) :
    ∃ p', s'.partitions.lookup id = some p' ∧ p.records <+: p'.records ∧
      ∀ low high, p'.watermarks = some (low, high) → p.records.length ≤ high := by
  refine Lts.exec_invariant (M := system ids) (I := fun t => ∃ q, t.partitions.lookup id = some q ∧
    p.records <+: q.records ∧ ∀ low high, q.watermarks = some (low, high) → p.records.length ≤ high) ?_ ?_ run
  · rintro t a t' ⟨q, there, grown, above⟩ taken
    obtain ⟨q', there', evolves⟩ := (evolves_of_step (.of_step taken) id).1 q there
    refine ⟨q', there', grown.trans evolves.records, fun low high marks => ?_⟩
    rcases evolves.watermarks with same | ⟨-, new⟩
    · exact above low high (same ▸ marks)
    · rw [new] at marks
      cases marks
      exact grown.length_le
  · exact ⟨p, found, List.prefix_rfl, fun low high marks => by rw [unknown] at marks; cases marks⟩

end LiveTopic

namespace KafkaSnapshot

variable {consumer : StreamConsumer} {fuel : Nat} {M : Type} [Message M] {data : List M}

/-- The bounds need the watermarks of every partition. -/
theorem watermarks_of_foldlM {partitions : List Int} {offsets bounds : Bounds Int Int}
    (determined : partitions.foldlM (maxOffset consumer) offsets = .ok bounds) :
    ∀ p ∈ partitions, ∃ marks, consumer.watermarks p = .ok marks := by
  induction partitions generalizing offsets with
  | nil => exact nofun
  | cons q partitions ih =>
    rw [List.foldlM_cons] at determined
    cases first : consumer.watermarks q with
    | error e =>
      rw [maxOffset, first] at determined
      cases determined
    | ok marks =>
      rw [maxOffset, first] at determined
      rw [List.forall_mem_cons]
      exact ⟨⟨marks, first⟩, ih determined⟩

variable [Debug KafkaError]

theorem bounds_of_get (subscribed : consumer.subscribe = .ok ()) (done : get (.ok consumer) fuel = some (.ok data)) :
    ∃ offsets, determineMaxOffsets consumer = .ok offsets := by
  have ready : configureConsumer (.ok consumer) = .ok consumer := by simp only [configureConsumer, subscribed]
  rw [get, ready] at done
  dsimp only at done
  split at done
  · cases done
  · exact ⟨_, ‹_›⟩

end KafkaSnapshot

namespace LiveTopic

variable {ids : List Int} {s s' : State}

/-- What a snapshot has read is what it got first. -/
theorem prefix_of_delivers {records : List BorrowedMessage} (delivered : Delivers (s.consumer ids).poll 0 records) :
    records <+: s.messages := by
  have walk : ∀ (records : List BorrowedMessage) (polls : List Poll),
      (∀ (j : Nat) (msg : BorrowedMessage), records[j]? = some msg → (polls[j]?).getD .elapsed = Poll.item (.ok msg)) →
        records <+: polls.filterMap Poll.message := by
    intro records
    induction records with
    | nil => exact fun polls _ => List.nil_prefix
    | cons msg records ih =>
      intro polls same
      cases polls with
      | nil => cases same 0 msg rfl
      | cons poll polls =>
        have first : poll = .item (.ok msg) := same 0 msg rfl
        have message : poll.message = some msg := by rw [first]; rfl
        rw [List.filterMap_cons_some message, List.cons_prefix_cons]
        exact ⟨rfl, ih polls fun j other here => same (j + 1) other here⟩
  refine walk records s.polls fun j msg here => ?_
  have poll := delivered j msg here
  rwa [Nat.zero_add] at poll

/-- The watermarks that a reply has. -/
theorem watermarks_consumer {id : Int} {marks : Int × Int} (reply : (s.consumer ids).watermarks id = .ok marks) :
    ∃ low high : Nat, (s.partitions.lookup id).bind PartitionState.watermarks = some (low, high) ∧
      marks = (↑low, ↑high) := by
  simp only [State.consumer] at reply
  split at reply
  · cases reply
    exact ⟨_, _, ‹_›, rfl⟩
  · cases reply

/-- The bound of a partition is the offset before its high watermark. -/
theorem lookup_bound {offsets : Bounds Int Int}
    (determined : KafkaSnapshot.determineMaxOffsets (s.consumer ids) = .ok offsets) {id : Int} (listed : id ∈ ids) :
    ∃ low high : Nat, (s.partitions.lookup id).bind PartitionState.watermarks = some (low, high) ∧
      (0 < high → offsets.lookup id = some (high - 1 : Int)) := by
  have folded : ids.foldlM (KafkaSnapshot.maxOffset (s.consumer ids)) ∅ = .ok offsets := determined
  let high (id : Int) : Int :=
    (((s.partitions.lookup id).bind PartitionState.watermarks).map fun marks => (marks.2 : Int)).getD 0
  have replies : ∀ id ∈ ids, ∃ low, (s.consumer ids).watermarks id = .ok (low, high id) := by
    intro id here
    obtain ⟨marks, reply⟩ := KafkaSnapshot.watermarks_of_foldlM folded id here
    obtain ⟨low, top, known, rfl⟩ := watermarks_consumer reply
    exact ⟨low, by simp only [reply, high, known, Option.map_some, Option.getD_some]⟩
  obtain ⟨bounds, same, found⟩ := KafkaSnapshot.foldlM_maxOffset ∅ replies
  obtain rfl := Except.ok.inj (folded.symm.trans same)
  obtain ⟨marks, reply⟩ := KafkaSnapshot.watermarks_of_foldlM folded id listed
  obtain ⟨low, top, known, -⟩ := watermarks_consumer reply
  refine ⟨low, top, known, fun positive => ?_⟩
  have mark : high id = top := by simp only [high, known, Option.map_some, Option.getD_some]
  rw [found, mark, if_pos ⟨listed, Int.natCast_pos.2 positive⟩]

section Published

open Redis

variable [SerdeJsonMap] [Debug KafkaError]

/-- What the snapshot returns for the record at this place, if a message was published there. -/
def State.Shows (s : State) (b : BuiltIn) (topic : String) (x : Int × Int) (d : b.Carrier) : Prop :=
  ∃ p record, ∃ o : Nat, s.partitions.lookup x.1 = some p ∧ x.2 = (o : Int) ∧ p.records[o]? = some record ∧
    ∀ m : b.Carrier, record = .of topic m → b.Same d m

/-- **A snapshot returns what was published.** Producers and retention go on while it reads. If it succeeds,
each of its messages is that of a record of the topic, decoded to what was published, with its key; the
messages of a partition come in the order of their offsets, none twice; and among them are all that
were published before the snapshot asked for the watermarks and are still retained when it ends. -/
theorem snapshot_returns_published (reads : SerdeJsonMap.ReadsMaps) (b : BuiltIn) (topic : String)
    {as : List Action} {fuel : Nat} {data : List b.Carrier} (reached : (system ids).Reachable s)
    (run : (system ids).exec s as = some s')
    (before : ∀ id p, s.partitions.lookup id = some p → p.watermarks = none)
    (done : KafkaSnapshot.get (.ok (s'.consumer ids)) fuel = some (.ok data)) :
    ∃ positions : List (Int × Int),
      List.Forall₂ (s'.Shows b topic) positions data ∧
      positions.Pairwise (fun x y => x.1 = y.1 → x.2 < y.2) ∧
      ∀ id p p', s.partitions.lookup id = some p → s'.partitions.lookup id = some p' →
        ∀ o : Nat, p'.low ≤ o → o < p.records.length → (id, (o : Int)) ∈ positions := by
  have inv := invariant_of_reachable (reached.exec run)
  obtain ⟨offsets, determined⟩ := KafkaSnapshot.bounds_of_get rfl done
  obtain ⟨records, delivered, ⟨ms, image, same⟩, covered, -⟩ :=
    KafkaSnapshot.covers_of_read (KafkaSnapshot.read_of_get determined done)
  obtain rfl : data = ms := same
  obtain ⟨rest, split⟩ := prefix_of_delivers delivered
  have inOrder := inv.inOrder
  rw [← split] at inOrder
  obtain ⟨sorted, -, across⟩ := List.pairwise_append.1 inOrder
  refine ⟨records.map BorrowedMessage.position, ?_, ?_, fun id p p' found found' o kept old => ?_⟩
  · rw [List.forall₂_map_left_iff]
    have held : ∀ msg ∈ records, s'.Holds msg := fun msg here =>
      inv.held msg (by rw [← split]; exact List.mem_append_left _ here)
    refine ((List.forall₂_and_left _ _).2 ⟨held, image⟩).imp fun msg d both => ?_
    obtain ⟨⟨p, record, o, found, offset, -, here, carries⟩, converted⟩ := both
    refine ⟨p, record, o, found, offset, here, fun m published => ?_⟩
    subst published
    rw [convertToMessage, carries.payload, carries.key] at converted
    cases converted
    exact (BuiltIn.codec reads b).fromBytes m
  · rw [List.pairwise_map]
    exact sorted
  · obtain ⟨q, there, -, above⟩ := watermarks_of_exec run found (before id p found)
    obtain rfl := Option.some.inj (found'.symm.trans there)
    obtain ⟨low, high, known, bound⟩ := lookup_bound determined (inv.listed id p' found')
    rw [found', Option.bind_some] at known
    have top := above low high known
    obtain ⟨x, seen, this, reached⟩ := covered id _ (bound (by omega))
    obtain ⟨last, here, rfl⟩ := List.mem_map.1 seen
    have upTo : (high : Int) - 1 ≤ last.offset := reached
    have same : last.partition = id := this
    obtain ⟨q, -, top', there', offset, fetched, -⟩ :=
      inv.held last (by rw [← split]; exact List.mem_append_left _ here)
    rw [same] at there'
    obtain rfl := Option.some.inj (found'.symm.trans there')
    obtain ⟨msg, got, position⟩ := inv.whole id p' found' o (by omega) kept
    rw [← split] at got
    rcases List.mem_append.1 got with read | later
    · exact List.mem_map.2 ⟨msg, read, position⟩
    · -- the partition was read beyond this offset already
      obtain ⟨this', at'⟩ := Prod.mk.inj position
      have := across last here msg later (same.trans this'.symm)
      omega

end Published

/-- Two partitions before a snapshot. -/
def earlier : List Action :=
  [.publish 0 (.of "t" (⟨some "k", "a"⟩ : StringMessage)), .publish 0 (.of "t" (⟨some "k", "b"⟩ : StringMessage)),
    .publish 1 (.of "t" (⟨none, "c"⟩ : StringMessage))]

/-- The first record is removed before it was fetched, and another one is published. -/
def meanwhile : List Action :=
  [.fetchWatermarks 1, .fetchWatermarks 0, .expire 0 1, .publish 0 (.of "t" (⟨none, "d"⟩ : StringMessage)),
    .deliver 1 0, .deliver 0 1]

def asked : State := ((system [0, 1]).exec (init [0, 1]) earlier).get (by decide)

def answered : State := ((system [0, 1]).exec asked meanwhile).get (by decide)

open Redis.Reference in
theorem snapshot_returns_published_retained : ∃ positions,
    List.Forall₂ (answered.Shows .stringMessage "t") positions [(⟨none, "c"⟩ : StringMessage), ⟨some "k", "b"⟩] ∧
      (0, 1) ∈ positions ∧ (1, 0) ∈ positions := by
  let _ : Debug KafkaError := ⟨fun _ => "KafkaError"⟩
  have before : ∀ e ∈ asked.partitions.entries, e.2.watermarks = none := by decide
  have done : KafkaSnapshot.get (.ok (answered.consumer [0, 1])) 2 =
      some (.ok [(⟨none, "c"⟩ : StringMessage), ⟨some "k", "b"⟩]) := rfl
  have start : (system [0, 1]).Reachable asked := ⟨earlier, (Option.some_get _).symm⟩
  have run : (system [0, 1]).exec asked meanwhile = some answered := (Option.some_get _).symm
  obtain ⟨positions, shown, -, all⟩ := snapshot_returns_published readsMaps .stringMessage "t" start run
    (fun _ _ found => before _ (Table.mem_of_lookup found)) done
  exact ⟨positions, shown, all 0 _ _ rfl rfl 1 (by decide) (by decide), all 1 _ _ rfl rfl 0 (by decide) (by decide)⟩

end LiveTopic

end PubSub.Kafka
