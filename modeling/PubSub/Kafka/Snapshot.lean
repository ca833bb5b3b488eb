import Mathlib.Data.Int.Order.Basic
import Mathlib.Data.List.Forall2
import PubSub.Base.Bounds
import PubSub.Message

/-!
# Kafka snapshots

`KafkaSnapshot::get` records one bound for each partition, the offset before its high watermark,
and then reads the consumer stream until every bound has been struck out. The client library is
the data its calls return: `poll i` is the outcome of the `i`-th wait for a message. A read that
goes on for longer than `fuel` messages has no result yet (`none`).
-/

namespace PubSub.Kafka
set_option autoImplicit false
open Base

inductive RDKafkaErrorCode where
  | InvalidPartitions
  | PartitionEOF
  | Other (code : Int)
  deriving DecidableEq

/-- The client's errors; `Other` stands for the variants this crate never builds itself. -/
inductive KafkaError where
  | MetadataFetch (code : RDKafkaErrorCode)
  | MessageConsumption (code : RDKafkaErrorCode)
  | Other (variant : Nat) (detail : String)
  deriving DecidableEq

/-- The timer's error. -/
structure Elapsed where

instance : Debug Elapsed := ⟨fun _ => "Elapsed(())"⟩

/-- A message of a partition. -/
structure BorrowedMessage where
  partition : Int
  offset : Int
  key : Option Bytes
  payload : Option Bytes
  deriving DecidableEq

/-- What waiting for the next message of a consumer stream can give. -/
inductive Poll where
  | elapsed
  | ended
  | item (res : Except KafkaError BorrowedMessage)

/-- What the calls on a consumer return. -/
structure StreamConsumer where
  subscribe : Except KafkaError Unit
  /-- the partitions of each topic in the reply -/
  metadata : Except KafkaError (List (List Int))
  watermarks : Int → Except KafkaError (Int × Int)
  poll : Nat → Poll

variable {M : Type} [Message M]

def convertToMessage (incoming : BorrowedMessage) : Except PubSubError M :=
  match incoming.payload with
  | none => .error default
  | some value => .ok (Message.fromBytes incoming.key value)

/-- Where a message stands in the log. -/
def BorrowedMessage.position (msg : BorrowedMessage) : Int × Int := (msg.partition, msg.offset)

/-- `data` is what `records` convert to, one by one. -/
def Image (records : List BorrowedMessage) (data : List M) : Prop :=
  List.Forall₂ (fun msg m => convertToMessage msg = .ok m) records data

/-- Messages convert one and all exactly if each has a payload. -/
theorem exists_image_iff {records : List BorrowedMessage} :
    (∃ data : List M, Image records data) ↔ ∀ msg ∈ records, msg.payload.isSome := by
  induction records with
  | nil => exact iff_of_true ⟨[], .nil⟩ (by simp)
  | cons msg records ih =>
    rw [List.forall_mem_cons, ← ih]
    constructor
    · rintro ⟨_, image⟩
      obtain ⟨m, data, first, rest, rfl⟩ := List.forall₂_cons_left_iff.1 image
      refine ⟨?_, data, rest⟩
      unfold convertToMessage at first
      split at first
      · cases first
      · simp [*]
    · rintro ⟨some, data, rest⟩
      obtain ⟨value, payload⟩ := Option.isSome_iff_exists.1 some
      exact ⟨Message.fromBytes msg.key value :: data, .cons (by simp only [convertToMessage, payload]) rest⟩

/-- From the `i`-th poll on the stream delivers `records`. -/
def Delivers (poll : Nat → Poll) (i : Nat) (records : List BorrowedMessage) : Prop :=
  ∀ j msg, records[j]? = some msg → poll (i + j) = .item (.ok msg)

/-- The offsets that a stream delivers increase in every partition. -/
def Increasing (poll : Nat → Poll) : Prop :=
  ∀ i j msg msg', i < j → poll i = .item (.ok msg) → poll j = .item (.ok msg') →
    msg.partition = msg'.partition → msg.offset < msg'.offset

/-- A stream that delivers `records` and then nothing more. -/
def replay (records : List BorrowedMessage) (j : Nat) : Poll :=
  match records[j]? with
  | some msg => .item (.ok msg)
  | none => .elapsed

theorem replay_eq_item {records : List BorrowedMessage} {j : Nat} {msg : BorrowedMessage} :
    replay records j = .item (.ok msg) ↔ records[j]? = some msg := by
  unfold replay
  cases records[j]? with
  | none => simp
  | some other => simp

theorem increasing_replay {records : List BorrowedMessage}
    (sorted : records.Pairwise fun a b => a.partition = b.partition → a.offset < b.offset) :
    Increasing (replay records) := by
  intro i j msg msg' before at' at''
  rw [replay_eq_item] at at' at''
  obtain ⟨first, rfl⟩ := List.getElem?_eq_some_iff.1 at'
  obtain ⟨second, rfl⟩ := List.getElem?_eq_some_iff.1 at''
  exact List.pairwise_iff_getElem.1 sorted i j first second before

theorem Delivers.cons {poll : Nat → Poll} {i : Nat} {msg : BorrowedMessage}
    {records : List BorrowedMessage} :
    Delivers poll i (msg :: records) ↔ poll i = .item (.ok msg) ∧ Delivers poll (i + 1) records := by
  constructor
  · intro delivered
    refine ⟨delivered 0 msg rfl, fun j other at' => ?_⟩
    rw [show i + 1 + j = i + (j + 1) by omega]
    exact delivered (j + 1) other at'
  · rintro ⟨first, rest⟩ j other at'
    cases j with
    | zero => cases at'; exact first
    | succ j =>
      rw [show i + (j + 1) = i + 1 + j by omega]
      exact rest j other at'

theorem delivers_replay {records : List BorrowedMessage} : Delivers (replay records) 0 records := by
  intro j msg at'
  rw [Nat.zero_add]
  exact replay_eq_item.2 at'

/-- Two stretches of one stream agree as far as the shorter one goes. -/
theorem Delivers.take_eq {poll : Nat → Poll} {i : Nat} {records records' : List BorrowedMessage}
    (first : Delivers poll i records) (second : Delivers poll i records')
    (le : records.length ≤ records'.length) : records'.take records.length = records := by
  apply List.ext_getElem
  · rw [List.length_take, Nat.min_eq_left le]
  · intro j _ short
    have at' := first j _ (List.getElem?_eq_getElem short)
    have at'' := second j _ (List.getElem?_eq_getElem (Nat.lt_of_lt_of_le short le))
    have same : records[j] = records'[j] := by simpa using at'.symm.trans at''
    rw [List.getElem_take, same]

namespace KafkaSnapshot

/-- One partition of `determine_max_offsets`. -/
def maxOffset (consumer : StreamConsumer) (offsets : Bounds Int Int) (partition : Int) :
    Except KafkaError (Bounds Int Int) :=
  match consumer.watermarks partition with
  | .error e => .error e
  | .ok (_, high) =>
    -- the high watermark is the next offset to be assigned
    .ok (if high > 0 then offsets.insert partition (high - 1) else offsets)

def determineMaxOffsets (consumer : StreamConsumer) : Except KafkaError (Bounds Int Int) :=
  match consumer.metadata with
  | .error e => .error e
  | .ok topics =>
    match topics.head? with
    | some partitions => partitions.foldlM (maxOffset consumer) ∅
    | none => .error (.MetadataFetch .InvalidPartitions)

variable {poll : Nat → Poll} {offsets : Bounds Int Int} {records : List BorrowedMessage}
  {fuel i : Nat} {data out : List M} {consumer : StreamConsumer}

/-- The bounds are the offsets before the high watermarks, of the partitions that were ever
written to. -/
theorem foldlM_maxOffset {high : Int → Int} {partitions : List Int} (offsets : Bounds Int Int)
    (marks : ∀ p ∈ partitions, ∃ low, consumer.watermarks p = .ok (low, high p)) :
    ∃ bounds, partitions.foldlM (maxOffset consumer) offsets = .ok bounds ∧
      ∀ p, bounds.lookup p =
        if p ∈ partitions ∧ 0 < high p then some (high p - 1) else offsets.lookup p := by
  induction partitions generalizing offsets with
  | nil => exact ⟨offsets, rfl, fun p => by simp⟩
  | cons q partitions ih =>
    obtain ⟨low, mark⟩ := marks q List.mem_cons_self
    have first : maxOffset consumer offsets q =
        .ok (if high q > 0 then offsets.insert q (high q - 1) else offsets) := by
      simp only [maxOffset, mark]
    obtain ⟨bounds, rest, found⟩ := ih (if high q > 0 then offsets.insert q (high q - 1) else offsets)
      fun p here => marks p (List.mem_cons_of_mem q here)
    refine ⟨bounds, by rw [List.foldlM_cons, first]; exact rest, fun p => ?_⟩
    rw [found p]
    by_cases later : p ∈ partitions ∧ 0 < high p
    · rw [if_pos later, if_pos ⟨List.mem_cons_of_mem q later.1, later.2⟩]
    · rw [if_neg later]
      by_cases same : p = q
      · subst same
        by_cases written : 0 < high p
        · simp [written]
        · simp [written]
      · have unlisted : ¬ (p ∈ q :: partitions ∧ 0 < high p) := by
          rintro ⟨here, written⟩
          exact later ⟨(List.mem_cons.1 here).resolve_left same, written⟩
        rw [if_neg unlisted]
        split
        · rw [Table.lookup_insert_eq_ite, if_neg same]
        · rfl

/-- Nothing is left to wait for before the first message. -/
theorem isEmpty_iff_covers_nil : offsets.isEmpty = true ↔ offsets.Covers [] := by
  rw [← Bounds.isEmpty_observeAll_iff]
  rfl

/-- The loop's `retain` is one observation. -/
theorem covers_cons {msg : BorrowedMessage} {seen : List (Int × Int)} :
    offsets.Covers (msg.position :: seen) ↔
      Bounds.Covers (offsets.retain fun k v =>
        if k ≠ msg.partition ∨ v > msg.offset then some v else none) seen := by
  rw [← Bounds.isEmpty_observeAll_iff, ← Bounds.isEmpty_observeAll_iff]
  rfl

variable [Debug KafkaError]

def configureConsumer (create : Except KafkaError StreamConsumer) : Except PubSubError StreamConsumer :=
  match create with
  | .error e => .error (.fromDebug e)
  | .ok consumer =>
    match consumer.subscribe with
    | .error e => .error (.fromDebug e)
    | .ok () => .ok consumer

/-- The loop of `get`, from the `i`-th poll on. -/
def read (poll : Nat → Poll) : Nat → Nat → Bounds Int Int → List M → Option (Except PubSubError (List M))
  | fuel, i, offsets, data =>
    if offsets.isEmpty then some (.ok data)
    else
      match fuel with
      | 0 => none
      | fuel + 1 =>
        match poll i with
        | .elapsed => some (.error (.fromDebug (Elapsed.mk)))
        | .ended => some (.error (.fromDebug (KafkaError.MessageConsumption .PartitionEOF)))
        | .item (.error e) => some (.error (.fromDebug e))
        | .item (.ok msg) =>
          let offsets := offsets.retain fun k v =>
            if k ≠ msg.partition ∨ v > msg.offset then some v else none
          match convertToMessage msg with
          | .error e => some (.error e)
          | .ok m => read poll fuel (i + 1) offsets (data ++ [m])

def get (create : Except KafkaError StreamConsumer) (fuel : Nat) : Option (Except PubSubError (List M)) :=
  match configureConsumer create with
  | .error e => some (.error e)
  | .ok consumer =>
    match determineMaxOffsets consumer with
    | .error e => some (.error (.fromDebug e))
    | .ok offsets => read consumer.poll fuel 0 offsets []

/-- A successful read has taken the shortest stretch of the stream that covers the bounds, and
returns its image. -/
theorem covers_of_read (done : read poll fuel i offsets data = some (.ok out)) :
    ∃ records, Delivers poll i records ∧ (∃ ms, Image records ms ∧ out = data ++ ms) ∧
      offsets.Covers (records.map BorrowedMessage.position) ∧
      ∀ m < records.length, ¬ offsets.Covers ((records.take m).map BorrowedMessage.position) := by
  induction fuel generalizing i offsets data with
  | zero =>
    unfold read at done
    split at done
    · rename_i empty
      cases done
      exact ⟨[], by simp [Delivers], ⟨[], .nil, by simp⟩, isEmpty_iff_covers_nil.1 empty, by simp⟩
    · cases done
  | succ fuel ih =>
    unfold read at done
    split at done
    · rename_i empty
      cases done
      exact ⟨[], by simp [Delivers], ⟨[], .nil, by simp⟩, isEmpty_iff_covers_nil.1 empty, by simp⟩
    · rename_i left
      simp only at done
      split at done <;> try cases done
      rename_i msg here
      split at done
      · cases done
      · rename_i m first
        obtain ⟨records, delivered, ⟨ms, image, rfl⟩, covered, shortest⟩ := ih done
        refine ⟨msg :: records, Delivers.cons.2 ⟨here, delivered⟩,
          ⟨m :: ms, .cons first image, by simp⟩, covers_cons.2 covered, fun k short => ?_⟩
        cases k with
        | zero => exact fun covered => left (isEmpty_iff_covers_nil.2 covered)
        | succ k =>
          rw [List.take_succ_cons, List.map_cons, covers_cons]
          exact shortest k (by simpa using short)

/-- A read that is given the shortest covering stretch, all of it convertible, succeeds. -/
theorem read_of_covers {ms : List M} (delivered : Delivers poll i records) (image : Image records ms)
    (covered : offsets.Covers (records.map BorrowedMessage.position))
    (shortest : ∀ m < records.length,
      ¬ offsets.Covers ((records.take m).map BorrowedMessage.position)) :
    read poll records.length i offsets data = some (.ok (data ++ ms)) := by
  induction image generalizing i offsets data with
  | nil =>
    unfold read
    rw [if_pos (isEmpty_iff_covers_nil.2 covered), List.append_nil]
  | @cons msg m records ms first image ih =>
    obtain ⟨here, delivered⟩ := Delivers.cons.1 delivered
    have left : ¬ offsets.isEmpty = true := fun empty =>
      shortest 0 (Nat.succ_pos _) (isEmpty_iff_covers_nil.1 empty)
    rw [List.length_cons]
    unfold read
    simp only [left, if_false, here, first, Bool.false_eq_true]
    rw [ih delivered (covers_cons.1 covered), List.append_assoc, List.singleton_append]
    intro k short
    rw [← covers_cons]
    exact shortest (k + 1) (Nat.succ_lt_succ short)

/-- A successful `get` is a successful read up to the bounds. -/
theorem read_of_get (bounds : determineMaxOffsets consumer = .ok offsets)
    (done : get (.ok consumer) fuel = some (.ok data)) :
    read consumer.poll fuel 0 offsets [] = some (.ok data) := by
  unfold get at done
  split at done
  · cases done
  · rename_i configured ready
    have same : configured = consumer := by
      simp only [configureConsumer] at ready
      split at ready <;> cases ready
      rfl
    rw [same, bounds] at done
    exact done

/-- A `get` that comes to its loop. -/
theorem get_eq_read (subscribed : consumer.subscribe = .ok ()) (bounds : determineMaxOffsets consumer = .ok offsets)
    (fuel : Nat) : get (M := M) (.ok consumer) fuel = read consumer.poll fuel 0 offsets [] := by
  simp only [get, configureConsumer, subscribed, bounds]

/-- **Coverage of a successful snapshot.** The data are the image of the shortest prefix of the
stream in which every bounded partition has shown an offset at or above its bound. Where offsets
increase, the prefix has every message of a bounded partition up to its bound, in offset order. -/
theorem get_covers (increasing : Increasing consumer.poll)
    (bounds : determineMaxOffsets consumer = .ok offsets)
    (done : get (.ok consumer) fuel = some (.ok data)) :
    ∃ records, Delivers consumer.poll 0 records ∧ Image records data ∧
      (∀ i msg bound, consumer.poll i = .item (.ok msg) → offsets.lookup msg.partition = some bound →
        msg.offset ≤ bound → records[i]? = some msg) ∧
      (∀ p, ((records.filter (·.partition = p)).map BorrowedMessage.offset).Pairwise (· < ·)) ∧
      offsets.Covers (records.map BorrowedMessage.position) ∧
      ∀ m < records.length, ¬ offsets.Covers ((records.take m).map BorrowedMessage.position) := by
  obtain ⟨records, delivered, ⟨ms, image, rfl⟩, covered, shortest⟩ :=
    covers_of_read (read_of_get bounds done)
  have at' : ∀ j msg, records[j]? = some msg → consumer.poll j = .item (.ok msg) := by
    intro j msg here
    simpa using delivered j msg here
  refine ⟨records, delivered, by simpa using image, fun i msg bound here limit below => ?_, fun p => ?_,
    covered, shortest⟩
  · by_cases inside : i < records.length
    · have there := at' i records[i] (List.getElem?_eq_getElem inside)
      rw [there] at here
      cases here
      exact List.getElem?_eq_getElem inside
    · -- past the prefix the partition is above its bound
      have above : bound < msg.offset := by
        refine covered.above limit fun x seen same => ?_
        obtain ⟨other, listed, rfl⟩ := List.mem_map.1 seen
        obtain ⟨j, short, rfl⟩ := List.getElem_of_mem listed
        exact increasing j i _ _ (by omega) (at' j _ (List.getElem?_eq_getElem short)) here same
      omega
  · rw [List.pairwise_map, List.pairwise_filter]
    refine List.pairwise_iff_getElem.2 fun i j first second before here there => ?_
    simp only [decide_eq_true_eq] at here there
    exact increasing i j _ _ before (at' i _ (List.getElem?_eq_getElem first))
      (at' j _ (List.getElem?_eq_getElem second)) (here.trans there.symm)

/-- Two partitions, one of them trimmed, and a message produced while the snapshot reads. -/
def interleaved : List BorrowedMessage :=
  [⟨1, 3, none, some ⟨#[97]⟩⟩, ⟨0, 0, none, some ⟨#[98]⟩⟩, ⟨0, 1, none, some ⟨#[99]⟩⟩, ⟨0, 2, none, some ⟨#[100]⟩⟩]

def interleavedConsumer : StreamConsumer where
  subscribe := .ok ()
  metadata := .ok [[0, 1]]
  watermarks p := .ok (if p = 0 then (0, 2) else (3, 4))
  poll := replay interleaved

omit [Debug KafkaError] in
theorem get_covers_interleaved : ∃ offsets records,
    determineMaxOffsets interleavedConsumer = .ok offsets ∧
    Delivers interleavedConsumer.poll 0 records ∧
    Image records [(⟨none, ⟨#[97]⟩⟩ : ByteMessage), ⟨none, ⟨#[98]⟩⟩, ⟨none, ⟨#[99]⟩⟩] ∧
    offsets.Covers (records.map BorrowedMessage.position) := by
  obtain ⟨offsets, bounds⟩ : ∃ offsets, determineMaxOffsets interleavedConsumer = .ok offsets := ⟨_, rfl⟩
  let _ : Debug KafkaError := ⟨fun _ => "KafkaError"⟩
  have done : get (.ok interleavedConsumer) 3 =
      some (.ok [(⟨none, ⟨#[97]⟩⟩ : ByteMessage), ⟨none, ⟨#[98]⟩⟩, ⟨none, ⟨#[99]⟩⟩]) := rfl
  obtain ⟨records, delivered, image, -, -, covered, -⟩ :=
    get_covers (increasing_replay (by decide)) bounds done
  exact ⟨offsets, records, bounds, delivered, image, covered⟩

end KafkaSnapshot

/-- A partition and its watermarks. -/
structure Partition where
  id : Int
  low : Int
  high : Int
  nonneg : 0 ≤ low
  le : low ≤ high

/-- The offsets the partition still retains. -/
def Partition.retained (p : Partition) : List Int :=
  (List.range (p.high - p.low).toNat).map fun (i : Nat) => p.low + i

structure TopicLog where
  partitions : List Partition
  distinct : (partitions.map Partition.id).Nodup

/-- An order in which a consumer can be given the whole retained log: every partition in offset
order, each message with a payload. -/
structure Delivery (log : TopicLog) where
  records : List BorrowedMessage
  retained : ∀ p ∈ log.partitions,
    (records.filter (·.partition = p.id)).map BorrowedMessage.offset = p.retained
  only : ∀ msg ∈ records, ∃ p ∈ log.partitions, p.id = msg.partition
  payload : ∀ msg ∈ records, msg.payload.isSome

/-- A consumer of the topic that meets no error, gets every message in time and nothing else. -/
def Delivery.consumer {log : TopicLog} (d : Delivery log) : StreamConsumer where
  subscribe := .ok ()
  metadata := .ok [log.partitions.map Partition.id]
  watermarks id :=
    match log.partitions.find? (·.id = id) with
    | some p => .ok (p.low, p.high)
    | none => .error (.Other 0 "unknown partition")
  poll := replay d.records

variable {log : TopicLog} {d : Delivery log}

/-- The last message of a delivery is the last one of its partition. -/
theorem Delivery.last {init : List BorrowedMessage} {msg : BorrowedMessage}
    (records : d.records = init ++ [msg]) :
    ∃ p ∈ log.partitions, p.id = msg.partition ∧ p.low ≤ msg.offset ∧ msg.offset = p.high - 1 ∧
      ∀ other ∈ init, other.partition = msg.partition → other.offset < msg.offset := by
  obtain ⟨p, listed, same⟩ := d.only msg (by simp [records])
  have order := d.retained p listed
  have mine : decide (msg.partition = p.id) = true := by simp [same]
  rw [records, List.filter_append, List.filter_singleton, mine, cond_true, List.map_append,
    Partition.retained] at order
  generalize size : (p.high - p.low).toNat = n at order
  cases n with
  | zero => simp at order
  | succ k =>
    rw [List.range_succ, List.map_append] at order
    obtain ⟨before, at'⟩ := List.append_inj' order rfl
    simp only [List.map_cons, List.map_nil, List.cons.injEq, and_true] at at'
    refine ⟨p, listed, same, by omega, by omega, fun other here there => ?_⟩
    have listed' : other.offset ∈ (init.filter (·.partition = p.id)).map BorrowedMessage.offset :=
      List.mem_map_of_mem (List.mem_filter.2 ⟨here, by simp [there, same]⟩)
    rw [before] at listed'
    obtain ⟨i, short, at''⟩ := List.mem_map.1 listed'
    have := List.mem_range.1 short
    omega

theorem TopicLog.find (log : TopicLog) {p : Partition} (listed : p ∈ log.partitions) :
    log.partitions.find? (·.id = p.id) = some p := by
  cases found : log.partitions.find? (·.id = p.id) with
  | none => exact absurd (decide_eq_true rfl) (List.find?_eq_none.1 found p listed)
  | some q =>
    have same : q.id = p.id := by simpa using List.find?_some found
    rw [List.inj_on_of_nodup_map log.distinct (List.mem_of_find?_eq_some found) listed same]

/-- The bounds of a topic: one for each partition that was ever written to. -/
theorem Delivery.bounds (d : Delivery log) :
    ∃ offsets, KafkaSnapshot.determineMaxOffsets d.consumer = .ok offsets ∧
      ∀ id b, offsets.lookup id = some b ↔
        ∃ p ∈ log.partitions, p.id = id ∧ 0 < p.high ∧ b = p.high - 1 := by
  let high (id : Int) : Int := ((log.partitions.find? (·.id = id)).map Partition.high).getD 0
  have marks : ∀ id ∈ log.partitions.map Partition.id,
      ∃ low, d.consumer.watermarks id = .ok (low, high id) := by
    intro id listed
    obtain ⟨p, here, rfl⟩ := List.mem_map.1 listed
    exact ⟨p.low, by simp [Delivery.consumer, high, log.find here]⟩
  obtain ⟨offsets, determined, found⟩ := KafkaSnapshot.foldlM_maxOffset ∅ marks
  refine ⟨offsets, determined, fun id b => ?_⟩
  rw [found]
  constructor
  · intro bound
    split at bound
    · rename_i written
      obtain ⟨listed, positive⟩ := written
      obtain ⟨p, here, rfl⟩ := List.mem_map.1 listed
      simp only [high, log.find here, Option.map_some, Option.getD_some] at bound positive
      cases bound
      exact ⟨p, here, rfl, positive, rfl⟩
    · simp at bound
  · rintro ⟨p, here, rfl, positive, rfl⟩
    have mark : high p.id = p.high := by simp [high, log.find here]
    rw [if_pos ⟨List.mem_map_of_mem here, mark ▸ positive⟩, mark]

/-- Every message of a delivery converts. -/
theorem Delivery.image (d : Delivery log) : ∃ ms : List M, Image d.records ms := exists_image_iff.2 d.payload

/-- A partition shows the offset before its high watermark exactly when it retains anything. -/
theorem Delivery.reaches (d : Delivery log) {p : Partition} (listed : p ∈ log.partitions) :
    (∃ x ∈ d.records.map BorrowedMessage.position, x.1 = p.id ∧ p.high - 1 ≤ x.2) ↔ p.low < p.high := by
  have order := d.retained p listed
  constructor
  · rintro ⟨x, seen, same, reached⟩
    obtain ⟨msg, here, rfl⟩ := List.mem_map.1 seen
    have offset : msg.offset ∈ p.retained := by
      rw [← order]
      exact List.mem_map_of_mem (List.mem_filter.2 ⟨here, decide_eq_true same⟩)
    obtain ⟨i, short, -⟩ := List.mem_map.1 offset
    have := List.mem_range.1 short
    omega
  · intro some
    have offset : p.high - 1 ∈ p.retained := by
      refine List.mem_map.2 ⟨(p.high - p.low).toNat - 1, List.mem_range.2 (by omega), by omega⟩
    rw [← order] at offset
    obtain ⟨msg, here, at'⟩ := List.mem_map.1 offset
    obtain ⟨listed', same⟩ := List.mem_filter.1 here
    exact ⟨msg.position, List.mem_map_of_mem listed', of_decide_eq_true same, Int.le_of_eq at'.symm⟩

/-- **Completeness of a snapshot.** Over a log that the consumer is given whole, `get` returns
every retained message exactly when no partition has been emptied by retention. -/
theorem get_complete_iff [Debug KafkaError] (log : TopicLog) (d : Delivery log) :
    (∃ fuel, ∃ data : List M, KafkaSnapshot.get (.ok d.consumer) fuel = some (.ok data) ∧
      Image d.records data) ↔ ∀ p ∈ log.partitions, ¬ (0 < p.low ∧ p.low = p.high) := by
  obtain ⟨offsets, bounds, bound⟩ := d.bounds
  have covers : offsets.Covers (d.records.map BorrowedMessage.position) ↔
      ∀ p ∈ log.partitions, ¬ (0 < p.low ∧ p.low = p.high) := by
    constructor
    · rintro covered p listed ⟨written, emptied⟩
      have := (d.reaches listed).1
        (covered p.id _ ((bound p.id _).2 ⟨p, listed, rfl, by omega, rfl⟩))
      omega
    · intro full id b found
      obtain ⟨p, listed, rfl, written, rfl⟩ := (bound id b).1 found
      have := full p listed
      have := p.nonneg
      have := p.le
      exact (d.reaches listed).2 (by omega)
  have get_eq : ∀ fuel, KafkaSnapshot.get (M := M) (.ok d.consumer) fuel =
      KafkaSnapshot.read (replay d.records) fuel 0 offsets [] := KafkaSnapshot.get_eq_read rfl bounds
  rw [← covers]
  constructor
  · rintro ⟨fuel, data, done, -⟩
    rw [get_eq] at done
    obtain ⟨records, delivered, -, covered, -⟩ := KafkaSnapshot.covers_of_read done
    refine covered.mono fun x seen => ?_
    obtain ⟨msg, here, rfl⟩ := List.mem_map.1 seen
    obtain ⟨j, at'⟩ := List.mem_iff_getElem?.1 here
    have := replay_eq_item.1 (delivered j msg at')
    exact List.mem_map_of_mem (List.mem_of_getElem? this)
  · intro covered
    obtain ⟨ms, image⟩ := d.image (M := M)
    have shortest : ∀ m < d.records.length,
        ¬ offsets.Covers ((d.records.take m).map BorrowedMessage.position) := by
      intro m short all
      obtain none | ⟨init, msg, records⟩ := List.eq_nil_or_concat' d.records
      · simp [none] at short
      · -- the bound of the last message's partition is open until it is read
        obtain ⟨p, listed, same, low, top, below⟩ := d.last records
        have := p.nonneg
        obtain ⟨x, seen, at', reached⟩ := all p.id _ ((bound p.id _).2 ⟨p, listed, rfl, by omega, rfl⟩)
        obtain ⟨other, here, rfl⟩ := List.mem_map.1 seen
        rw [records, List.length_append, List.length_singleton] at short
        rw [records, List.take_append_of_le_length (by omega)] at here
        have := below other (List.mem_of_mem_take here) (at'.trans same)
        simp only [BorrowedMessage.position] at reached
        omega
    have done : KafkaSnapshot.read (replay d.records) d.records.length 0 offsets [] = some (.ok ([] ++ ms)) :=
      KafkaSnapshot.read_of_covers delivers_replay image covered shortest
    exact ⟨d.records.length, ms, (get_eq _).trans done, image⟩

/-- A partition that retains all its messages, one that was trimmed, and one that was never written to. -/
def uneven : TopicLog where
  partitions := [⟨0, 0, 2, by decide, by decide⟩, ⟨1, 3, 4, by decide, by decide⟩, ⟨2, 0, 0, by decide, by decide⟩]
  distinct := by decide

def unevenDelivery : Delivery uneven where
  records := [⟨0, 0, none, some ⟨#[97]⟩⟩, ⟨1, 3, none, some ⟨#[98]⟩⟩, ⟨0, 1, none, some ⟨#[99]⟩⟩]
  retained := by decide
  only := by decide
  payload := by decide

namespace Concrete

scoped instance : Debug KafkaError := ⟨fun _ => "KafkaError"⟩

end Concrete

open Concrete in
theorem get_complete_iff_uneven : ∃ fuel, ∃ data : List ByteMessage,
    KafkaSnapshot.get (.ok unevenDelivery.consumer) fuel = some (.ok data) ∧ Image unevenDelivery.records data :=
  (get_complete_iff uneven unevenDelivery).2 (by decide)

/-- A topic whose only partition held five messages that have all expired. -/
theorem expired_topic_times_out : ¬ ∀ (_ : Debug KafkaError) (log : TopicLog) (d : Delivery log),
    ∃ fuel, ∃ data : List ByteMessage, KafkaSnapshot.get (.ok d.consumer) fuel = some (.ok data) ∧
      Image d.records data := by
  intro all
  let debug : Debug KafkaError := ⟨fun _ => "KafkaError"⟩
  let expired : TopicLog := ⟨[⟨0, 5, 5, by decide, by decide⟩], by decide⟩
  let nothing : Delivery expired := ⟨[], by decide, by simp, by simp⟩
  obtain ⟨fuel, data, done, -⟩ := all debug expired nothing
  cases fuel with
  | zero => cases done
  | succ fuel => cases done

end PubSub.Kafka
