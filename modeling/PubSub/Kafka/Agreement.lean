import Mathlib.Data.List.Infix
import PubSub.Base.Listener
import PubSub.Codec
import PubSub.Kafka.Runtime

/-!
# Snapshot and subscriber on the same records

The snapshot and the streaming runtime each convert a record on their own. A record without a
payload fails the snapshot as a whole, while the runtime warns about it and goes on; on all others
the two agree.
-/

namespace PubSub.Kafka
set_option autoImplicit false
open Base Redis

/-- What a monitored stream yields in an iteration. -/
def Round.items : Round → List (Except KafkaError BorrowedMessage)
  | .monitored items _ => items
  | .creationFailed _ | .subscriptionFailed _ => []

/-- What the broker delivers to a runtime. -/
def Runtime.delivered (rounds : List Round) : List (Except KafkaError BorrowedMessage) :=
  (executed Round.stops rounds).flatMap Round.items

/-- What the runtime makes of an item. -/
def Runtime.accepted : Except KafkaError BorrowedMessage → Option ByteMessage
  | .ok msg => Runtime.convertToMessage msg
  | .error _ => none

/-- A listener that never lags, and has read to the end. -/
structure KeepsUp (retained : Nat) (signals : List (Signal ByteMessage)) : Prop where
  close : ∀ early late, signals = early ++ late → (Listener.listen retained early).behind ≤ retained
  done : (Listener.listen retained signals).behind = 0

/-- The same records reach a snapshot, whose last bound is struck out by the last of them, and a
runtime, without errors. -/
structure SameRecords (consumer : StreamConsumer) (rounds : List Round) (records : List BorrowedMessage) :
    Prop where
  subscribed : consumer.subscribe = .ok ()
  bounded : ∃ offsets, KafkaSnapshot.determineMaxOffsets consumer = .ok offsets ∧
    offsets.Covers (records.map BorrowedMessage.position) ∧
    ∀ m < records.length, ¬ offsets.Covers ((records.take m).map BorrowedMessage.position)
  polled : Delivers consumer.poll 0 records
  monitored : Runtime.delivered rounds = records.map .ok

namespace Runtime

variable [Debug KafkaError] [Debug BorrowedMessage]

theorem sends_handle (streamOutage : OutageState Nat) (item : Except KafkaError BorrowedMessage) :
    sends (handle streamOutage item).1 = (accepted item).toList := by
  cases item with
  | error e => exact sends_recordError
  | ok msg =>
    simp only [handle, sends_append, sends_recovered, List.nil_append, accepted]
    cases convertToMessage msg <;> rfl

theorem sends_monitorStream (items : List (Except KafkaError BorrowedMessage)) :
    sends (monitorStream items) = items.filterMap accepted := by
  have walk : ∀ (items : List (Except KafkaError BorrowedMessage)) (s : List Event × OutageState Nat),
      sends (items.foldl (fun (s : List Event × OutageState Nat) item =>
        (s.1 ++ (handle s.2 item).1, (handle s.2 item).2)) s).1 = sends s.1 ++ items.filterMap accepted := by
    intro items
    induction items with
    | nil => exact fun s => (List.append_nil _).symm
    | cons item items ih =>
      intro s
      rw [List.foldl_cons, ih, sends_append, sends_handle, List.append_assoc, List.filterMap_cons]
      cases accepted item <;> rfl
  exact walk items _

theorem sends_round (host : String) (outage : OutageState Nat) (r : Round) :
    sends (round host outage r).1 = r.items.filterMap accepted := by
  have attempt : ∀ t, sends (.attempt :: t) = sends t := fun _ => rfl
  cases r with
  | creationFailed e => exact (attempt _).trans sends_onError
  | subscriptionFailed e => exact (attempt _).trans sends_onError
  | monitored items finish =>
    simp only [round, List.cons_append, attempt, sends_append, sends_recovered, List.nil_append]
    exact sends_monitorStream items

/-- A runtime sends what it accepts of what is delivered to it. -/
theorem sends_startStream (host : String) (rounds : List Round) :
    sends (startStream host rounds).flatten = (delivered rounds).filterMap accepted := by
  have walk : ∀ (rounds : List Round) (outage : OutageState Nat),
      sends (iterate (round host) Round.stops outage rounds).flatten = (delivered rounds).filterMap accepted := by
    intro rounds
    induction rounds with
    | nil => exact fun _ => rfl
    | cons r rounds ih =>
      intro outage
      rw [iterate, List.flatten_cons, sends_append, sends_round, delivered, executed, List.flatMap_cons,
        List.filterMap_append]
      congr 1
      split
      · rfl
      · exact ih _
  exact walk rounds default

end Runtime

theorem KeepsUp.received {retained : Nat} {signals : List (Signal ByteMessage)} (up : KeepsUp retained signals) :
    (Listener.listen retained signals).received = messages signals := by
  rw [Listener.received_of_behind_le up.close, ← Listener.sent_listen retained signals]
  have done := up.done
  unfold Listener.behind at done
  exact List.take_of_length_le (by omega)

section Records

variable [SerdeJsonMap]

/-- The two decoders of a built-in message agree. -/
theorem BuiltIn.decoders_agree (b : BuiltIn) (key : Option Bytes) (value : Bytes) :
    b.Same (Message.fromBytes key value) (Message.ofByteMessage (Message.fromBytes key value : ByteMessage)) := by
  cases b with
  | byteMessage => rfl
  | stringMessage => rfl
  | mapMessage => exact MapMessage.Same.refl _

/-- Records that convert one and all are the same messages to both. -/
theorem same_of_image (b : BuiltIn) {records : List BorrowedMessage} {data : List b.Carrier}
    (image : Image records data) :
    List.Forall₂ b.Same data ((records.filterMap Runtime.convertToMessage).map Message.ofByteMessage) := by
  induction image with
  | nil => exact .nil
  | @cons msg m records data first _ ih =>
    unfold convertToMessage at first
    split at first
    · cases first
    · rename_i value payload
      cases first
      have converted : Runtime.convertToMessage msg = some (Message.fromBytes msg.key value) := by
        rw [Runtime.convertToMessage, payload]
        rfl
      rw [List.filterMap_cons_some converted, List.map_cons]
      exact .cons (BuiltIn.decoders_agree b msg.key value) ih

variable [Debug KafkaError] [Debug BorrowedMessage]

/-- The snapshot succeeds with the messages that a listener of the runtime receives. -/
def Agree (b : BuiltIn) (consumer : StreamConsumer) (host : String) (rounds : List Round) : Prop :=
  ∃ fuel, ∃ data : List b.Carrier, KafkaSnapshot.get (.ok consumer) fuel = some (.ok data) ∧
    ∀ retained signals, KeepsUp retained signals →
      messages signals = sends (Runtime.startStream host rounds).flatten →
      List.Forall₂ b.Same data ((Listener.listen retained signals).received.map Message.ofByteMessage)

/-- **The snapshot and the subscriber agree** on the records that reach both, exactly if every record
has a payload. -/
theorem agree_iff (b : BuiltIn) (host : String) {consumer : StreamConsumer} {rounds : List Round}
    {records : List BorrowedMessage} (same : SameRecords consumer rounds records) :
    Agree b consumer host rounds ↔ ∀ msg ∈ records, msg.payload.isSome := by
  obtain ⟨offsets, bounds, covered, shortest⟩ := same.bounded
  constructor
  · rintro ⟨fuel, data, done, -⟩
    obtain ⟨read, delivered, ⟨ms, image, -⟩, covered', -⟩ :=
      KafkaSnapshot.covers_of_read (KafkaSnapshot.read_of_get bounds done)
    have le : records.length ≤ read.length := by
      by_contra short
      have shorter : read.length < records.length := Nat.lt_of_not_le short
      refine shortest read.length shorter ?_
      rw [delivered.take_eq same.polled (Nat.le_of_lt shorter)]
      exact covered'
    intro msg here
    rw [← same.polled.take_eq delivered le] at here
    exact (exists_image_iff (M := b.Carrier)).1 ⟨ms, image⟩ msg (List.mem_of_mem_take here)
  · intro whole
    obtain ⟨data, image⟩ := (exists_image_iff (M := b.Carrier)).2 whole
    refine ⟨records.length, data, ?_, fun retained signals up sent => ?_⟩
    · rw [KafkaSnapshot.get_eq_read same.subscribed bounds]
      exact KafkaSnapshot.read_of_covers same.polled image covered shortest
    · have accepted : (Runtime.delivered rounds).filterMap Runtime.accepted =
          records.filterMap Runtime.convertToMessage := by
        rw [same.monitored, List.filterMap_map]
        rfl
      rw [up.received, sent, Runtime.sends_startStream, accepted]
      exact same_of_image b image

end Records

/-- A record, and a later one under the same key. -/
def twoRecords (payload : Option Bytes) : List BorrowedMessage :=
  [⟨0, 0, some ⟨#[107]⟩, some ⟨#[97]⟩⟩, ⟨0, 1, some ⟨#[107]⟩, payload⟩]

def twoRecordsConsumer (payload : Option Bytes) : StreamConsumer where
  subscribe := .ok ()
  metadata := .ok [[0]]
  watermarks _ := .ok (0, 2)
  poll := replay (twoRecords payload)

theorem sameRecords_twoRecords (payload : Option Bytes) : SameRecords (twoRecordsConsumer payload)
    [.monitored ((twoRecords payload).map .ok) .cancelled] (twoRecords payload) where
  subscribed := rfl
  bounded := by
    refine ⟨_, rfl, Bounds.isEmpty_observeAll_iff.1 rfl, fun m short covers => ?_⟩
    have empty := Bounds.isEmpty_observeAll_iff.2 covers
    match m, short with
    | 0, _ => cases empty
    | 1, _ => cases empty
  polled := delivers_replay
  monitored := List.append_nil _

/-- A listener that reads each message as it comes. -/
def promptly : List (Signal ByteMessage) :=
  [.sent ⟨some ⟨#[107]⟩, ⟨#[97]⟩⟩, .read, .sent ⟨some ⟨#[107]⟩, ⟨#[98]⟩⟩, .read]

theorem keepsUp_promptly : KeepsUp 100 promptly where
  close early late split := by
    have all : ∀ early ∈ promptly.inits, (Listener.listen 100 early).behind ≤ 100 := by decide
    exact all early ((List.mem_inits _ _).2 ⟨late, split.symm⟩)
  done := by decide

open Reference in
theorem agree_twoRecords : KeepsUp 100 promptly ∧
    messages promptly = sends (@Runtime.startStream ⟨fun _ => ""⟩ ⟨fun _ => ""⟩ "localhost:9092"
      [.monitored ((twoRecords (some ⟨#[98]⟩)).map .ok) .cancelled]).flatten ∧
    @Agree _ ⟨fun _ => ""⟩ ⟨fun _ => ""⟩ .stringMessage (twoRecordsConsumer (some ⟨#[98]⟩)) "localhost:9092"
      [.monitored ((twoRecords (some ⟨#[98]⟩)).map .ok) .cancelled] := by
  let _ : Debug KafkaError := ⟨fun _ => ""⟩
  let _ : Debug BorrowedMessage := ⟨fun _ => ""⟩
  exact ⟨keepsUp_promptly, rfl,
    (agree_iff .stringMessage "localhost:9092" (sameRecords_twoRecords (some ⟨#[98]⟩))).2 (by decide)⟩

/-- The later record is a tombstone: the snapshot fails, and the earlier message is lost with it. -/
theorem tombstone_disagrees : ¬ ∀ (_ : SerdeJsonMap) (_ : Debug KafkaError) (_ : Debug BorrowedMessage)
    (consumer : StreamConsumer) (host : String) (rounds : List Round) (records : List BorrowedMessage),
    SameRecords consumer rounds records → Agree .byteMessage consumer host rounds := by
  intro always
  have agree := always Reference.instSerdeJsonMap ⟨fun _ => ""⟩ ⟨fun _ => ""⟩ _ "localhost:9092" _ _
    (sameRecords_twoRecords none)
  obtain ⟨fuel, data, done, -⟩ := agree
  cases fuel with
  | zero => cases done
  | succ fuel =>
    cases fuel with
    | zero => cases done
    | succ fuel => cases done

end PubSub.Kafka
