import Mathlib.Data.List.Forall2
import PubSub.Base.StreamLog
import PubSub.Base.Table
import PubSub.Redis.Value

/-!
# Redis Streams: publishing and snapshots

A topic is a log of entries with field/value pairs. The server chooses an id above all others for
a new entry and may trim old entries when it appends. Ids are the elements of a linear order `I`;
the code only passes them on.
-/

namespace PubSub.Redis
set_option autoImplicit false
open Base

/-- The fields of an entry, in the order they were written. -/
abbrev Fields := List (String × Bytes)

/-- An entry as the client library hands it out. -/
structure StreamId (I : Type) where
  id : I
  map : Table String Value

abbrev Topic (I : Type) [LinearOrder I] := StreamLog I Fields

/-- The client library reads field values as bulk strings of the bytes written. -/
def StreamId.ofEntry {I : Type} (e : I × Fields) : StreamId I where
  id := e.1
  map := e.2.foldl (fun map f => map.insert f.1 (.BulkString f.2)) ∅

variable {I : Type}

def streamEntryToRedisValue (entry : StreamId I) : Value :=
  .Map (entry.map.entries.map fun e => (.SimpleString e.1, e.2))

/-- A list is mapped without an error exactly when each element is, to the results in order. -/
theorem mapM_eq_ok_iff {α β ε : Type} {f : α → Except ε β} {as : List α} {bs : List β} :
    as.mapM f = .ok bs ↔ List.Forall₂ (fun a b => f a = .ok b) as bs := by
  induction as generalizing bs with
  | nil =>
    rw [List.mapM_nil, List.forall₂_nil_left_iff]
    exact ⟨fun same => (Except.ok.inj same).symm, fun same => congrArg Except.ok same.symm⟩
  | cons a as ih =>
    rw [List.mapM_cons, List.forall₂_cons_left_iff]
    constructor
    · intro mapped
      cases first : f a with
      | error e =>
        rw [first] at mapped
        cases mapped
      | ok b =>
        cases rest : as.mapM f with
        | error e =>
          rw [first, rest] at mapped
          cases mapped
        | ok bs' =>
          rw [first, rest] at mapped
          exact ⟨b, bs', rfl, ih.1 rest, (Except.ok.inj mapped).symm⟩
    · rintro ⟨b, bs', first, rest, rfl⟩
      rw [first, ih.2 rest]
      rfl

section Reading

variable [RedisClient] [SerdeJson] [Debug ParsingError]

def streamEntryToByteMessage (entry : StreamId I) : Except PubSubError ByteMessage :=
  match redisValueToByteMessage (streamEntryToRedisValue entry) with
  | .error e => .error (.fromDebug e)
  | .ok message => .ok message

/-- `RedisSnapshot::get`, from the entries that the range query returns or the error before. -/
def RedisSnapshot.get {M : Type} [Message M] (reply : Except PubSubError (List (StreamId I))) :
    Except PubSubError (List M) :=
  match reply with
  | .error e => .error e
  | .ok ids =>
    match ids.mapM streamEntryToByteMessage with
    | .error e => .error e
    | .ok vals => .ok (vals.map Message.ofByteMessage)

/-- A snapshot has one message for each entry, and needs every entry to convert. -/
theorem RedisSnapshot.get_eq_ok_iff {M : Type} [Message M] {ids : List (StreamId I)} {msgs : List M} :
    RedisSnapshot.get (.ok ids) = .ok msgs ↔ ∃ vals : List ByteMessage,
      List.Forall₂ (fun entry val => streamEntryToByteMessage entry = .ok val) ids vals ∧
        msgs = vals.map Message.ofByteMessage := by
  simp only [← mapM_eq_ok_iff, RedisSnapshot.get]
  cases ids.mapM streamEntryToByteMessage with
  | error e => simp
  | ok vals => simp [eq_comm]

end Reading

variable [LinearOrder I]

/-- The reply to `XRANGE topic - +`. -/
def xrangeAll (topic : Topic I) : List (StreamId I) := topic.retained.map StreamId.ofEntry

/-- A message of any type that implements `Message`. -/
structure AnyMessage where
  M : Type
  inst : Message M
  message : M

def AnyMessage.payload (m : AnyMessage) : Bytes := (m.inst.intoBytes m.message).value

/-- One call of `publish`, with the id the server assigns and how much it trims. -/
structure Publish (I : Type) where
  message : AnyMessage
  id : I
  trim : Nat

/-- `XADD topic MAXLEN ~ n * data <blob>`; the server takes increasing ids only. -/
def publish (topic : Topic I) (p : Publish I) : Option (Topic I) :=
  if newer : topic.lastId < p.id then
    some ((topic.append p.id [("data", p.message.payload)] newer).trim p.trim)
  else none

/-- A topic after a sequence of publishes. -/
def publishAll (topic : Topic I) (ps : List (Publish I)) : Option (Topic I) := ps.foldlM publish topic

/-- Every publish appends one entry with the single field `data`. -/
theorem appended_publishAll {topic topic' : Topic I} {ps : List (Publish I)}
    (published : publishAll topic ps = some topic') :
    topic'.appended = topic.appended ++ ps.map fun p => (p.id, [("data", p.message.payload)]) := by
  induction ps generalizing topic with
  | nil => cases published; simp
  | cons p ps ih =>
    obtain ⟨next, first, rest⟩ := Option.bind_eq_some_iff.1 published
    rw [ih rest]
    unfold publish at first
    split at first <;> cases first
    simp [StreamLog.append]

/-- The payloads that are still retained of what was published to an empty topic. -/
def retainedPayloads (topic : Topic I) (ps : List (Publish I)) : List Bytes :=
  (ps.map fun p => p.message.payload).drop topic.trimmed

/-- An entry that `publish` wrote for a payload, as it is handed out. -/
def StreamId.Holds (payload : Bytes) (entry : StreamId I) : Prop :=
  entry.map = AList.insert "data" (.BulkString payload) ∅

omit [LinearOrder I] in
theorem StreamId.Holds.value {payload : Bytes} {entry : StreamId I} (holds : StreamId.Holds payload entry) :
    streamEntryToRedisValue entry = .Map [(.SimpleString "data", .BulkString payload)] := by
  rw [streamEntryToRedisValue, holds]
  rfl

/-- The range query returns the entries of the retained payloads, in order. -/
theorem xrangeAll_publishAll {topic : Topic I} {ps : List (Publish I)}
    (published : publishAll .empty ps = some topic) :
    List.Forall₂ StreamId.Holds (retainedPayloads topic ps) (xrangeAll topic) := by
  rw [xrangeAll, StreamLog.retained, appended_publishAll published, retainedPayloads]
  rw [StreamLog.empty, List.nil_append, ← List.map_drop, ← List.map_drop, List.map_map,
    List.forall₂_map_left_iff, List.forall₂_map_right_iff, List.forall₂_same]
  intro p _
  rfl

end PubSub.Redis
