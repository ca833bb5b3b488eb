import PubSub.Redis.Stream

/-!
# Message types for the Redis Stream backend

`StreamMessage` turns a message into the field/value pairs of an entry: a single `data` field by
default, one field for each member of a `MapMessage`. A hash map is a table, whose entries come in
the order in which the map happens to iterate; two maps are equal when they have the same entries
in any order.
-/

namespace PubSub.Redis
set_option autoImplicit false
open Base

/-- A message backed by a map of string field/value pairs. -/
structure MapMessage where
  key : Option String
  fields : Table String String

/-- `PartialEq` of hash maps is about their entries only. -/
def MapMessage.Same (m m' : MapMessage) : Prop := m.key = m'.key ∧ ∀ k, m.fields.lookup k = m'.fields.lookup k

theorem MapMessage.Same.refl (m : MapMessage) : m.Same m := ⟨rfl, fun _ => rfl⟩

section Codec

variable [SerdeJsonMap]

/-- Bytes that are not a JSON object of strings become the single field `data`. -/
def parseFields (bytes : Bytes) : Table String String :=
  match SerdeJsonMap.fromSlice bytes with
  | .ok fields => fields
  | .error _ => AList.insert "data" (fromUtf8Lossy bytes) ∅

/-- The serialization of the fields, which never fails. -/
def MapMessage.json (m : MapMessage) : Bytes :=
  match written : SerdeJsonMap.toVec m.fields with
  | .ok json => json
  | .error _ => absurd (SerdeJsonMap.serializable m.fields) (by simp [written])

instance : Message MapMessage where
  ofByteMessage bytes := ⟨bytes.key.map fromUtf8Lossy, parseFields bytes.value⟩
  fromBytes key value := ⟨key.map fromUtf8Lossy, parseFields value⟩
  intoBytes m := ⟨m.key.map String.toUTF8, m.json⟩

theorem MapMessage.toVec_fields (m : MapMessage) : SerdeJsonMap.toVec m.fields = .ok m.json := by
  unfold MapMessage.json
  split
  · assumption
  · rename_i e failed
    obtain ⟨bytes, written⟩ := SerdeJsonMap.serializable m.fields
    rw [failed] at written
    cases written

end Codec

/-- Messages that know their field/value pairs; by default the payload is the field `data`. -/
class StreamMessage (M : Type) [Message M] where
  intoStreamFields : M → Fields := fun m => [("data", (Message.intoBytes m).value)]

instance : StreamMessage ByteMessage where

instance : StreamMessage StringMessage where

instance [SerdeJsonMap] : StreamMessage MapMessage where
  intoStreamFields m := m.fields.entries.map fun f => (f.1, f.2.toUTF8)

/-- One call of `publish_stream`, with the id the server assigns and how much it trims. -/
structure PublishStream (I M : Type) where
  message : M
  id : I
  trim : Nat

section Publishing

variable {I M : Type} [LinearOrder I] [Message M] [StreamMessage M]

/-- `XADD topic MAXLEN ~ n * field value ...`; the server takes increasing ids and entries with at least
one field. -/
def publishStream (topic : Topic I) (p : PublishStream I M) : Option (Topic I) :=
  let fields := StreamMessage.intoStreamFields p.message
  if fields = [] then none
  else if newer : topic.lastId < p.id then some ((topic.append p.id fields newer).trim p.trim)
  else none

/-- An entry as the client library hands it out: its map holds exactly the pairs written, as bulk
strings. -/
structure StreamId.Carries (e : I × Fields) (entry : StreamId I) : Prop where
  id : entry.id = e.1
  map : ∀ k v, entry.map.lookup k = some v ↔ ∃ bytes, v = .BulkString bytes ∧ (k, bytes) ∈ e.2

omit [LinearOrder I] in
/-- Distinct fields are carried. -/
theorem StreamId.carries_ofEntry {e : I × Fields} (distinct : (e.2.map Prod.fst).Nodup) :
    StreamId.Carries e (.ofEntry e) := by
  refine ⟨rfl, fun k v => ?_⟩
  have pairs : (StreamId.ofEntry e).map = Table.ofPairs (e.2.map fun f => (f.1, Value.BulkString f.2)) := by
    rw [Table.ofPairs, List.foldl_map]
    rfl
  rw [pairs, Table.lookup_ofPairs]
  · simp only [List.mem_map, Prod.mk.injEq]
    constructor
    · rintro ⟨⟨k, bytes⟩, here, rfl, rfl⟩
      exact ⟨bytes, rfl, here⟩
    · rintro ⟨bytes, rfl, here⟩
      exact ⟨(k, bytes), here, rfl, rfl⟩
  · rw [List.map_map]
    exact distinct

end Publishing

end PubSub.Redis
