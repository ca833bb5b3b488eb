import PubSub.Redis.Normalisation
import PubSub.Redis.Reference
import PubSub.Redis.Session
import PubSub.Redis.StreamMessage

/-!
# What `publish_stream` writes is read back as a map

A map goes through five representations: its pairs of bytes, the fields of an entry, the map of a
reply value, a JSON object in key order, and the map that is read from it. The keys stay distinct
all the way, so no insertion overwrites another and no order matters.
-/

namespace PubSub.Redis
set_option autoImplicit false
open Base

/-! ## From an entry to a map -/

/-- A map of bulk strings that are texts becomes the object of these texts. -/
theorem redisMapToJsonValue_texts [RedisClient] (strings : RedisClient.Strings)
    (texts members : List (String × String)) :
    redisMapToJsonValue (texts.map fun t => (.SimpleString t.1, .BulkString t.2.toUTF8))
      (members.map fun m => (m.1, .String m.2)) = .ok (stringObject (Members.insertAll texts members)) := by
  induction texts generalizing members with
  | nil => rfl
  | cons t texts ih =>
    have bulk := (strings.bulk t.2.toUTF8 t.2).2 rfl
    have first : redisEntryToJsonValue (.SimpleString t.1, .BulkString t.2.toUTF8) = .ok (t.1, .String t.2) := by
      simp only [redisEntryToJsonValue, redisValueToJsonValue, strings.simple, bulk]
    rw [List.map_cons, redisMapToJsonValue, first]
    dsimp only
    rw [insertMember_eq_insert, Members.insert_map, ih]
    rfl

section Reading

variable {I : Type} {e : I × Fields} {entry : StreamId I} {fields : Table String String}

/-- An entry that carries a map lists the map's members, as texts. -/
theorem texts_of_carries (carries : StreamId.Carries e entry)
    (written : e.2 = fields.entries.map fun f => (f.1, f.2.toUTF8)) :
    ∃ texts : List (String × String), (texts.map Prod.fst).Nodup ∧
      (∀ k v, (k, v) ∈ texts ↔ fields.lookup k = some v) ∧
      streamEntryToRedisValue entry = .Map (texts.map fun t => (.SimpleString t.1, .BulkString t.2.toUTF8)) := by
  have member : ∀ k v, entry.map.lookup k = some v ↔ ∃ text, v = .BulkString text.toUTF8 ∧
      fields.lookup k = some text := by
    intro k v
    rw [carries.map, written]
    simp only [List.mem_map, Prod.mk.injEq]
    constructor
    · rintro ⟨_, rfl, ⟨k, text⟩, here, rfl, rfl⟩
      exact ⟨text, rfl, Table.lookup_of_mem here⟩
    · rintro ⟨text, rfl, found⟩
      exact ⟨_, rfl, ⟨k, text⟩, Table.mem_of_lookup found, rfl, rfl⟩
  refine ⟨entry.map.entries.map fun x => (x.1, (fields.lookup x.1).getD ""), ?_, fun k v => ?_, ?_⟩
  · rw [List.map_map]
    exact entry.map.nodupKeys
  · rw [List.mem_map]
    constructor
    · rintro ⟨⟨k, value⟩, here, ⟨⟩⟩
      obtain ⟨text, -, found⟩ := (member k value).1 (Table.lookup_of_mem here)
      rw [found]
      rfl
    · intro found
      have there := (member k (.BulkString v.toUTF8)).2 ⟨v, rfl, found⟩
      exact ⟨_, Table.mem_of_lookup there, by rw [found]; rfl⟩
  · rw [streamEntryToRedisValue, List.map_map]
    congr 1
    apply List.map_congr_left
    rintro ⟨k, value⟩ here
    obtain ⟨text, rfl, found⟩ := (member k value).1 (Table.lookup_of_mem here)
    show _ = (Value.SimpleString k, Value.BulkString ((fields.lookup k).getD "").toUTF8)
    rw [found]
    rfl

variable [RedisClient] [SerdeJson] [SerdeJsonMap] [Debug ParsingError]

/-- An entry that carries a map converts to a message which decodes to this map, without a key. -/
theorem convert_map (strings : RedisClient.Strings) (faithful : SerdeJson.Faithful)
    (reads : SerdeJsonMap.ReadsObjects) (carries : StreamId.Carries e entry)
    (written : e.2 = fields.entries.map fun f => (f.1, f.2.toUTF8)) :
    ∃ message, streamEntryToByteMessage entry = .ok message ∧
      MapMessage.Same (Message.ofByteMessage message) ⟨none, fields⟩ := by
  obtain ⟨texts, distinct, listed, value⟩ := texts_of_carries carries written
  have sorted : Members.Sorted (Members.insertAll texts []) := Members.sorted_insertAll_nil
  obtain ⟨bytes, json, -⟩ := faithful.strings (Members.insertAll texts []) sorted
  obtain ⟨fields', read, found⟩ := reads (Members.insertAll texts []) sorted bytes json
  have normal : redisValueToJsonValue (streamEntryToRedisValue entry) =
      .ok (stringObject (Members.insertAll texts [])) := by
    rw [value, redisValueToJsonValue]
    exact redisMapToJsonValue_texts strings texts []
  refine ⟨.fromValue bytes, ?_, rfl, fun k => ?_⟩
  · rw [streamEntryToByteMessage, redisValueToByteMessage, redisValueToJsonBytes, normal]
    simp only [jsonValueToBytes, json]
  · show (parseFields bytes).lookup k = fields.lookup k
    rw [parseFields, read]
    apply Option.ext
    intro v
    exact (found k v).trans ((Members.mem_insertAll_of_distinct distinct).trans (listed k v))

end Reading

/-! ## Snapshots and subscribers -/

section RoundTrip

variable {I : Type} [RedisClient] [SerdeJson] [SerdeJsonMap] [Debug ParsingError] [Debug (StreamId I)]
  {ps : List (PublishStream I MapMessage)} {ids : List (StreamId I)}

variable [LinearOrder I]

end RoundTrip

end PubSub.Redis
