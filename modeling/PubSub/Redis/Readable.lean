import PubSub.Redis.StreamRuntime

/-!
# What `publish` writes can be read, if it is text

An entry written by `publish` has the single field `data` with the bytes of the message. The
snapshot and the subscriber both turn it into a JSON object of strings, which takes a payload that
is valid UTF-8. One payload that is not fails the whole snapshot; the subscriber skips it.
-/

namespace PubSub.Redis
set_option autoImplicit false
open Base

section Readable

variable [RedisClient] [SerdeJson] [Debug ParsingError] {I : Type}

/-- The message is the object `{"data": payload}`, and the payload can be recovered from it. -/
structure Readable (payload : Bytes) (message : ByteMessage) : Prop where
  key : message.key = none
  object : ∃ text : String, text.toUTF8 = payload ∧
    SerdeJson.fromSlice message.value = .ok (stringObject [("data", text)])

variable {payload : Bytes} {entry : StreamId I}

/-- A payload that is text becomes a readable message. -/
theorem convert_text (strings : RedisClient.Strings) (faithful : SerdeJson.Faithful)
    (holds : StreamId.Holds payload entry) {text : String} (encoded : text.toUTF8 = payload) :
    ∃ message, streamEntryToByteMessage entry = .ok message ∧ Readable payload message := by
  obtain ⟨bytes, written, read⟩ := faithful.strings [("data", text)] (List.pairwise_singleton _ _)
  have bulk := (strings.bulk payload text).2 encoded
  have normal : redisValueToJsonValue (.Map [(.SimpleString "data", .BulkString payload)]) =
      .ok (stringObject [("data", text)]) := by
    simp [redisValueToJsonValue, redisMapToJsonValue, redisEntryToJsonValue, strings.simple, bulk,
      insertMember, stringObject]
  refine ⟨.fromValue bytes, ?_, rfl, text, encoded, read⟩
  rw [streamEntryToByteMessage, holds.value, redisValueToByteMessage, redisValueToJsonBytes, normal]
  simp only [jsonValueToBytes, written]

/-- Only a payload that is text is converted at all. -/
theorem text_of_convert (strings : RedisClient.Strings) (holds : StreamId.Holds payload entry)
    {message : ByteMessage} (converted : streamEntryToByteMessage entry = .ok message) :
    ∃ text : String, text.toUTF8 = payload := by
  cases bulk : RedisClient.fromRedisValueRef (.BulkString payload) with
  | ok text => exact ⟨text, (strings.bulk payload text).1 bulk⟩
  | error e =>
    rw [streamEntryToByteMessage, holds.value] at converted
    simp [redisValueToByteMessage, redisValueToJsonBytes, redisValueToJsonValue, redisMapToJsonValue,
      redisEntryToJsonValue, strings.simple, bulk] at converted

theorem readable_of_convert (strings : RedisClient.Strings) (faithful : SerdeJson.Faithful)
    (holds : StreamId.Holds payload entry) {message : ByteMessage}
    (converted : streamEntryToByteMessage entry = .ok message) : Readable payload message := by
  obtain ⟨text, encoded⟩ := text_of_convert strings holds converted
  obtain ⟨message', converted', readable⟩ := convert_text strings faithful holds encoded
  rw [Except.ok.inj (converted.symm.trans converted')]
  exact readable

variable {payloads : List Bytes} {ids : List (StreamId I)} {vals : List ByteMessage}

/-- Published entries convert one and all exactly when all of them are text. -/
theorem converts_published_iff (strings : RedisClient.Strings) (faithful : SerdeJson.Faithful)
    (held : List.Forall₂ StreamId.Holds payloads ids) :
    (∃ vals, List.Forall₂ (fun entry val => streamEntryToByteMessage entry = .ok val) ids vals) ↔
      ∀ payload ∈ payloads, payload.IsValidUTF8 := by
  induction held with
  | nil => simp
  | @cons payload entry payloads ids holds _ ih =>
    rw [List.forall_mem_cons, ← ih]
    constructor
    · rintro ⟨vals, converted⟩
      obtain ⟨val, vals, first, rest, rfl⟩ := List.forall₂_cons_left_iff.1 converted
      obtain ⟨text, rfl⟩ := text_of_convert strings holds first
      exact ⟨text.isValidUTF8, vals, rest⟩
    · rintro ⟨valid, vals, rest⟩
      have encoded : (String.ofByteArray payload valid).toUTF8 = payload := rfl
      obtain ⟨val, first, -⟩ := convert_text strings faithful holds encoded
      exact ⟨val :: vals, .cons first rest⟩

theorem readable_of_converts (strings : RedisClient.Strings) (faithful : SerdeJson.Faithful)
    (held : List.Forall₂ StreamId.Holds payloads ids)
    (converted : List.Forall₂ (fun entry val => streamEntryToByteMessage entry = .ok val) ids vals) :
    List.Forall₂ Readable payloads vals := by
  induction held generalizing vals with
  | nil =>
    cases converted
    exact .nil
  | cons holds _ ih =>
    obtain ⟨val, vals, first, rest, rfl⟩ := List.forall₂_cons_left_iff.1 converted
    exact .cons (readable_of_convert strings faithful holds first) (ih rest)

/-- The subscriber sends what the snapshot returns. -/
theorem forward_of_converts [Debug (StreamId I)]
    (converted : List.Forall₂ (fun entry val => streamEntryToByteMessage entry = .ok val) ids vals) :
    ids.map forward = vals.map .send := by
  induction converted with
  | nil => rfl
  | cons first _ ih => rw [List.map_cons, List.map_cons, ih, forward, first]

/-- **What `publish` writes can be read exactly when it is text.** -/
theorem publish_readable_iff [LinearOrder I] [Debug (StreamId I)] (strings : RedisClient.Strings)
    (faithful : SerdeJson.Faithful) {topic : Topic I} {ps : List (Publish I)}
    (published : publishAll .empty ps = some topic) :
    (∃ msgs : List ByteMessage, RedisSnapshot.get (.ok (xrangeAll topic)) = .ok msgs ∧
        List.Forall₂ Readable (retainedPayloads topic ps) msgs ∧
        (xrangeAll topic).map forward = msgs.map .send) ↔
      ∀ payload ∈ retainedPayloads topic ps, payload.IsValidUTF8 := by
  have held := xrangeAll_publishAll published
  rw [← converts_published_iff strings faithful held]
  constructor
  · rintro ⟨msgs, read, -, -⟩
    obtain ⟨vals, converted, -⟩ := RedisSnapshot.get_eq_ok_iff.1 read
    exact ⟨vals, converted⟩
  · rintro ⟨vals, converted⟩
    refine ⟨vals, RedisSnapshot.get_eq_ok_iff.2 ⟨vals, converted, ?_⟩, ?_, forward_of_converts converted⟩
    · exact (List.map_id vals).symm
    · exact readable_of_converts strings faithful held converted

end Readable

/-- Three messages; writing the last one trims the first. -/
def texts : List (Publish Nat) :=
  [⟨⟨StringMessage, inferInstance, ⟨none, "old"⟩⟩, 1, 0⟩, ⟨⟨StringMessage, inferInstance, ⟨none, "a\"b\n"⟩⟩, 2, 0⟩,
    ⟨⟨ByteMessage, inferInstance, ⟨none, ⟨#[0x63]⟩⟩⟩, 3, 1⟩]

def textsTopic : Topic Nat := (publishAll .empty texts).get (by decide)

open Reference in
theorem publish_readable_texts : ∃ msgs : List ByteMessage,
    RedisSnapshot.get (.ok (xrangeAll textsTopic)) = .ok msgs ∧
      List.Forall₂ Readable ["a\"b\n".toUTF8, ⟨#[0x63]⟩] msgs ∧ (xrangeAll textsTopic).map forward = msgs.map .send :=
  (publish_readable_iff strings faithful (Option.some_get _).symm).2 (by decide)

/-- A message whose payload is no text, between two whose payloads are. -/
def mixed : List (Publish Nat) :=
  [⟨⟨StringMessage, inferInstance, ⟨none, "a"⟩⟩, 1, 0⟩, ⟨⟨ByteMessage, inferInstance, ⟨none, ⟨#[0xFF]⟩⟩⟩, 2, 0⟩,
    ⟨⟨StringMessage, inferInstance, ⟨none, "c"⟩⟩, 3, 0⟩]

def mixedTopic : Topic Nat := (publishAll .empty mixed).get (by decide)

open Reference in
theorem mixed_unreadable : ¬ ∃ msgs : List ByteMessage,
    RedisSnapshot.get (.ok (xrangeAll mixedTopic)) = .ok msgs ∧
      List.Forall₂ Readable (retainedPayloads mixedTopic mixed) msgs ∧
      (xrangeAll mixedTopic).map forward = msgs.map .send := by
  rintro ⟨msgs, read, -, -⟩
  obtain ⟨vals, converted, -⟩ := RedisSnapshot.get_eq_ok_iff.1 read
  have published : publishAll .empty mixed = some mixedTopic := (Option.some_get _).symm
  have valid := (converts_published_iff strings faithful (xrangeAll_publishAll published)).1 ⟨vals, converted⟩
  exact absurd valid (by decide)

end PubSub.Redis
