import PubSub.Redis.Reference
import PubSub.Redis.StreamMessage
import PubSub.Utf8

/-!
# The codecs of the built-in messages

Each built-in message type has one encoder and two decoders, one for the borrowed key and value of
a transport record and one for an owned `ByteMessage`. The decoders agree on all bytes, and both
invert the encoder.
-/

namespace PubSub
set_option autoImplicit false
open Redis

/-- The message types of the crate. -/
inductive BuiltIn where
  | byteMessage
  | stringMessage
  | mapMessage

namespace BuiltIn

def Carrier : BuiltIn → Type
  | byteMessage => ByteMessage
  | stringMessage => StringMessage
  | mapMessage => MapMessage

/-- `PartialEq` of the type. -/
def Same : (b : BuiltIn) → b.Carrier → b.Carrier → Prop
  | byteMessage => Eq
  | stringMessage => Eq
  | mapMessage => MapMessage.Same

theorem Same.refl : ∀ (b : BuiltIn) (m : b.Carrier), b.Same m m
  | byteMessage, _ => rfl
  | stringMessage, _ => rfl
  | mapMessage, m => MapMessage.Same.refl m

instance [SerdeJsonMap] : (b : BuiltIn) → Message b.Carrier
  | byteMessage => inferInstanceAs (Message ByteMessage)
  | stringMessage => inferInstanceAs (Message StringMessage)
  | mapMessage => inferInstanceAs (Message MapMessage)

end BuiltIn

/-- A codec that loses no message, and whose decoders agree. -/
structure Codec (M : Type) [Message M] (same : M → M → Prop) : Prop where
  ofByteMessage : ∀ m : M, same (Message.ofByteMessage (Message.intoBytes m)) m
  fromBytes : ∀ m : M, same (Message.fromBytes (Message.intoBytes m).key (Message.intoBytes m).value) m
  agree : ∀ key value, same (Message.fromBytes key value)
    (Message.ofByteMessage (Message.fromBytes key value : ByteMessage))
  again : ∀ bytes, same (Message.ofByteMessage (Message.intoBytes (Message.ofByteMessage bytes : M)))
    (Message.ofByteMessage bytes)

theorem byteMessage_codec : Codec ByteMessage Eq :=
  ⟨fun _ => rfl, fun _ => rfl, fun _ _ => rfl, fun _ => rfl⟩

/-- A key that was encoded is decoded again. -/
theorem map_fromUtf8Lossy_toUTF8 (key : Option String) : (key.map String.toUTF8).map fromUtf8Lossy = key := by
  rw [Option.map_map, show fromUtf8Lossy ∘ String.toUTF8 = id from funext fromUtf8Lossy_toUTF8, Option.map_id]
  rfl

theorem stringMessage_codec : Codec StringMessage Eq := by
  have decoded : ∀ m : StringMessage, Message.ofByteMessage (Message.intoBytes m) = m := by
    rintro ⟨key, value⟩
    show StringMessage.mk ((key.map String.toUTF8).map fromUtf8Lossy) (fromUtf8Lossy value.toUTF8) = _
    rw [map_fromUtf8Lossy_toUTF8, fromUtf8Lossy_toUTF8]
  exact ⟨decoded, decoded, fun _ _ => rfl, fun bytes => decoded _⟩

/-- A string message keeps the bytes it was decoded from exactly if they are valid UTF-8. -/
theorem stringMessage_intoBytes_iff (bytes : ByteMessage) :
    Message.intoBytes (Message.ofByteMessage bytes : StringMessage) = bytes ↔
      (∀ key ∈ bytes.key, key.IsValidUTF8) ∧ bytes.value.IsValidUTF8 := by
  obtain ⟨key, value⟩ := bytes
  show ByteMessage.mk ((key.map fromUtf8Lossy).map String.toUTF8) (fromUtf8Lossy value).toUTF8 = _ ↔ _
  rw [ByteMessage.mk.injEq, toUTF8_fromUtf8Lossy_iff]
  refine and_congr_left fun _ => ?_
  cases key with
  | none => simp
  | some key =>
    have one : (fromUtf8Lossy key).toUTF8 = key ↔ key.IsValidUTF8 := toUTF8_fromUtf8Lossy_iff
    simpa using one

section Maps

variable [SerdeJsonMap]

theorem mapMessage_codec (reads : SerdeJsonMap.ReadsMaps) : Codec MapMessage MapMessage.Same := by
  have decoded : ∀ m : MapMessage, MapMessage.Same (Message.ofByteMessage (Message.intoBytes m)) m := by
    intro m
    obtain ⟨fields, read, same⟩ := reads m.fields m.json m.toVec_fields
    refine ⟨map_fromUtf8Lossy_toUTF8 m.key, fun k => ?_⟩
    show (parseFields m.json).lookup k = _
    rw [parseFields, read]
    exact same k
  exact ⟨decoded, decoded, fun _ _ => .refl _, fun bytes => decoded _⟩

/-- **The codecs.** Every built-in message type has a codec that loses no message and whose decoders
agree on all bytes; through a string message bytes survive exactly if they are valid UTF-8. -/
theorem codecs (reads : SerdeJsonMap.ReadsMaps) : (∀ b : BuiltIn, Codec b.Carrier b.Same) ∧
    ∀ bytes : ByteMessage, Message.intoBytes (Message.ofByteMessage bytes : StringMessage) = bytes ↔
      (∀ key ∈ bytes.key, key.IsValidUTF8) ∧ bytes.value.IsValidUTF8 := by
  refine ⟨fun b => ?_, stringMessage_intoBytes_iff⟩
  cases b with
  | byteMessage => exact byteMessage_codec
  | stringMessage => exact stringMessage_codec
  | mapMessage => exact mapMessage_codec reads

end Maps

open Reference in
theorem codecs_reference : (∀ b : BuiltIn, Codec b.Carrier b.Same) ∧
    ∀ bytes : ByteMessage, Message.intoBytes (Message.ofByteMessage bytes : StringMessage) = bytes ↔
      (∀ key ∈ bytes.key, key.IsValidUTF8) ∧ bytes.value.IsValidUTF8 :=
  codecs readsMaps

end PubSub
