import Mathlib.Data.List.Basic

/-!
# Messages

The byte-oriented backbone every backend moves messages through. `ByteMessage` and
`StringMessage` are the crate's two core message types; the `Message` class carries the three
conversions the backends use: from a decoded `ByteMessage`, from raw transport bytes, and back
to bytes. The owning and borrowing accessors of the trait only project fields and are left out.
-/

namespace PubSub
set_option autoImplicit false

abbrev Bytes := ByteArray

instance : DecidableEq Bytes := ByteArray.instDecidableEq

instance : LawfulBEq Bytes where
  rfl {a} := beq_self_eq_true a.data
  eq_of_beq {a b} same := ByteArray.ext (eq_of_beq (show (a.data == b.data) = true from same))

/-- The number of bytes of the UTF-8 sequence that `b` starts, 0 if it starts none. -/
def utf8CharWidth (b : UInt8) : Nat :=
  if b < 0x80 then 1
  else if b < 0xC2 then 0
  else if b < 0xE0 then 2
  else if b < 0xF0 then 3
  else if b < 0xF5 then 4
  else 0

def isContinuation (b : UInt8) : Bool := b &&& 0xC0 == 0x80

/-- The second byte of a three- or four-byte sequence is narrowed for some first bytes: no
overlong forms, no surrogates, nothing above U+10FFFF. -/
def isSecondByte (first second : UInt8) : Bool :=
  isContinuation second &&
    if first == 0xE0 then 0xA0 ≤ second
    else if first == 0xED then second ≤ 0x9F
    else if first == 0xF0 then 0x90 ≤ second
    else if first == 0xF4 then second ≤ 0x8F
    else true

/-- The six payload bits of a continuation byte. -/
def low6 (b : UInt8) : Nat := (b &&& 0x3F).toNat

def replacementChar : Char := '\uFFFD'

/-- One step of lossy decoding: a whole sequence gives its character; the longest prefix of one
that is cut short or wrong gives a single replacement character. -/
def lossyChar (first : UInt8) (rest : List UInt8) : Char × List UInt8 :=
  match utf8CharWidth first, rest with
  | 1, _ => (Char.ofNat first.toNat, rest)
  | 2, b :: rest' =>
    if isContinuation b then
      (Char.ofNat ((first &&& 0x1F).toNat * 64 + low6 b), rest')
    else (replacementChar, rest)
  | 3, b :: rest' =>
    if isSecondByte first b then
      match rest' with
      | c :: rest'' =>
        if isContinuation c then
          (Char.ofNat (((first &&& 0x0F).toNat * 64 + low6 b) * 64 + low6 c), rest'')
        else (replacementChar, rest')
      | [] => (replacementChar, rest')
    else (replacementChar, rest)
  | 4, b :: rest' =>
    if isSecondByte first b then
      match rest' with
      | c :: rest'' =>
        if isContinuation c then
          match rest'' with
          | d :: rest''' =>
            if isContinuation d then
              (Char.ofNat ((((first &&& 0x07).toNat * 64 + low6 b) * 64 + low6 c) * 64 + low6 d),
                rest''')
            else (replacementChar, rest'')
          | [] => (replacementChar, rest'')
        else (replacementChar, rest')
      | [] => (replacementChar, rest')
    else (replacementChar, rest)
  | _, _ => (replacementChar, rest)

/-- Lossy decoding of at most `n` sequences. -/
def lossyChars : Nat → List UInt8 → List Char
  | 0, _ => []
  | _, [] => []
  | n + 1, b :: bs => (lossyChar b bs).1 :: lossyChars n (lossyChar b bs).2

/-- `String::from_utf8_lossy`. Every step consumes at least one byte. -/
def fromUtf8Lossy (bytes : Bytes) : String :=
  String.ofList (lossyChars bytes.size bytes.data.toList)

/-- Already-serialized key and value bytes. -/
structure ByteMessage where
  key : Option Bytes
  value : Bytes
  deriving DecidableEq

/-- UTF-8-oriented strings. -/
structure StringMessage where
  key : Option String
  value : String
  deriving DecidableEq

/-- The conversions of the `Message` trait and its supertrait `From<ByteMessage>`. -/
class Message (M : Type) where
  ofByteMessage : ByteMessage → M
  fromBytes : Option Bytes → Bytes → M
  intoBytes : M → ByteMessage

/-- A payload without a key. -/
def ByteMessage.fromValue (value : Bytes) : ByteMessage := ⟨none, value⟩

instance : Message ByteMessage where
  ofByteMessage bytes := bytes
  fromBytes key value := ⟨key, value⟩
  intoBytes message := message

instance : Message StringMessage where
  ofByteMessage bytes := ⟨bytes.key.map fromUtf8Lossy, fromUtf8Lossy bytes.value⟩
  fromBytes key value := ⟨key.map fromUtf8Lossy, fromUtf8Lossy value⟩
  intoBytes message := ⟨message.key.map String.toUTF8, message.value.toUTF8⟩

/-- Invalid UTF-8 is decoded with replacement characters, one for each maximal bad stretch. -/
example : (Message.fromBytes (some ⟨#[0x66, 0x6f, 0x80]⟩) ⟨#[0xE2, 0x82, 0x76]⟩ : StringMessage) =
    ⟨some "fo\uFFFD", "\uFFFDv"⟩ := by decide

/-- Durations are numbers of nanoseconds. -/
def fromSecs (n : Nat) : Nat := n * 1000000000

/-- The `Debug` text of a value. -/
class Debug (α : Type) where
  text : α → String

/-- An error of a pub/sub operation, with the `Debug` text of its cause if one was captured. -/
structure PubSubError where
  cause : Option String
  deriving DecidableEq

instance : Inhabited PubSubError := ⟨⟨none⟩⟩

def PubSubError.fromDebug {E : Type} [Debug E] (err : E) : PubSubError := ⟨some (Debug.text err)⟩

end PubSub
