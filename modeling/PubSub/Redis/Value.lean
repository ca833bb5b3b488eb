import PubSub.Base.Table
import PubSub.Message

/-!
# Redis values and their normalisation to JSON

Redis maps become objects, sequences become arrays and everything else becomes the string that
the client library converts it to. The library's conversions to strings and the
JSON library are parameters (`RedisClient`, `SerdeJson`); what their documentation promises is
stated as `RedisClient.Strings` and `SerdeJson.Faithful`.
-/

namespace PubSub.Redis
set_option autoImplicit false
open Base

/-- A reply value of the client library; `Other` stands for the variants without a bearing here. -/
inductive Value where
  | Nil
  | Int (i : Int)
  | BulkString (bytes : Bytes)
  | Array (items : List Value)
  | SimpleString (text : String)
  | Okay
  | Map (entries : List (Value × Value))
  | Set (items : List Value)
  | Boolean (b : Bool)
  | Other (text : String)

/-- The members of an object are kept in key order, without duplicates. -/
inductive JsonValue where
  | Null
  | Bool (b : Bool)
  | Number (text : String)
  | String (text : String)
  | Array (items : List JsonValue)
  | Object (members : List (String × JsonValue))

structure ParsingError where
  description : String
  deriving DecidableEq

inductive ErrorKind where
  | Io
  | Other (code : Nat)
  deriving DecidableEq

structure RedisError where
  kind : ErrorKind
  description : String
  detail : Option String
  deriving DecidableEq

/-- `String::from_redis_value_ref` of the client library, and its counterpart for owned values. -/
class RedisClient where
  fromRedisValueRef : Value → Except ParsingError String
  fromRedisValue : Value → Except ParsingError String

/-- The JSON library, with the `Debug` texts of its errors. -/
class SerdeJson where
  toVec : JsonValue → Except String Bytes
  fromSlice : Bytes → Except String JsonValue

/-- The JSON library at maps from strings to strings, every one of which it can write. -/
class SerdeJsonMap where
  toVec : Table String String → Except String Bytes
  fromSlice : Bytes → Except String (Table String String)
  serializable : ∀ fields, ∃ bytes, toVec fields = .ok bytes

/-- `Map::insert`. -/
def insertMember (key : String) (value : JsonValue) :
    List (String × JsonValue) → List (String × JsonValue)
  | [] => [(key, value)]
  | (k, v) :: members =>
    if key = k then (key, value) :: members
    else if key < k then (key, value) :: (k, v) :: members
    else (k, v) :: insertMember key value members

section Normalisation

variable [RedisClient]

mutual

/-- Normalizes Redis values into JSON-compatible shapes. -/
def redisValueToJsonValue : Value → Except ParsingError JsonValue
  | .Map entries => redisMapToJsonValue entries []
  | .Array sequence => redisSequenceToJsonValue sequence []
  | value =>
    match RedisClient.fromRedisValueRef value with
    | .error e => .error e
    | .ok scalar => .ok (.String scalar)
termination_by structural value => value

/-- One entry of `redis_map_to_json_value`: the key is converted first. -/
def redisEntryToJsonValue : Value × Value → Except ParsingError (String × JsonValue)
  | (key, value) =>
    match RedisClient.fromRedisValueRef key with
    | .error e => .error e
    | .ok k =>
      match redisValueToJsonValue value with
      | .error e => .error e
      | .ok v => .ok (k, v)
termination_by structural entry => entry

/-- The loop of `redis_map_to_json_value`. -/
def redisMapToJsonValue : List (Value × Value) → List (String × JsonValue) → Except ParsingError JsonValue
  | [], object => .ok (.Object object)
  | entry :: redis, object =>
    match redisEntryToJsonValue entry with
    | .error e => .error e
    | .ok (k, v) => redisMapToJsonValue redis (insertMember k v object)
termination_by structural redis => redis

/-- The loop of `redis_sequence_to_json_value`. -/
def redisSequenceToJsonValue : List Value → List JsonValue → Except ParsingError JsonValue
  | [], array => .ok (.Array array)
  | entry :: redis, array =>
    match redisValueToJsonValue entry with
    | .error e => .error e
    | .ok v => redisSequenceToJsonValue redis (array ++ [v])
termination_by structural redis => redis

end

variable [SerdeJson]

/-- Serializes a normalized JSON value into UTF-8 JSON bytes. -/
def jsonValueToBytes (value : JsonValue) : Except ParsingError Bytes :=
  match SerdeJson.toVec value with
  | .error err => .error ⟨s!"Failed to convert to bytes: {err}"⟩
  | .ok bytes => .ok bytes

def redisValueToJsonBytes (value : Value) : Except ParsingError Bytes :=
  match redisValueToJsonValue value with
  | .error e => .error e
  | .ok normalized => jsonValueToBytes normalized

def redisValueToByteMessage (value : Value) : Except ParsingError ByteMessage :=
  match redisValueToJsonBytes value with
  | .error e => .error e
  | .ok payload => .ok (.fromValue payload)

end Normalisation

/-- What the client library documents: a simple string is its text, and a bulk string converts
exactly when it is valid UTF-8, to the text it encodes. -/
structure RedisClient.Strings [RedisClient] : Prop where
  simple : ∀ text, fromRedisValueRef (.SimpleString text) = .ok text
  bulk : ∀ bytes text, fromRedisValueRef (.BulkString bytes) = .ok text ↔ text.toUTF8 = bytes

/-- An object whose members are all strings. -/
def stringObject (members : List (String × String)) : JsonValue :=
  .Object (members.map fun m => (m.1, .String m.2))

/-- The JSON library writes every object of strings, and reads back what it wrote. -/
structure SerdeJson.Faithful [SerdeJson] : Prop where
  strings : ∀ members : List (String × String), (members.map Prod.fst).Pairwise (· < ·) →
    ∃ bytes, toVec (stringObject members) = .ok bytes ∧ fromSlice bytes = .ok (stringObject members)

/-- The JSON library reads a map back as it wrote it. -/
def SerdeJsonMap.ReadsMaps [SerdeJsonMap] : Prop :=
  ∀ fields bytes, toVec fields = .ok bytes →
    ∃ fields', fromSlice bytes = .ok fields' ∧ ∀ k, fields'.lookup k = fields.lookup k

/-- The JSON library reads an object of strings that it wrote as the map of its members. -/
def SerdeJsonMap.ReadsObjects [SerdeJson] [SerdeJsonMap] : Prop :=
  ∀ members : List (String × String), (members.map Prod.fst).Pairwise (· < ·) →
    ∀ bytes, SerdeJson.toVec (stringObject members) = .ok bytes →
      ∃ fields, fromSlice bytes = .ok fields ∧ ∀ k v, fields.lookup k = some v ↔ (k, v) ∈ members

end PubSub.Redis
