import PubSub.Base.Json
import PubSub.Redis.Stream

/-!
# Reference libraries

A client library and a JSON library that keep what is promised of them: the assumptions of
`RedisClient.Strings` and `SerdeJson.Faithful` hold together. The JSON library covers what the
program writes to a stream and reads from it, objects of strings.
-/

namespace PubSub.Redis.Reference
set_option autoImplicit false
open Base

/-- `String::from_redis_value_ref`: strings, numbers and the status reply have a text. -/
def fromRedisValueRef : Value → Except ParsingError String
  | .SimpleString text => .ok text
  | .BulkString bytes =>
    match String.fromUTF8? bytes with
    | some text => .ok text
    | none => .error ⟨"Invalid UTF-8"⟩
  | .Int i => .ok (toString i)
  | .Okay => .ok "OK"
  | _ => .error ⟨"Response type not string compatible."⟩

scoped instance : RedisClient := ⟨fromRedisValueRef, fromRedisValueRef⟩

scoped instance : Debug ParsingError := ⟨ParsingError.description⟩

scoped instance : Debug RedisError := ⟨RedisError.description⟩

scoped instance {I : Type} : Debug (StreamId I) := ⟨fun _ => "StreamId"⟩

theorem fromUTF8?_eq_some_iff {bytes : Bytes} {text : String} :
    String.fromUTF8? bytes = some text ↔ text.toUTF8 = bytes := by
  rw [String.toUTF8_eq_toByteArray, String.fromUTF8?]
  constructor
  · intro decoded
    split at decoded
    · cases decoded
      rfl
    · cases decoded
  · rintro rfl
    rw [dif_pos text.isValidUTF8]
    exact congrArg some (String.toByteArray_inj.1 rfl)

theorem strings : RedisClient.Strings := by
  refine ⟨fun text => rfl, fun bytes text => ?_⟩
  rw [← fromUTF8?_eq_some_iff]
  show (match String.fromUTF8? bytes with | some text => _ | none => _) = _ ↔ _
  cases String.fromUTF8? bytes <;> simp

/-- The members of an object of strings. -/
def stringMembers : List (String × JsonValue) → Option (List (String × String))
  | [] => some []
  | (key, .String text) :: members => (stringMembers members).map ((key, text) :: ·)
  | _ => none

def toVec (value : JsonValue) : Except String Bytes :=
  match value with
  | .Object members =>
    match stringMembers members with
    | some members => .ok (String.ofList (Json.writeObject (members.map fun m => (m.1.toList, m.2.toList)))).toUTF8
    | none => .error "unsupported member"
  | _ => .error "unsupported value"

def fromSlice (bytes : Bytes) : Except String JsonValue :=
  match String.fromUTF8? bytes with
  | none => .error "invalid unicode code point"
  | some text =>
    match Json.readObject text.toList with
    | none => .error "expected value"
    | some members => .ok (.Object (members.foldl (fun object m =>
        insertMember (String.ofList m.1) (.String (String.ofList m.2)) object) []))

scoped instance : SerdeJson := ⟨toVec, fromSlice⟩

def mapToVec (fields : Table String String) : Except String Bytes :=
  .ok (String.ofList (Json.writeObject (fields.entries.map fun f => (f.1.toList, f.2.toList)))).toUTF8

def mapFromSlice (bytes : Bytes) : Except String (Table String String) :=
  match String.fromUTF8? bytes with
  | none => .error "invalid unicode code point"
  | some text =>
    match Json.readObject text.toList with
    | none => .error "expected value"
    | some members => .ok (.ofPairs (members.map fun m => (String.ofList m.1, String.ofList m.2)))

scoped instance : SerdeJsonMap := ⟨mapToVec, mapFromSlice, fun _ => ⟨_, rfl⟩⟩

theorem stringMembers_map (members : List (String × String)) :
    stringMembers (members.map fun m => (m.1, .String m.2)) = some members := by
  induction members with
  | nil => rfl
  | cons m members ih => rw [List.map_cons, stringMembers, ih, Option.map_some]

/-- A key above all others is inserted at the end. -/
theorem insertMember_last {key : String} {value : JsonValue} {members : List (String × JsonValue)}
    (above : ∀ m ∈ members, m.1 < key) : insertMember key value members = members ++ [(key, value)] := by
  induction members with
  | nil => rfl
  | cons m members ih =>
    obtain ⟨k, v⟩ := m
    have here : k < key := above (k, v) List.mem_cons_self
    have other : key ≠ k := fun same => String.lt_irrefl key (same ▸ here)
    have after : ¬ key < k := String.lt_asymm here
    rw [insertMember, if_neg other, if_neg after, List.cons_append,
      ih fun m later => above m (List.mem_cons_of_mem _ later)]

/-- Members that come in key order are kept as they come. -/
theorem foldl_insertMember (members : List (String × String)) : ∀ object : List (String × JsonValue),
    (object.map Prod.fst ++ members.map Prod.fst).Pairwise (· < ·) →
    members.foldl (fun object m => insertMember m.1 (.String m.2) object) object =
      object ++ members.map fun m => (m.1, .String m.2) := by
  induction members with
  | nil => intro object _; exact (List.append_nil _).symm
  | cons m members ih =>
    intro object sorted
    have above : ∀ o ∈ object, o.1 < m.1 := fun o here =>
      (List.pairwise_append.1 sorted).2.2 _ (List.mem_map_of_mem here) _ List.mem_cons_self
    rw [List.foldl_cons, insertMember_last above, ih, List.append_assoc]
    · rfl
    · simpa using sorted

theorem faithful : SerdeJson.Faithful := by
  refine ⟨fun members sorted => ⟨(String.ofList (Json.writeObject
    (members.map fun m => (m.1.toList, m.2.toList)))).toUTF8, ?_, ?_⟩⟩
  · show (match stringMembers _ with | some members => _ | none => _) = _
    rw [stringMembers_map]
  · have decoded := fromUTF8?_eq_some_iff.2 (rfl : (String.ofList (Json.writeObject
      (members.map fun m => (m.1.toList, m.2.toList)))).toUTF8 = _)
    show fromSlice _ = _
    rw [fromSlice, decoded]
    simp only [String.toList_ofList, Json.readObject_writeObject, List.foldl_map, String.ofList_toList]
    rw [foldl_insertMember members [] (by simpa using sorted)]
    rfl

/-- The members of a written object are read as a map. -/
theorem mapFromSlice_writeObject (members : List (String × String)) :
    mapFromSlice (String.ofList (Json.writeObject (members.map fun m => (m.1.toList, m.2.toList)))).toUTF8 =
      .ok (.ofPairs members) := by
  have decoded := fromUTF8?_eq_some_iff.2 (rfl : (String.ofList (Json.writeObject
    (members.map fun m => (m.1.toList, m.2.toList)))).toUTF8 = _)
  rw [mapFromSlice, decoded]
  simp only [String.toList_ofList, Json.readObject_writeObject, List.map_map, Function.comp_def,
    String.ofList_toList, List.map_id']

theorem readsMaps : SerdeJsonMap.ReadsMaps := by
  rintro fields _ ⟨⟩
  have listed : (fields.entries.map fun f => (f.1.toList, f.2.toList)) =
      (fields.entries.map fun f => (f.1, f.2)).map fun m => (m.1.toList, m.2.toList) := by
    rw [List.map_map]
    rfl
  refine ⟨.ofPairs (fields.entries.map fun f => (f.1, f.2)), ?_, fun k => ?_⟩
  · rw [listed]
    exact mapFromSlice_writeObject _
  · have distinct : ((fields.entries.map fun f => (f.1, f.2)).map Prod.fst).Nodup := by
      rw [List.map_map]
      exact fields.nodupKeys
    apply Option.ext
    intro v
    rw [Table.lookup_ofPairs distinct, List.mem_map]
    constructor
    · rintro ⟨⟨k, v⟩, here, ⟨⟩⟩
      exact Table.lookup_of_mem here
    · exact fun found => ⟨⟨k, v⟩, Table.mem_of_lookup found, rfl⟩

theorem readsObjects : SerdeJsonMap.ReadsObjects := by
  intro members sorted bytes written
  have distinct : (members.map Prod.fst).Nodup := by
    apply List.Pairwise.imp _ sorted
    rintro key _ less rfl
    exact String.lt_irrefl key less
  have encoded : bytes = (String.ofList (Json.writeObject
      (members.map fun m => (m.1.toList, m.2.toList)))).toUTF8 := by
    change (match stringMembers (members.map fun m => (m.1, .String m.2)) with | some members => _ | none => _) = _
      at written
    rw [stringMembers_map] at written
    exact (Except.ok.inj written).symm
  rw [encoded]
  exact ⟨.ofPairs members, mapFromSlice_writeObject members, fun k v => Table.lookup_ofPairs distinct⟩

end PubSub.Redis.Reference
