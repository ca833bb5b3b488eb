import PubSub.Base.Members
import PubSub.Redis.Value

/-!
# The normalisation of Redis values, over whole trees

Both loops of the normalisation are maps that stop at the first error, followed by the construction
of the container. So a tree is normalised exactly when nothing in it that has to become a string is
refused, and every part of the result is the result at a part of the tree.
-/

namespace PubSub.Redis
set_option autoImplicit false
open Base Members

/-! ## Trees -/

/-- Neither a map nor an array. -/
def Value.IsScalar : Value → Prop
  | .Map _ => False
  | .Array _ => False
  | _ => True

/-- Induction over trees: maps by their values, arrays by their items. -/
theorem Value.tree {P : Value → Prop} (scalar : ∀ v, v.IsScalar → P v)
    (map : ∀ entries, (∀ e ∈ entries, P e.2) → P (.Map entries))
    (array : ∀ items, (∀ v ∈ items, P v) → P (.Array items)) (v : Value) : P v := by
  match v with
  | .Map entries =>
    apply map
    rintro ⟨key, w⟩ here
    have smaller : sizeOf w < sizeOf entries := by
      have entry := List.sizeOf_lt_of_mem here
      rw [Prod.mk.sizeOf_spec] at entry
      omega
    exact Value.tree scalar map array w
  | .Array items =>
    apply array
    intro w here
    have smaller := List.sizeOf_lt_of_mem here
    exact Value.tree scalar map array w
  | .Nil | .Int _ | .BulkString _ | .SimpleString _ | .Okay | .Set _ | .Boolean _ | .Other _ =>
    exact scalar _ trivial
termination_by sizeOf v
decreasing_by
  · rw [Value.Map.sizeOf_spec]
    omega
  · rw [Value.Array.sizeOf_spec]
    omega

/-- The parts of a tree that become strings: every key of a map, and every value that is no
container, at any depth. -/
inductive Stringified : Value → Value → Prop
  | scalar {v : Value} : v.IsScalar → Stringified v v
  | key {entries : List (Value × Value)} {e : Value × Value} : e ∈ entries → Stringified e.1 (.Map entries)
  | value {entries : List (Value × Value)} {e : Value × Value} {x : Value} :
    e ∈ entries → Stringified x e.2 → Stringified x (.Map entries)
  | item {items : List Value} {v x : Value} : v ∈ items → Stringified x v → Stringified x (.Array items)

/-- Objects, arrays and strings only, at any depth. -/
inductive Textual : JsonValue → Prop
  | string (text : String) : Textual (.String text)
  | array {items : List JsonValue} : (∀ j ∈ items, Textual j) → Textual (.Array items)
  | object {members : List (String × JsonValue)} : (∀ m ∈ members, Textual m.2) → Textual (.Object members)

/-! ## The loops -/

theorem insertMember_eq_insert (key : String) (value : JsonValue) (members : List (String × JsonValue)) :
    insertMember key value members = Members.insert key value members := by
  induction members with
  | nil => rfl
  | cons m members ih => rw [insertMember, Members.insert, ih]

section Loops

variable [RedisClient]

theorem redisValueToJsonValue_scalar {v : Value} (scalar : v.IsScalar) {j : JsonValue} :
    redisValueToJsonValue v = .ok j ↔ ∃ text, RedisClient.fromRedisValueRef v = .ok text ∧ j = .String text := by
  rw [redisValueToJsonValue]
  · cases RedisClient.fromRedisValueRef v with
    | error e => simp
    | ok text => simp [eq_comm]
  · rintro entries rfl
    exact scalar
  · rintro items rfl
    exact scalar

theorem redisEntryToJsonValue_eq_ok_iff {e : Value × Value} {m : String × JsonValue} :
    redisEntryToJsonValue e = .ok m ↔
      RedisClient.fromRedisValueRef e.1 = .ok m.1 ∧ redisValueToJsonValue e.2 = .ok m.2 := by
  obtain ⟨key, value⟩ := e
  obtain ⟨k, j⟩ := m
  rw [redisEntryToJsonValue]
  cases RedisClient.fromRedisValueRef key with
  | error e => simp
  | ok text => cases redisValueToJsonValue value <;> simp

theorem redisMapToJsonValue_eq_ok_iff {entries : List (Value × Value)} {object : List (String × JsonValue)}
    {j : JsonValue} : redisMapToJsonValue entries object = .ok j ↔
      ∃ ms, List.Forall₂ (fun e m => redisEntryToJsonValue e = .ok m) entries ms ∧
        j = .Object (insertAll ms object) := by
  induction entries generalizing object with
  | nil => simp [redisMapToJsonValue, eq_comm]
  | cons e entries ih =>
    simp only [redisMapToJsonValue, List.forall₂_cons_left_iff]
    cases redisEntryToJsonValue e with
    | error err => simp
    | ok m =>
      dsimp only
      rw [insertMember_eq_insert, ih]
      constructor
      · rintro ⟨ms, all, rfl⟩
        exact ⟨m :: ms, ⟨m, ms, rfl, all, rfl⟩, rfl⟩
      · rintro ⟨_, ⟨m, ms, ⟨⟩, all, rfl⟩, rfl⟩
        exact ⟨ms, all, rfl⟩

theorem redisSequenceToJsonValue_eq_ok_iff {items : List Value} {array : List JsonValue} {j : JsonValue} :
    redisSequenceToJsonValue items array = .ok j ↔
      ∃ js, List.Forall₂ (fun v j => redisValueToJsonValue v = .ok j) items js ∧ j = .Array (array ++ js) := by
  induction items generalizing array with
  | nil => simp [redisSequenceToJsonValue, eq_comm]
  | cons v items ih =>
    simp only [redisSequenceToJsonValue, List.forall₂_cons_left_iff]
    cases redisValueToJsonValue v with
    | error err => simp
    | ok j =>
      dsimp only
      rw [ih]
      constructor
      · rintro ⟨js, all, rfl⟩
        exact ⟨j :: js, ⟨j, js, rfl, all, rfl⟩, by rw [List.append_assoc]; rfl⟩
      · rintro ⟨_, ⟨j, js, ⟨⟩, all, rfl⟩, rfl⟩
        exact ⟨js, all, by rw [List.append_assoc]; rfl⟩

/-! ## What is normalised -/

/-- An error anywhere in the tree surfaces, and nothing else is one. -/
theorem exists_redisValueToJsonValue_iff (v : Value) : (∃ j, redisValueToJsonValue v = .ok j) ↔
    ∀ x, Stringified x v → ∃ text, RedisClient.fromRedisValueRef x = .ok text := by
  constructor
  · rintro ⟨j, normal⟩ x part
    induction part generalizing j with
    | scalar plain =>
      obtain ⟨text, taken, -⟩ := (redisValueToJsonValue_scalar plain).1 normal
      exact ⟨text, taken⟩
    | key here =>
      obtain ⟨ms, all, -⟩ := redisMapToJsonValue_eq_ok_iff.1 normal
      obtain ⟨m, -, entry⟩ := exists_of_mem_left all here
      exact ⟨m.1, (redisEntryToJsonValue_eq_ok_iff.1 entry).1⟩
    | value here _ ih =>
      obtain ⟨ms, all, -⟩ := redisMapToJsonValue_eq_ok_iff.1 normal
      obtain ⟨m, -, entry⟩ := exists_of_mem_left all here
      exact ih m.2 (redisEntryToJsonValue_eq_ok_iff.1 entry).2
    | item here _ ih =>
      obtain ⟨js, all, -⟩ := redisSequenceToJsonValue_eq_ok_iff.1 normal
      obtain ⟨j, -, normal⟩ := exists_of_mem_left all here
      exact ih j normal
  · intro taken
    induction v using Value.tree with
    | scalar v plain =>
      obtain ⟨text, accepted⟩ := taken v (.scalar plain)
      exact ⟨.String text, (redisValueToJsonValue_scalar plain).2 ⟨text, accepted, rfl⟩⟩
    | map entries ih =>
      have each : ∀ e ∈ entries, ∃ m, redisEntryToJsonValue e = .ok m := by
        intro e here
        obtain ⟨k, accepted⟩ := taken e.1 (.key here)
        obtain ⟨j, normal⟩ := ih e here fun x part => taken x (.value here part)
        exact ⟨(k, j), redisEntryToJsonValue_eq_ok_iff.2 ⟨accepted, normal⟩⟩
      obtain ⟨ms, all⟩ := exists_forall₂ each
      exact ⟨_, redisMapToJsonValue_eq_ok_iff.2 ⟨ms, all, rfl⟩⟩
    | array items ih =>
      obtain ⟨js, all⟩ := exists_forall₂ fun v here => ih v here fun x part => taken x (.item here part)
      exact ⟨_, redisSequenceToJsonValue_eq_ok_iff.2 ⟨js, all, rfl⟩⟩

/-- The result has no other constructors than strings and the two containers. -/
theorem textual_of_normal {v : Value} : ∀ {j : JsonValue}, redisValueToJsonValue v = .ok j → Textual j := by
  induction v using Value.tree with
  | scalar v plain =>
    intro j normal
    obtain ⟨text, -, rfl⟩ := (redisValueToJsonValue_scalar plain).1 normal
    exact .string text
  | map entries ih =>
    intro j normal
    obtain ⟨ms, all, rfl⟩ := redisMapToJsonValue_eq_ok_iff.1 normal
    refine .object fun m here => ?_
    obtain ⟨e, member, entry⟩ := exists_of_mem_right all ((mem_insertAll.1 here).mem)
    exact ih e member (redisEntryToJsonValue_eq_ok_iff.1 entry).2
  | array items ih =>
    intro j normal
    obtain ⟨js, all, rfl⟩ := redisSequenceToJsonValue_eq_ok_iff.1 normal
    refine .array fun j here => ?_
    obtain ⟨v, member, normal⟩ := exists_of_mem_right all here
    exact ih v member normal

/-- What a map becomes: the members are bound to the last entry with their key, in key order. -/
structure IsObjectOf (entries : List (Value × Value)) (members : List (String × JsonValue)) : Prop where
  sorted : Members.Sorted members
  mem_iff : ∀ k j, (k, j) ∈ members ↔ Last
    (fun e => RedisClient.fromRedisValueRef e.1 = .ok k ∧ redisValueToJsonValue e.2 = .ok j)
    (fun e => RedisClient.fromRedisValueRef e.1 = .ok k) entries
  keys : ∀ k, k ∈ members.map Prod.fst ↔ ∃ e ∈ entries, RedisClient.fromRedisValueRef e.1 = .ok k
  complete : (entries.Pairwise fun e e' => RedisClient.fromRedisValueRef e.1 ≠ RedisClient.fromRedisValueRef e'.1) →
    members.length = entries.length ∧ ∀ e ∈ entries, ∃ k j, RedisClient.fromRedisValueRef e.1 = .ok k ∧
      redisValueToJsonValue e.2 = .ok j ∧ (k, j) ∈ members

/-- What the parts of the result are. -/
def IsNormalOf : Value → JsonValue → Prop
  | .Map entries, j => ∃ members, j = .Object members ∧ IsObjectOf entries members
  | .Array items, j => ∃ js, j = .Array js ∧ List.Forall₂ (fun v j => redisValueToJsonValue v = .ok j) items js
  | v, j => ∃ text, RedisClient.fromRedisValueRef v = .ok text ∧ j = .String text

variable {entries : List (Value × Value)} {ms : List (String × JsonValue)}

/-- Distinct conversions of the keys are distinct keys. -/
theorem nodup_keys (all : List.Forall₂ (fun e m => redisEntryToJsonValue e = .ok m) entries ms)
    (distinct : entries.Pairwise fun e e' =>
      RedisClient.fromRedisValueRef e.1 ≠ RedisClient.fromRedisValueRef e'.1) : (ms.map Prod.fst).Nodup := by
  have conversions : List.Forall₂ Eq (entries.map fun e => RedisClient.fromRedisValueRef e.1)
      ((ms.map Prod.fst).map .ok) := by
    rw [List.map_map, List.forall₂_map_left_iff, List.forall₂_map_right_iff]
    exact all.imp fun e m entry => (redisEntryToJsonValue_eq_ok_iff.1 entry).1
  rw [List.forall₂_eq_eq_eq] at conversions
  apply List.Nodup.of_map (.ok : String → Except ParsingError String)
  rw [← conversions]
  exact List.pairwise_map.2 distinct

theorem isObjectOf_insertAll (all : List.Forall₂ (fun e m => redisEntryToJsonValue e = .ok m) entries ms) :
    IsObjectOf entries (insertAll ms []) where
  sorted := sorted_insertAll_nil
  mem_iff k j := by
    refine mem_insertAll.trans (last_iff_of_forall₂ all fun e m entry => ?_).symm
    obtain ⟨key, value⟩ := redisEntryToJsonValue_eq_ok_iff.1 entry
    rw [key, value, Except.ok.injEq, Except.ok.injEq, Prod.ext_iff]
    exact ⟨Iff.rfl, Iff.rfl⟩
  keys k := by
    rw [mem_keys_insertAll, List.mem_map]
    constructor
    · rintro ⟨m, member, rfl⟩
      obtain ⟨e, here, entry⟩ := exists_of_mem_right all member
      exact ⟨e, here, (redisEntryToJsonValue_eq_ok_iff.1 entry).1⟩
    · rintro ⟨e, here, accepted⟩
      obtain ⟨m, member, entry⟩ := exists_of_mem_left all here
      rw [(redisEntryToJsonValue_eq_ok_iff.1 entry).1] at accepted
      exact ⟨m, member, Except.ok.inj accepted⟩
  complete distinct := by
    have nodup := nodup_keys all distinct
    refine ⟨(length_insertAll nodup).trans all.length_eq.symm, fun e here => ?_⟩
    obtain ⟨m, member, entry⟩ := exists_of_mem_left all here
    obtain ⟨key, value⟩ := redisEntryToJsonValue_eq_ok_iff.1 entry
    exact ⟨m.1, m.2, key, value, (mem_insertAll_of_distinct nodup).2 member⟩

theorem isNormalOf_of_normal {v : Value} {j : JsonValue} (normal : redisValueToJsonValue v = .ok j) :
    IsNormalOf v j := by
  cases v with
  | Map entries =>
    obtain ⟨ms, all, rfl⟩ := redisMapToJsonValue_eq_ok_iff.1 normal
    exact ⟨_, rfl, isObjectOf_insertAll all⟩
  | Array items =>
    obtain ⟨js, all, rfl⟩ := redisSequenceToJsonValue_eq_ok_iff.1 normal
    exact ⟨js, rfl, all⟩
  | _ =>
    refine (redisValueToJsonValue_scalar ?_).1 normal
    exact trivial

/-- **Normalisation.** A tree is normalised exactly when every key of its maps and every value that is
no container is converted to a string, at any depth. The result has objects, arrays and strings
only: each array item by item, each map with the last value for each key, and each other value as
its string. -/
theorem redisValueToJsonValue_normalises (v : Value) :
    ((∃ j, redisValueToJsonValue v = .ok j) ↔
      ∀ x, Stringified x v → ∃ text, RedisClient.fromRedisValueRef x = .ok text) ∧
    ∀ j, redisValueToJsonValue v = .ok j → Textual j ∧ IsNormalOf v j :=
  ⟨exists_redisValueToJsonValue_iff v, fun _ normal => ⟨textual_of_normal normal, isNormalOf_of_normal normal⟩⟩

end Loops

end PubSub.Redis
