import PubSub.Redis.Readable
import PubSub.Redis.RoundTrip
import PubSub.Utf8

/-!
# How much of a stream a publisher leaves

Every `XADD` of a publisher names the limit that is set at the time. An exact limit trims the stream to
that many entries; an approximate one lets the server keep more, but never fewer. The limit may be changed
between two calls, and both ways of publishing write to the same stream.
-/

namespace PubSub.Redis
set_option autoImplicit false
open Base

/-- The default value for the Redis stream length. -/
def streamLenDefault : Nat := 100000

/-- The limit of an `XADD`: `MAXLEN ~ n` or `MAXLEN = n`. -/
inductive StreamMaxlen where
  | Approx (n : Nat)
  | Equals (n : Nat)
  deriving DecidableEq

/-- The number in the limit. -/
def StreamMaxlen.length : StreamMaxlen → Nat
  | Approx n | Equals n => n

/-- What the server may trim when a stream has had `appended` entries: up to the limit, and an exact
limit leaves no choice. -/
def StreamMaxlen.Trims (limit : StreamMaxlen) (appended trim : Nat) : Prop :=
  match limit with
  | Approx n => trim ≤ appended - n
  | Equals n => trim = appended - n

instance (limit : StreamMaxlen) (appended trim : Nat) : Decidable (limit.Trims appended trim) := by
  unfold StreamMaxlen.Trims
  cases limit <;> exact inferInstance

/-- Up to its number of entries stay. -/
theorem StreamMaxlen.Trims.le {limit : StreamMaxlen} {n appended trim : Nat} (trims : limit.Trims appended trim)
    (enough : n ≤ limit.length) : trim ≤ appended - n := by
  cases limit with
  | Approx m =>
    have most : trim ≤ appended - m := trims
    have : n ≤ m := enough
    omega
  | Equals m =>
    have exactly : trim = appended - m := trims
    have : n ≤ m := enough
    omega

structure RedisPublisher where
  host : String
  streamMaxLen : StreamMaxlen
  topic : String

namespace RedisPublisher

def new (host topic : String) : RedisPublisher := ⟨host, .Approx streamLenDefault, topic⟩

def setApproxStreamMaxLen (publisher : RedisPublisher) (newMax : Nat) : RedisPublisher :=
  { publisher with streamMaxLen := .Approx newMax }

def setExactStreamMaxLen (publisher : RedisPublisher) (newMax : Nat) : RedisPublisher :=
  { publisher with streamMaxLen := .Equals newMax }

/-- A call on a publisher, with the id that the server assigns and what it trims. -/
inductive Call (I : Type) where
  | setApproxStreamMaxLen (newMax : Nat)
  | setExactStreamMaxLen (newMax : Nat)
  | publish (message : AnyMessage) (id : I) (trim : Nat)
  | publishStream (message : MapMessage) (id : I) (trim : Nat)

section Calls

variable {I : Type} [LinearOrder I]

/-- The fields that a call writes, as texts. -/
def Call.texts : Call I → Option (Table String String)
  | publish message _ _ => some (AList.insert "data" (fromUtf8Lossy message.payload) ∅)
  | publishStream message _ _ => some message.fields
  | _ => none

/-- The limit after a call. -/
def Call.sets (limit : StreamMaxlen) : Call I → StreamMaxlen
  | setApproxStreamMaxLen newMax => .Approx newMax
  | setExactStreamMaxLen newMax => .Equals newMax
  | publish .. | publishStream .. => limit

/-- The limits under which the entries are written. -/
def limits : StreamMaxlen → List (Call I) → List StreamMaxlen
  | _, [] => []
  | limit, c :: calls => (if c.texts.isSome then [limit] else []) ++ limits (c.sets limit) calls

/-- The payload of a call of `publish` is text. -/
def Call.IsText : Call I → Prop
  | publish message _ _ => message.payload.IsValidUTF8
  | _ => True

instance (c : Call I) : Decidable c.IsText := by
  unfold Call.IsText
  cases c <;> exact inferInstance

/-- The maps that were written, in order. -/
def written (calls : List (Call I)) : List (Table String String) := calls.filterMap Call.texts

variable [SerdeJsonMap]

/-- One call, if the server takes it. -/
def call (s : RedisPublisher × Topic I) : Call I → Option (RedisPublisher × Topic I)
  | .setApproxStreamMaxLen newMax => some (s.1.setApproxStreamMaxLen newMax, s.2)
  | .setExactStreamMaxLen newMax => some (s.1.setExactStreamMaxLen newMax, s.2)
  | .publish message id trim =>
    if s.1.streamMaxLen.Trims (s.2.appended.length + 1) trim then
      (PubSub.Redis.publish s.2 ⟨message, id, trim⟩).map fun topic => (s.1, topic)
    else none
  | .publishStream message id trim =>
    if s.1.streamMaxLen.Trims (s.2.appended.length + 1) trim then
      (PubSub.Redis.publishStream s.2 ⟨message, id, trim⟩).map fun topic => (s.1, topic)
    else none

def run (s : RedisPublisher × Topic I) (calls : List (Call I)) : Option (RedisPublisher × Topic I) :=
  calls.foldlM call s

/-- An entry has these texts as its fields. -/
def Spells (e : I × Fields) (texts : Table String String) : Prop :=
  e.2 = texts.entries.map fun f => (f.1, f.2.toUTF8)

/-- What a call does: it may set the limit, and else appends its entry and trims. -/
theorem call_cases {s s' : RedisPublisher × Topic I} {c : Call I} (called : call s c = some s') :
    s'.1.streamMaxLen = c.sets s.1.streamMaxLen ∧
      ((c.texts = none ∧ s'.2 = s.2) ∨ ∃ texts fields trim, ∃ id : I, ∃ newer : s.2.lastId < id,
        c.texts = some texts ∧ (c.IsText → Spells (id, fields) texts) ∧
          s.1.streamMaxLen.Trims (s.2.appended.length + 1) trim ∧ s'.2 = (s.2.append id fields newer).trim trim) := by
  cases c with
  | setApproxStreamMaxLen newMax =>
    cases called
    exact ⟨rfl, .inl ⟨rfl, rfl⟩⟩
  | setExactStreamMaxLen newMax =>
    cases called
    exact ⟨rfl, .inl ⟨rfl, rfl⟩⟩
  | publish message id trim =>
    obtain ⟨trims, called⟩ := Option.ite_none_right_eq_some.1 called
    obtain ⟨topic, published, rfl⟩ := Option.map_eq_some_iff.1 called
    refine ⟨rfl, .inr ?_⟩
    unfold PubSub.Redis.publish at published
    split at published
    · cases published
      refine ⟨_, _, trim, id, ‹_›, rfl, fun isText => ?_, trims, rfl⟩
      have text : (fromUtf8Lossy message.payload).toUTF8 = message.payload := toUTF8_fromUtf8Lossy_iff.2 isText
      show [("data", message.payload)] = [("data", (fromUtf8Lossy message.payload).toUTF8)]
      rw [text]
    · cases published
  | publishStream message id trim =>
    obtain ⟨trims, called⟩ := Option.ite_none_right_eq_some.1 called
    obtain ⟨topic, published, rfl⟩ := Option.map_eq_some_iff.1 called
    refine ⟨rfl, .inr ?_⟩
    unfold PubSub.Redis.publishStream at published
    dsimp only at published
    split at published
    · cases published
    · split at published
      · cases published
        exact ⟨_, _, trim, id, ‹_›, rfl, fun _ => rfl, trims, rfl⟩
      · cases published

/-! ## Over a run of calls -/

variable {s s' : RedisPublisher × Topic I} {calls : List (Call I)}

/-- The entries of a run are those that its calls wrote. -/
theorem spells_run (isText : ∀ c ∈ calls, c.IsText) {before : List (Table String String)}
    (start : List.Forall₂ Spells s.2.appended before) (ran : run s calls = some s') :
    List.Forall₂ Spells s'.2.appended (before ++ written calls) := by
  induction calls generalizing s before with
  | nil =>
    cases ran
    rwa [written, List.filterMap_nil, List.append_nil]
  | cons c calls ih =>
    obtain ⟨t, called, rest⟩ := Option.bind_eq_some_iff.1 ran
    obtain ⟨first, others⟩ := List.forall_mem_cons.1 isText
    obtain ⟨-, ⟨silent, same⟩ | ⟨texts, fields, trim, id, newer, wrote, spells, -, after⟩⟩ := call_cases called
    · rw [written, List.filterMap_cons_none silent]
      exact ih others (same ▸ start) rest
    · have next : List.Forall₂ Spells t.2.appended (before ++ [texts]) := by
        rw [after, StreamLog.appended_trim]
        exact List.rel_append start (.cons (spells first) .nil)
      rw [written, List.filterMap_cons_some wrote, ← List.singleton_append, ← List.append_assoc]
      exact ih others next rest

/-- Limits of at least `n` leave the last `n` entries alone. -/
theorem trimmed_le_of_run {n : Nat} (large : ∀ limit ∈ limits s.1.streamMaxLen calls, n ≤ limit.length)
    (start : s.2.trimmed ≤ s.2.appended.length - n) (ran : run s calls = some s') :
    s'.2.trimmed ≤ s'.2.appended.length - n := by
  induction calls generalizing s with
  | nil =>
    cases ran
    exact start
  | cons c calls ih =>
    obtain ⟨t, called, rest⟩ := Option.bind_eq_some_iff.1 ran
    obtain ⟨limit, ⟨silent, same⟩ | ⟨texts, fields, trim, id, newer, wrote, -, trims, after⟩⟩ := call_cases called
    · rw [limits, silent, ← limit] at large
      exact ih large (same ▸ start) rest
    · rw [limits, wrote, ← limit] at large
      refine ih (fun m here => large m (List.mem_append_right _ here)) ?_ rest
      have enough := large _ (List.mem_append_left _ List.mem_cons_self)
      have less := trims.le enough
      rw [after]
      simp only [StreamLog.trim, StreamLog.append, List.length_append, List.length_singleton]
      omega

/-- An exact limit holds until the next entry is written. -/
def Exact (limit : StreamMaxlen) (topic : Topic I) : Prop :=
  ∀ n, limit = .Equals n → topic.appended.length - n ≤ topic.trimmed

omit [SerdeJsonMap] in
theorem exact_trim {limit : StreamMaxlen} {topic : Topic I} {trim : Nat} (trims : limit.Trims topic.appended.length trim) :
    Exact limit (topic.trim trim) := by
  rintro n rfl
  have exactly : trim = topic.appended.length - n := trims
  simp only [StreamLog.trim]
  omega

theorem exact_of_run {last : StreamMaxlen} (start : Exact last s.2) (ran : run s calls = some s') :
    Exact ((limits s.1.streamMaxLen calls).getLastD last) s'.2 := by
  induction calls generalizing s last with
  | nil =>
    cases ran
    exact start
  | cons c calls ih =>
    obtain ⟨t, called, rest⟩ := Option.bind_eq_some_iff.1 ran
    obtain ⟨limit, ⟨silent, same⟩ | ⟨texts, fields, trim, id, newer, wrote, -, trims, after⟩⟩ := call_cases called
    · rw [limits, silent, ← limit]
      exact ih (same ▸ start) rest
    · rw [limits, wrote, ← limit]
      show Exact ((s.1.streamMaxLen :: limits t.1.streamMaxLen calls).getLastD last) s'.2
      rw [List.getLastD_cons]
      refine ih ?_ rest
      rw [after]
      refine exact_trim ?_
      rwa [StreamLog.append, List.length_append]

end Calls

/-! ## What a snapshot shows of it -/

section Reading

variable {I : Type} {es : List (I × Fields)} {texts : List (Table String String)}

theorem Spells.carries {e : I × Fields} {t : Table String String} (spells : Spells e t) :
    StreamId.Carries e (.ofEntry e) := by
  refine StreamId.carries_ofEntry ?_
  rw [spells, List.map_map]
  exact t.nodupKeys

variable [RedisClient] [SerdeJson] [SerdeJsonMap] [Debug ParsingError]

/-- A snapshot of entries that spell maps. -/
theorem get_of_spells (strings : RedisClient.Strings) (faithful : SerdeJson.Faithful)
    (reads : SerdeJsonMap.ReadsObjects) (spells : List.Forall₂ Spells es texts) :
    ∃ msgs : List MapMessage, RedisSnapshot.get (.ok (es.map StreamId.ofEntry)) = .ok msgs ∧
      List.Forall₂ (fun t m => MapMessage.Same m ⟨none, t⟩) texts msgs := by
  simp only [RedisSnapshot.get_eq_ok_iff]
  induction spells with
  | nil => exact ⟨[], ⟨[], .nil, rfl⟩, .nil⟩
  | cons first _ ih =>
    obtain ⟨message, converted, same⟩ := convert_map strings faithful reads first.carries first
    obtain ⟨_, ⟨vals, rest, rfl⟩, sames⟩ := ih
    exact ⟨_, ⟨message :: vals, .cons converted rest, rfl⟩, .cons same sames⟩

/-- **A snapshot shows the last messages.** A publisher writes to an empty stream, by `publish` (texts) or
`publish_stream`, and changes its limit in between. Then a snapshot shows the last of the messages, in
order, with their fields: at least `n` of them (or all) if no limit was below `n`, the default included,
and at most `n` if the last message was written under an exact limit of `n`. -/
theorem snapshot_keeps_last [LinearOrder I] (strings : RedisClient.Strings) (faithful : SerdeJson.Faithful)
    (reads : SerdeJsonMap.ReadsObjects) {host topic : String} {calls : List (Call I)}
    (isText : ∀ c ∈ calls, c.IsText) {publisher : RedisPublisher} {stream : Topic I}
    (ran : run (new host topic, .empty) calls = some (publisher, stream)) :
    ∃ older kept, written calls = older ++ kept ∧ ∃ msgs : List MapMessage,
      RedisSnapshot.get (.ok (xrangeAll stream)) = .ok msgs ∧
        List.Forall₂ (fun t m => MapMessage.Same m ⟨none, t⟩) kept msgs ∧
        (∀ n, (∀ limit ∈ limits (.Approx streamLenDefault) calls, n ≤ limit.length) →
          min n (written calls).length ≤ msgs.length) ∧
        ∀ n, (limits (.Approx streamLenDefault) calls).getLast? = some (.Equals n) → msgs.length ≤ n := by
  have spells : List.Forall₂ Spells stream.appended (written calls) := spells_run isText .nil ran
  have retained := List.forall₂_drop stream.trimmed spells
  obtain ⟨msgs, read, same⟩ := get_of_spells strings faithful reads retained
  have length : msgs.length = stream.appended.length - stream.trimmed := by
    rw [← same.length_eq, List.length_drop, spells.length_eq]
  refine ⟨(written calls).take stream.trimmed, (written calls).drop stream.trimmed, (List.take_append_drop _ _).symm,
    msgs, read, same, fun n large => ?_, fun n last => ?_⟩
  · have few : stream.trimmed ≤ stream.appended.length - n := trimmed_le_of_run large (Nat.zero_le _) ran
    have := spells.length_eq
    have := stream.within
    omega
  · have start : Exact (.Approx 0) (StreamLog.empty : Topic I) := nofun
    have exactly : Exact _ stream := exact_of_run start ran
    have limit : (limits (.Approx streamLenDefault) calls).getLastD (.Approx 0) = .Equals n := by
      rw [List.getLastD_eq_getLast?, last, Option.getD_some]
    have most := exactly n limit
    omega

end Reading

/-- Two ways of publishing, and an exact limit that is set in between. -/
def limited : List (Call Nat) :=
  [.publish ⟨StringMessage, inferInstance, ⟨none, "a"⟩⟩ 1 0, .setExactStreamMaxLen 2,
    .publishStream ⟨none, Table.ofPairs [("k", "v"), ("l", "")]⟩ 2 0,
    .publish ⟨StringMessage, inferInstance, ⟨some "k", "b"⟩⟩ 3 1]

open Reference in
theorem snapshot_keeps_last_limited : ∃ publisher stream,
    run (new "redis://127.0.0.1/" "t", .empty) limited = some (publisher, stream) ∧
    ∃ older kept, written limited = older ++ kept ∧ ∃ msgs : List MapMessage,
      RedisSnapshot.get (.ok (xrangeAll stream)) = .ok msgs ∧
        List.Forall₂ (fun t m => MapMessage.Same m ⟨none, t⟩) kept msgs ∧ msgs.length = 2 := by
  obtain ⟨⟨publisher, stream⟩, ran⟩ : ∃ s, run (new "redis://127.0.0.1/" "t", .empty) limited = some s :=
    Option.isSome_iff_exists.1 (by decide)
  obtain ⟨older, kept, split, msgs, read, same, least, most⟩ :=
    snapshot_keeps_last strings faithful readsObjects (by decide) ran
  refine ⟨publisher, stream, ran, older, kept, split, msgs, read, same, Nat.le_antisymm (most 2 (by decide)) ?_⟩
  exact least 2 (by decide)

end RedisPublisher

end PubSub.Redis
