import Mathlib.Data.List.Forall2
import PubSub.Base.Resp
import PubSub.Redis.TestingUtils.Decode

/-!
# `XADD` and `XRANGE`

The arguments of an `XADD`, what the mock server keeps of them, and what a client reads back. Nothing
before the `*` looks like an id, so the fields are found whatever they contain; and the reply gives
the length of everything in it.
-/

namespace PubSub.Redis.TestingUtils
set_option autoImplicit false
open Base Base.Text

/-- How long the stream may become. -/
structure MaxLen where
  approximate : Bool
  limit : String
  decimal : (Decimal.read limit.toList).isSome

def MaxLen.args (m : MaxLen) : List String := ["MAXLEN", if m.approximate then "~" else "=", m.limit]

/-- What a client adds, with an id that the server chooses. -/
structure Xadd where
  topic : String
  maxLen : Option MaxLen
  fields : List (String × String)
  nonempty : fields ≠ []

namespace Xadd

/-- Fields and values one after the other. -/
def flat (fields : List (String × String)) : List String := fields.flatMap fun f => [f.1, f.2]

def args (x : Xadd) : List String := x.topic :: ((x.maxLen.map MaxLen.args).getD [] ++ "*" :: flat x.fields)

def push (x : Xadd) : Push := ⟨x.topic, x.fields⟩

end Xadd

/-! ## What the server keeps -/

theorem pairs_flat (fields : List (String × String)) : Command.pairs (Xadd.flat fields) = fields := by
  induction fields with
  | nil => rfl
  | cons f fields ih =>
    rw [Xadd.flat, List.flatMap_cons, ← Xadd.flat]
    show (f.1, f.2) :: Command.pairs (Xadd.flat fields) = _
    rw [ih]

/-- The first token that looks like an id ends the search. -/
theorem fieldArgs_append {before : List String} (others : ∀ token ∈ before, Command.isEntryId token = false)
    (rest : List String) : Command.fieldArgs (before ++ "*" :: rest) = rest := by
  have found : (before ++ "*" :: rest).findIdx? Command.isEntryId = some before.length := by
    rw [List.findIdx?_append, List.findIdx?_eq_none_iff.2 others]
    simp [List.findIdx?_cons, Command.isEntryId]
  rw [Command.fieldArgs, found]
  show (before ++ "*" :: rest).drop (before.length + 1) = rest
  rw [List.drop_length_add_append]
  rfl

theorem MaxLen.isEntryId_of_mem (m : MaxLen) : ∀ token ∈ m.args, Command.isEntryId token = false := by
  have modifier : Command.isEntryId (if m.approximate then "~" else "=") = false := by
    cases m.approximate
    · rfl
    · rfl
  have limit : Command.isEntryId m.limit = false := by
    obtain ⟨n, number⟩ := Option.isSome_iff_exists.1 m.decimal
    have digits := Decimal.isDigit_of_read number
    rw [Command.isEntryId, Bool.or_eq_false_iff, decide_eq_false_iff_not, List.contains_eq_mem, decide_eq_false_iff_not]
    constructor
    · intro star
      have here : '*' ∈ m.limit.toList := by rw [star]; decide
      exact absurd (digits '*' here) (by decide)
    · exact fun dash => absurd (digits '-' dash) (by decide)
  simp [MaxLen.args, modifier, limit]
  rfl

/-- **The arguments of an `XADD` are understood**, whatever the topic and the fields contain. -/
theorem fromParts_args (x : Xadd) : Command.fromParts "XADD" x.args = .Xadd x.topic x.fields := by
  have others : ∀ token ∈ (x.maxLen.map MaxLen.args).getD [], Command.isEntryId token = false := by
    cases x.maxLen with
    | none => exact nofun
    | some m => exact m.isEntryId_of_mem
  have enough : 4 ≤ x.args.length := by
    obtain ⟨f, fields, split⟩ := List.exists_cons_of_ne_nil x.nonempty
    rw [Xadd.args, split, Xadd.flat, List.flatMap_cons]
    simp only [List.length_cons, List.length_append, List.cons_append]
    omega
  rw [Command.fromParts, if_neg (by decide), if_neg fun publish => absurd publish.1 (by decide), if_pos ⟨rfl, enough⟩]
  rw [Xadd.args, List.tail_cons, fieldArgs_append others, pairs_flat]
  rfl

/-- Names and values that look like ids. -/
example : Command.fromParts "XADD" ["a-b", "MAXLEN", "~", "010", "*", "*", "1-1", "*", ""] =
    .Xadd "a-b" [("*", "1-1"), ("*", "")] := by decide

/-- These calls, in the order in which they add to the streams. They may come from any connections. -/
def runXadds (pubsubMessages : Table String (List String)) (calls : List Xadd) (server : Server) : Server :=
  calls.foldl (fun server x => (executeCommand pubsubMessages (.fromParts "XADD" x.args) server).2) server

section Running

variable (pubsubMessages : Table String (List String))

theorem streamState_runXadds (calls : List Xadd) (server : Server) :
    (runXadds pubsubMessages calls server).streamState = server.streamState.run (calls.map Xadd.push) := by
  induction calls generalizing server with
  | nil => rfl
  | cons x calls ih =>
    rw [runXadds, List.foldl_cons, ← runXadds, ih, fromParts_args]
    rfl

/-! ## What a client reads -/

theorem bytes_encodeBulkString (s : String) : bytes (encodeBulkString s).toList =
    Resp.header '$' (bytes s.toList).length ++ (bytes s.toList ++ bytes crlf) := by
  rw [toList_encodeBulkString, ← byteLen_toList, ← length_bytes, Resp.header, ← bytes_append, ← bytes_append]
  simp only [List.cons_append, List.append_assoc]

theorem bytes_join (ss : List String) :
    bytes (String.join ss).toList = (ss.map fun s => bytes s.toList).flatten := by
  induction ss with
  | nil => rfl
  | cons s ss ih =>
    rw [String.join_cons, String.toList_append, bytes_append, ih, List.map_cons, List.flatten_cons]

/-- A text as a client gets it. -/
def bulkReply (s : String) : Resp.Reply := .bulk (bytes s.toList)

def entryReply (id : String) (fields : List (String × String)) : Resp.Reply :=
  .array [bulkReply id, .array ((Xadd.flat fields).map bulkReply)]

theorem reads_encodeBulkString (depth : Nat) (s : String) :
    Resp.Reads depth (bytes (encodeBulkString s).toList) (bulkReply s) := by
  rw [bytes_encodeBulkString]
  exact Resp.reads_bulk depth _

theorem bytes_arrayHeader (n : Nat) : bytes s!"*{n}\r\n".toList = Resp.header '*' n := by
  simp [Resp.header, toString, crlf]

/-- The texts of the items of an array are read one after the other. -/
theorem forall₂_map {α : Type} {depth : Nat} {text : α → List UInt8} {reply : α → Resp.Reply}
    (each : ∀ x, Resp.Reads depth (text x) (reply x)) (xs : List α) :
    List.Forall₂ (Resp.Reads depth) (xs.map text) (xs.map reply) := by
  rw [List.forall₂_map_left_iff, List.forall₂_map_right_iff, List.forall₂_same]
  exact fun x _ => each x

theorem bytes_fields (fields : List (String × String)) :
    bytes (String.join (fields.map fun f => encodeBulkString f.1 ++ encodeBulkString f.2)).toList =
      ((Xadd.flat fields).map fun s => bytes (encodeBulkString s).toList).flatten := by
  rw [bytes_join, List.map_map]
  induction fields with
  | nil => rfl
  | cons f fields ih =>
    rw [List.map_cons, List.flatten_cons, ih, Function.comp_apply, String.toList_append, bytes_append, List.append_assoc]
    rfl

theorem length_flat (fields : List (String × String)) : (Xadd.flat fields).length = fields.length * 2 := by
  induction fields with
  | nil => rfl
  | cons f fields ih =>
    rw [Xadd.flat, List.flatMap_cons, List.length_append, ← Xadd.flat, ih, List.length_cons]
    simp only [List.length_cons, List.length_nil]
    omega

theorem reads_encodeStreamEntry (depth : Nat) (entry : StreamEntry) :
    Resp.Reads (depth + 2) (bytes (encodeStreamEntry entry).toList) (entryReply entry.id entry.fields) := by
  have fields : Resp.Reads (depth + 1)
      (bytes (s!"*{entry.fields.length * 2}\r\n" ++
        String.join (entry.fields.map fun f => encodeBulkString f.1 ++ encodeBulkString f.2)).toList)
      (.array ((Xadd.flat entry.fields).map bulkReply)) := by
    rw [String.toList_append, bytes_append, bytes_arrayHeader, bytes_fields, ← length_flat,
      ← List.length_map (f := bulkReply)]
    exact Resp.reads_array (forall₂_map (reads_encodeBulkString depth) _)
  have both := Resp.reads_array (.cons (reads_encodeBulkString (depth + 1) entry.id) (.cons fields .nil))
  have two : bytes "*2\r\n".toList = Resp.header '*' 2 := by decide
  rw [List.flatten_cons, List.flatten_singleton] at both
  rw [encodeStreamEntry, String.append_assoc, String.append_assoc, String.toList_append, bytes_append,
    String.toList_append, bytes_append, two]
  exact both

theorem reads_encodeStreamEntries (depth : Nat) (entries : List StreamEntry) :
    Resp.Reads (depth + 3) (bytes (encodeStreamEntries entries).toList)
      (.array (entries.map fun entry => entryReply entry.id entry.fields)) := by
  rw [encodeStreamEntries, String.toList_append, bytes_append, bytes_arrayHeader, bytes_join, List.map_map,
    Function.comp_def, ← List.length_map (f := fun entry : StreamEntry => entryReply entry.id entry.fields)]
  exact Resp.reads_array (forall₂_map (reads_encodeStreamEntry depth) entries)

/-- **`XRANGE` gives back what was added.** After any calls a client reads one entry for each call with
this topic, in order, with its fields and an id of its own; calls with other topics make no difference. -/
theorem read_xrange (calls : List Xadd) (messages connections : List String) (topic : String) (others : List String)
    (depth : Nat) :
    let reply := fun calls => (executeCommand pubsubMessages (.fromParts "XRANGE" (topic :: others))
      (runXadds pubsubMessages calls ⟨default, messages, connections⟩)).1
    (∃ ids : List String, ids.Nodup ∧ ids.length = (calls.filter fun x => x.topic = topic).length ∧
      Resp.read (depth + 3) (bytes (reply calls).toList) =
        some (.array (List.zipWith entryReply ids ((calls.filter fun x => x.topic = topic).map Xadd.fields)), [])) ∧
      reply calls = reply (calls.filter fun x => x.topic = topic) := by
  have command : Command.fromParts "XRANGE" (topic :: others) = .Xrange topic := by simp [Command.fromParts]
  have text : ∀ calls, (executeCommand pubsubMessages (.fromParts "XRANGE" (topic :: others))
      (runXadds pubsubMessages calls ⟨default, messages, connections⟩)).1 =
        encodeStreamEntries ((StreamState.run default (calls.map Xadd.push)).all topic) := by
    intro calls
    rw [command, ← streamState_runXadds pubsubMessages calls ⟨default, messages, connections⟩]
    rfl
  have here : ((calls.map Xadd.push).filter fun p => p.topic = topic) =
      (calls.filter fun x => x.topic = topic).map Xadd.push := List.filter_map
  have fields : (StreamState.pushed topic default (calls.map Xadd.push)).map StreamEntry.fields =
      (calls.filter fun x => x.topic = topic).map Xadd.fields := by
    rw [StreamState.fields_pushed, here, List.map_map]
    rfl
  have entries : (StreamState.run default (calls.map Xadd.push)).all topic =
      StreamState.pushed topic default (calls.map Xadd.push) := StreamState.all_run default topic _
  have nodup := (StreamState.numbered_default.run (calls.map Xadd.push)).nodup_ids topic
  rw [entries] at nodup
  intro reply
  constructor
  · refine ⟨_, nodup, ?_, ?_⟩
    · have length := congrArg List.length fields
      rw [List.length_map, List.length_map] at length
      rw [List.length_map, length]
    · have whole := reads_encodeStreamEntries depth (StreamState.pushed topic default (calls.map Xadd.push)) []
      rw [List.append_nil, ← entries, ← text, entries] at whole
      rw [← fields, List.zipWith_map, List.zipWith_self]
      exact whole
  · show (executeCommand _ _ _).1 = (executeCommand _ _ _).1
    rw [text, text, ← here]
    exact congrArg encodeStreamEntries (StreamState.all_run_filter rfl _)

end Running

end PubSub.Redis.TestingUtils
