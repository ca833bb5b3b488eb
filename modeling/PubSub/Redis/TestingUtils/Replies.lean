import PubSub.Redis.TestingUtils.Xadd

/-!
# What a client reads in answer to a command

The replies of every command as a reader of RESP2 gets them. All commands have one reply, but for
`SUBSCRIBE`, which has a confirmation for each topic and then the messages kept for the topics.
-/

namespace PubSub.Redis.TestingUtils
set_option autoImplicit false
open Base Base.Text

/-- The confirmation of the topic with this index. -/
def confirmationReply (index : Nat) (topic : String) : Resp.Reply :=
  .array [bulkReply "subscribe", bulkReply topic, .integer (index + 1 : Nat)]

def messageReply (topic payload : String) : Resp.Reply :=
  .array [bulkReply "message", bulkReply topic, bulkReply payload]

def entriesReply (entries : List StreamEntry) : Resp.Reply :=
  .array (entries.map fun entry => entryReply entry.id entry.fields)

def okReply : Resp.Reply := .simple (bytes "OK".toList)

/-- The replies to a command that is run with these streams. -/
def Command.replies (pubsubMessages : Table String (List String)) (streams : StreamState) : Command → List Resp.Reply
  | .Client _ | .Unknown _ _ => [okReply]
  | .Publish _ _ => [.integer 1]
  | .Xadd topic fields => [bulkReply (streams.push topic fields).1]
  | .Xrange topic => [entriesReply (streams.all topic)]
  | .Xread topic lastSeen =>
    if (streams.after topic lastSeen).isEmpty then [.null]
    else [.array [.array [bulkReply topic, entriesReply (streams.after topic lastSeen)]]]
  | .Subscribe topics => topics.mapIdx confirmationReply ++ topics.flatMap fun topic =>
      ((pubsubMessages.lookup topic).getD []).map (messageReply topic)

/-! ## The text of each reply -/

theorem encodeSubscribeConfirmation_eq (topic : String) (count : Nat) : encodeSubscribeConfirmation topic count =
    "*3\r\n" ++ (encodeBulkString "subscribe" ++ (encodeBulkString topic ++ s!":{count}\r\n")) := by
  have start : "*3\r\n$9\r\nsubscribe\r\n$" = "*3\r\n" ++ (encodeBulkString "subscribe" ++ "$") := by decide
  have middle : "\r\n:" = "\r\n" ++ ":" := by decide
  show "*3\r\n$9\r\nsubscribe\r\n$" ++ toString topic.utf8ByteSize ++ "\r\n" ++ topic ++ "\r\n:" ++
    toString count ++ "\r\n" = "*3\r\n" ++ (encodeBulkString "subscribe" ++
      (("$" ++ toString topic.utf8ByteSize ++ "\r\n" ++ topic ++ "\r\n") ++ (":" ++ toString count ++ "\r\n")))
  rw [start, middle]
  simp only [String.append_assoc]

theorem encodePubsubMessage_eq (topic payload : String) : encodePubsubMessage topic payload =
    "*3\r\n" ++ (encodeBulkString "message" ++ (encodeBulkString topic ++ encodeBulkString payload)) := by
  have start : "*3\r\n$7\r\nmessage\r\n$" = "*3\r\n" ++ (encodeBulkString "message" ++ "$") := by decide
  have middle : "\r\n$" = "\r\n" ++ "$" := by decide
  show "*3\r\n$7\r\nmessage\r\n$" ++ toString topic.utf8ByteSize ++ "\r\n" ++ topic ++ "\r\n$" ++
    toString payload.utf8ByteSize ++ "\r\n" ++ payload ++ "\r\n" = "*3\r\n" ++ (encodeBulkString "message" ++
      (("$" ++ toString topic.utf8ByteSize ++ "\r\n" ++ topic ++ "\r\n") ++
        ("$" ++ toString payload.utf8ByteSize ++ "\r\n" ++ payload ++ "\r\n")))
  rw [start, middle]
  simp only [String.append_assoc]

theorem bytes_string_append (s t : String) : bytes (s ++ t).toList = bytes s.toList ++ bytes t.toList := by
  rw [String.toList_append, bytes_append]

/-- An array of three replies. -/
theorem reads_three {depth : Nat} {first second third : List UInt8} {a b c : Resp.Reply}
    (one : Resp.Reads depth first a) (two : Resp.Reads depth second b) (three : Resp.Reads depth third c) :
    Resp.Reads (depth + 1) (bytes "*3\r\n".toList ++ (first ++ (second ++ third))) (.array [a, b, c]) := by
  have header : bytes "*3\r\n".toList = Resp.header '*' 3 := by decide
  have read := Resp.reads_array (.cons one (.cons two (.cons three .nil)))
  rw [List.flatten_cons, List.flatten_cons, List.flatten_singleton] at read
  rw [header]
  exact read

theorem reads_confirmation (depth index : Nat) (topic : String) :
    Resp.Reads (depth + 1) (bytes (encodeSubscribeConfirmation topic (index + 1)).toList)
      (confirmationReply index topic) := by
  have number : bytes s!":{index + 1}\r\n".toList = Resp.header ':' (index + 1) := by
    simp [Resp.header, toString, crlf]
  rw [encodeSubscribeConfirmation_eq, bytes_string_append, bytes_string_append, bytes_string_append, number]
  exact reads_three (reads_encodeBulkString depth _) (reads_encodeBulkString depth _) (Resp.reads_integer depth _)

theorem reads_message (depth : Nat) (topic payload : String) :
    Resp.Reads (depth + 1) (bytes (encodePubsubMessage topic payload).toList) (messageReply topic payload) := by
  rw [encodePubsubMessage_eq, bytes_string_append, bytes_string_append, bytes_string_append]
  exact reads_three (reads_encodeBulkString depth _) (reads_encodeBulkString depth _) (reads_encodeBulkString depth _)

theorem reads_xread (depth : Nat) (topic : String) (entries : List StreamEntry) :
    Resp.Reads (depth + 5) (bytes (encodeXreadResponse topic entries).toList)
      (.array [.array [bulkReply topic, entriesReply entries]]) := by
  have inner := Resp.reads_array (.cons (reads_encodeBulkString (depth + 3) topic)
    (.cons (reads_encodeStreamEntries depth entries) .nil))
  have outer := Resp.reads_array (.cons inner .nil)
  have headers : bytes "*1\r\n*2\r\n".toList = Resp.header '*' 1 ++ Resp.header '*' 2 := by decide
  rw [List.flatten_singleton, List.flatten_cons, List.flatten_singleton, ← List.append_assoc, ← List.append_assoc] at outer
  rw [encodeXreadResponse, bytes_string_append, bytes_string_append, headers]
  exact outer

/-! ## Every command -/

theorem readsAll_confirmations (depth : Nat) (topics : List String) :
    Resp.ReadsAll (depth + 1) (bytes (String.join (topics.mapIdx fun index topic =>
      encodeSubscribeConfirmation topic (index + 1))).toList) (topics.mapIdx confirmationReply) := by
  have each : ∀ (topics : List String) (n : Nat), Resp.ReadsAll (depth + 1)
      (bytes (String.join (topics.mapIdx fun index topic => encodeSubscribeConfirmation topic (index + n + 1))).toList)
      (topics.mapIdx fun index => confirmationReply (index + n)) := by
    intro topics
    induction topics with
    | nil => exact fun n => Resp.readsAll_nil _
    | cons topic topics ih =>
      intro n
      have later : ∀ index : Nat, index + 1 + n = index + (n + 1) := fun index => by omega
      rw [List.mapIdx_cons, List.mapIdx_cons, String.join_cons, bytes_string_append]
      simp only [later, Nat.zero_add]
      exact (reads_confirmation depth n topic).cons (ih (n + 1))
  exact each topics 0

theorem readsAll_messages (depth : Nat) (topic : String) (payloads : List String) :
    Resp.ReadsAll (depth + 1) (bytes (String.join (payloads.map (encodePubsubMessage topic))).toList)
      (payloads.map (messageReply topic)) := by
  induction payloads with
  | nil => exact Resp.readsAll_nil _
  | cons payload payloads ih =>
    rw [List.map_cons, String.join_cons, bytes_string_append, List.map_cons]
    exact (reads_message depth topic payload).cons ih

variable (pubsubMessages : Table String (List String))

theorem readsAll_subscribe (depth : Nat) (topics : List String) :
    Resp.ReadsAll (depth + 1) (bytes (subscribeResponse pubsubMessages topics).toList)
      (topics.mapIdx confirmationReply ++ topics.flatMap fun topic =>
        ((pubsubMessages.lookup topic).getD []).map (messageReply topic)) := by
  rw [subscribeResponse, bytes_string_append]
  apply (readsAll_confirmations depth topics).append
  induction topics with
  | nil => exact Resp.readsAll_nil _
  | cons topic topics ih =>
    rw [List.map_cons, String.join_cons, bytes_string_append, List.flatMap_cons]
    exact (readsAll_messages depth topic _).append ih

/-- **Every response is read as the replies to its command**, whatever the command and the streams contain. -/
theorem readsAll_executeCommand (depth : Nat) (command : Command) (server : Server) :
    Resp.ReadsAll (depth + 5) (bytes (executeCommand pubsubMessages command server).1.toList)
      (command.replies pubsubMessages server.streamState) := by
  have ok : Resp.ReadsAll (depth + 5) (bytes "+OK\r\n".toList) [okReply] :=
    (@Resp.reads_simple _ "OK".toList (by decide)).single
  cases command with
  | Client args => exact ok
  | Unknown name args => exact ok
  | Publish topic payload =>
    have one : bytes ":1\r\n".toList = Resp.header ':' 1 := by decide
    have read := (Resp.reads_integer (depth + 5) 1).single
    rw [← one] at read
    exact read
  | Xadd topic fields => exact (reads_encodeBulkString _ _).single
  | Xrange topic => exact (reads_encodeStreamEntries (depth + 2) _).single
  | Xread topic lastSeen =>
    rw [executeCommand, Command.replies]
    dsimp only
    split
    · exact (Resp.reads_null _).single
    · exact (reads_xread depth topic _).single
  | Subscribe topics => exact readsAll_subscribe pubsubMessages (depth + 4) topics

end PubSub.Redis.TestingUtils
