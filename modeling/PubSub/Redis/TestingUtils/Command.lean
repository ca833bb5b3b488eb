import PubSub.Message
import PubSub.Redis.TestingUtils.StreamState

/-!
# The commands of the mock server

What a command's tokens mean, what running it does to the streams and to those who listen, and the
reply it is answered with.
-/

namespace PubSub.Redis.TestingUtils
set_option autoImplicit false
open Base

inductive Command where
  | Client (args : List String)
  | Publish (topic payload : String)
  /-- An `XADD` command. `fields` holds the ordered field/value pairs after the entry ID (`*`). -/
  | Xadd (topic : String) (fields : List (String × String))
  | Xrange (topic : String)
  | Xread (topic lastSeen : String)
  | Subscribe (topics : List String)
  | Unknown (name : String) (args : List String)
  deriving DecidableEq

namespace Command

/-- The entry-ID token is either `"*"` or looks like `"N-M"`. -/
def isEntryId (arg : String) : Bool := arg = "*" || arg.toList.contains '-'

/-- Consecutive pairs; an odd token at the end is dropped. -/
def pairs : List String → List (String × String)
  | field :: value :: rest => (field, value) :: pairs rest
  | _ => []

/-- The tokens after the first entry-ID token. -/
def fieldArgs (rest : List String) : List String :=
  rest.drop (((rest.findIdx? isEntryId).map fun i => i + 1).getD rest.length)

/-- The token after the first `"STREAMS"`. -/
def streamsTopic (args : List String) : Option String :=
  (args.findIdx? fun arg => arg = "STREAMS").bind fun i => args[i + 1]?

def fromParts (cmd : String) (args : List String) : Command :=
  if cmd = "CLIENT" then .Client args
  else if cmd = "PUBLISH" ∧ 2 ≤ args.length then .Publish (args.headD "") (args.getLastD "")
  else if cmd = "XADD" ∧ 4 ≤ args.length then .Xadd (args.headD "") (pairs (fieldArgs args.tail))
  else if cmd = "XRANGE" ∧ args ≠ [] then .Xrange (args.headD "")
  else if cmd = "XREAD" then
    match streamsTopic args with
    | some topic => .Xread topic (args.getLastD "$")
    | none => .Unknown cmd args
  else if cmd = "SUBSCRIBE" then .Subscribe args
  else .Unknown cmd args

section Describe

variable [Debug String]

/-- The `Debug` text of a list. -/
def debugList {α : Type} (text : α → String) (items : List α) : String :=
  "[" ++ ", ".intercalate (items.map text) ++ "]"

def debugPair (pair : String × String) : String := s!"({Debug.text pair.1}, {Debug.text pair.2})"

def describe : Command → String
  | .Client args => s!"CLIENT {debugList Debug.text args}"
  | .Publish topic payload => s!"PUBLISH [{Debug.text topic}, {Debug.text payload}]"
  | .Xadd topic fields => s!"XADD [{Debug.text topic}, {debugList debugPair fields}]"
  | .Xrange topic => s!"XRANGE [{Debug.text topic}]"
  | .Xread topic lastSeen => s!"XREAD [{Debug.text topic}, {Debug.text lastSeen}]"
  | .Subscribe topics => s!"SUBSCRIBE {debugList Debug.text topics}"
  | .Unknown name args => s!"{name} {debugList Debug.text args}"

end Describe

end Command

/-! ## Replies -/

def encodeBulkString (value : String) : String := s!"${value.utf8ByteSize}\r\n{value}\r\n"

/-- One entry of `encode_stream_entries`: the field/value pairs are a flat array. -/
def encodeStreamEntry (entry : StreamEntry) : String :=
  "*2\r\n" ++ encodeBulkString entry.id ++ s!"*{entry.fields.length * 2}\r\n" ++
    String.join (entry.fields.map fun f => encodeBulkString f.1 ++ encodeBulkString f.2)

def encodeStreamEntries (entries : List StreamEntry) : String :=
  s!"*{entries.length}\r\n" ++ String.join (entries.map encodeStreamEntry)

def encodeXreadResponse (topic : String) (entries : List StreamEntry) : String :=
  "*1\r\n*2\r\n" ++ encodeBulkString topic ++ encodeStreamEntries entries

def encodeSubscribeConfirmation (topic : String) (subscriptionCount : Nat) : String :=
  s!"*3\r\n$9\r\nsubscribe\r\n${topic.utf8ByteSize}\r\n{topic}\r\n:{subscriptionCount}\r\n"

def encodePubsubMessage (topic payload : String) : String :=
  s!"*3\r\n$7\r\nmessage\r\n${topic.utf8ByteSize}\r\n{topic}\r\n${payload.utf8ByteSize}\r\n{payload}\r\n"

/-! ## Running a command -/

/-- What the connections of a server share: its streams, and what was sent to the listeners for
messages and for commands. -/
structure Server where
  streamState : StreamState
  messages : List String
  connections : List String

/-- What a subscriber is answered: a confirmation for each topic, then the messages kept for them
(that the topic of a message is among those subscribed to need not be asked). -/
def subscribeResponse (pubsubMessages : Table String (List String)) (topics : List String) : String :=
  String.join (topics.mapIdx fun index topic => encodeSubscribeConfirmation topic (index + 1)) ++
    String.join (topics.map fun topic =>
      String.join (((pubsubMessages.lookup topic).getD []).map (encodePubsubMessage topic)))

/-- The reply, and the server afterwards. -/
def executeCommand (pubsubMessages : Table String (List String)) (command : Command) (server : Server) :
    String × Server :=
  match command with
  | .Client _ => ("+OK\r\n", server)
  | .Publish _ payload => (":1\r\n", { server with messages := server.messages ++ [payload] })
  | .Xadd topic fields =>
    -- All field values joined, so `check_for_message` can match any of them.
    let broadcastPayload := " ".intercalate (fields.map Prod.snd)
    let (id, streamState) := server.streamState.push topic fields
    (encodeBulkString id, { server with streamState, messages := server.messages ++ [broadcastPayload] })
  | .Xrange topic => (encodeStreamEntries (server.streamState.all topic), server)
  | .Xread topic lastSeen =>
    let entries := server.streamState.after topic lastSeen
    (if entries.isEmpty then "$-1\r\n" else encodeXreadResponse topic entries, server)
  | .Subscribe topics => (subscribeResponse pubsubMessages topics, server)
  | .Unknown _ _ => ("+OK\r\n", server)

end PubSub.Redis.TestingUtils
