import PubSub.Base.Lts
import PubSub.Redis.TestingUtils.Chunks
import PubSub.Redis.TestingUtils.Replies

/-!
# The mock server and its connections

The tasks that `listen_for_requests` spawns, one for each connection, on the streams and the two
broadcast channels that they share. A task reads and parses, then runs the commands one after the other,
then writes their responses. The tasks interleave between the steps of a command: its text is sent to
the listeners for commands; it takes effect under the lock of the streams; its message is sent to the
listeners for messages and its response is kept.
-/

namespace PubSub.Redis.TestingUtils
set_option autoImplicit false
open Base Base.Text

/-- What a command sends to the listeners for messages. -/
def Command.broadcastPayload : Command → Option String
  | .Publish _ payload => some payload
  | .Xadd _ fields => some (" ".intercalate (fields.map Prod.snd))
  | _ => none

namespace MockServer

/-- How far the command is that a connection runs. -/
inductive Running where
  /-- its text has been sent -/
  | described (command : Command)
  /-- it has taken effect, but not sent its message -/
  | performed (response : String) (payload : Option String)

/-- A call of `handle_connection`. -/
structure Serving where
  pending : List Char
  /-- The parsed commands that come next. -/
  commands : List Command
  running : Option Running
  /-- The responses that have not been written yet. -/
  responses : List String
  written : List String
  /-- History: all text received. -/
  received : List Char

/-- A connection that was just accepted. -/
def Serving.new : Serving := ⟨[], [], none, [], [], []⟩

structure State where
  server : Server
  serving : Table Nat Serving
  nextConnection : Nat
  /-- History: the commands in the order in which they took effect, with their connections. -/
  performed : List (Nat × Command)

def init : State := ⟨⟨default, [], []⟩, ∅, 0, []⟩

inductive Action where
  /-- a client connects -/
  | accept
  /-- the call of `read_stream` that reads these bytes -/
  | read (c : Nat) (bytes : List UInt8)
  /-- the next command is sent to the listeners for commands -/
  | describe (c : Nat)
  /-- the command takes effect -/
  | perform (c : Nat)
  /-- its message is sent to the listeners for messages, and `execute_command` returns -/
  | answer (c : Nat)
  /-- all responses are written -/
  | write (c : Nat)
  /-- the task ends between two calls of `read_stream`, or in a write that fails -/
  | close (c : Nat)

section System

variable [Uppercase] [Allocator] [Debug String] (pubsubMessages : Table String (List String))

/-- Read and parse. -/
def Serving.read (sv : Serving) (bytes : List UInt8) : Except Failure Serving := do
  let pending := sv.pending ++ lossy bytes
  let (commands, consumed) ← parseRespCommands pending
  let pending ← if 0 < consumed then sliceFrom consumed pending else pure pending
  return { sv with pending, commands, received := sv.received ++ lossy bytes }

/-- The task waits for input. -/
def Serving.waits (sv : Serving) : Prop := sv.commands = [] ∧ sv.running = none ∧ sv.responses = []

/-- A panic ends the task. An allocation that fails ends the process, after which there is no state. -/
def State.read (s : State) (c : Nat) (sv : Serving) (bytes : List UInt8) : Option State :=
  match sv.read bytes with
  | .ok sv => some { s with serving := s.serving.insert c sv }
  | .error .allocation => none
  | .error _ => some { s with serving := s.serving.erase c }

def State.describe (s : State) (c : Nat) (sv : Serving) (command : Command) (commands : List Command) : State :=
  { s with
    server := { s.server with connections := s.server.connections ++ [command.describe] }
    serving := s.serving.insert c { sv with commands, running := some (.described command) } }

/-- The part of `execute_command` under the lock. -/
def State.perform (s : State) (c : Nat) (sv : Serving) (command : Command) : State :=
  let (response, after) := executeCommand pubsubMessages command s.server
  { s with
    server := { s.server with streamState := after.streamState }
    serving := s.serving.insert c { sv with running := some (.performed response command.broadcastPayload) }
    performed := s.performed ++ [(c, command)] }

def State.answer (s : State) (c : Nat) (sv : Serving) (response : String) (payload : Option String) : State :=
  { s with
    server := { s.server with messages := s.server.messages ++ payload.toList }
    serving := s.serving.insert c { sv with running := none, responses := sv.responses ++ [response] } }

def State.write (s : State) (c : Nat) (sv : Serving) : State :=
  { s with serving := s.serving.insert c { sv with responses := [], written := sv.written ++ sv.responses } }

def step (s : State) : Action → Option State
  | .accept => some
      { s with serving := s.serving.insert s.nextConnection .new, nextConnection := s.nextConnection + 1 }
  | .read c bytes =>
    (s.serving.lookup c).bind fun sv =>
      match sv.commands, sv.running, sv.responses with
      | [], none, [] => if bytes = [] then none else s.read c sv bytes
      | _, _, _ => none
  | .describe c =>
    (s.serving.lookup c).bind fun sv =>
      match sv.running, sv.commands with
      | none, command :: commands => some (s.describe c sv command commands)
      | _, _ => none
  | .perform c =>
    (s.serving.lookup c).bind fun sv =>
      match sv.running with
      | some (.described command) => some (s.perform pubsubMessages c sv command)
      | _ => none
  | .answer c =>
    (s.serving.lookup c).bind fun sv =>
      match sv.running with
      | some (.performed response payload) => some (s.answer c sv response payload)
      | _ => none
  | .write c =>
    (s.serving.lookup c).bind fun sv =>
      match sv.commands, sv.running, sv.responses with
      | [], none, _ :: _ => some (s.write c sv)
      | _, _, _ => none
  | .close c =>
    (s.serving.lookup c).bind fun sv =>
      match sv.commands, sv.running with
      | [], none => some { s with serving := s.serving.erase c }
      | _, _ => none

/-- The mock server, with any number of clients. -/
def system : Lts State Action := ⟨init, step pubsubMessages⟩

/-- What each step needs and does. -/
inductive Step (s : State) : Action → State → Prop where
  | accept : Step s .accept
      { s with serving := s.serving.insert s.nextConnection .new, nextConnection := s.nextConnection + 1 }
  | read {c : Nat} {sv sv' : Serving} {bytes : List UInt8} (open' : s.serving.lookup c = some sv) (waits : sv.waits)
      (some : bytes ≠ []) (parsed : sv.read bytes = .ok sv') :
      Step s (.read c bytes) { s with serving := s.serving.insert c sv' }
  | panic {c : Nat} {sv : Serving} {bytes : List UInt8} (open' : s.serving.lookup c = some sv) (waits : sv.waits)
      (some : bytes ≠ []) {e : Failure} (failed : sv.read bytes = .error e) (panics : e ≠ .allocation) :
      Step s (.read c bytes) { s with serving := s.serving.erase c }
  | describe {c : Nat} {sv : Serving} {command : Command} {commands : List Command}
      (open' : s.serving.lookup c = some sv) (idle : sv.running = none) (next : sv.commands = command :: commands) :
      Step s (.describe c) (s.describe c sv command commands)
  | perform {c : Nat} {sv : Serving} {command : Command} (open' : s.serving.lookup c = some sv)
      (running : sv.running = some (.described command)) :
      Step s (.perform c) (s.perform pubsubMessages c sv command)
  | answer {c : Nat} {sv : Serving} {response : String} {payload : Option String}
      (open' : s.serving.lookup c = some sv) (running : sv.running = some (.performed response payload)) :
      Step s (.answer c) (s.answer c sv response payload)
  | write {c : Nat} {sv : Serving} (open' : s.serving.lookup c = some sv) (done : sv.commands = [])
      (idle : sv.running = none) (some : sv.responses ≠ []) : Step s (.write c) (s.write c sv)
  | close {c : Nat} {sv : Serving} (open' : s.serving.lookup c = some sv) (done : sv.commands = [])
      (idle : sv.running = none) : Step s (.close c) { s with serving := s.serving.erase c }

variable {pubsubMessages} {s s' : State} {a : Action}

theorem Step.of_step (taken : step pubsubMessages s a = some s') : Step pubsubMessages s a s' := by
  cases a with
  | accept =>
    cases taken
    exact .accept
  | read c bytes =>
    obtain ⟨sv, open', taken⟩ := Option.bind_eq_some_iff.1 taken
    split at taken
    · rename_i done idle none
      obtain ⟨nonempty, taken⟩ := Option.ite_none_left_eq_some.1 taken
      unfold State.read at taken
      split at taken
      · cases taken
        exact .read open' ⟨done, idle, none⟩ nonempty ‹_›
      · cases taken
      · cases taken
        exact .panic open' ⟨done, idle, none⟩ nonempty ‹_› ‹_›
    · cases taken
  | describe c =>
    obtain ⟨sv, open', taken⟩ := Option.bind_eq_some_iff.1 taken
    split at taken
    · cases taken
      exact .describe open' ‹_› ‹_›
    · cases taken
  | perform c =>
    obtain ⟨sv, open', taken⟩ := Option.bind_eq_some_iff.1 taken
    split at taken
    · cases taken
      exact .perform open' ‹_›
    · cases taken
  | answer c =>
    obtain ⟨sv, open', taken⟩ := Option.bind_eq_some_iff.1 taken
    split at taken
    · cases taken
      exact .answer open' ‹_›
    · cases taken
  | write c =>
    obtain ⟨sv, open', taken⟩ := Option.bind_eq_some_iff.1 taken
    split at taken
    · rename_i done idle some
      cases taken
      exact .write open' done idle (by rw [some]; exact List.cons_ne_nil _ _)
    · cases taken
  | close c =>
    obtain ⟨sv, open', taken⟩ := Option.bind_eq_some_iff.1 taken
    split at taken
    · cases taken
      exact .close open' ‹_› ‹_›
    · cases taken

end System

end MockServer

end PubSub.Redis.TestingUtils
