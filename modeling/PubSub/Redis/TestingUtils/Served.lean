import PubSub.Base.Progress
import PubSub.Redis.TestingUtils.MockServer

/-!
# What the clients of the mock server get

However the connections interleave, the server behaves as if the commands had been run one at a time,
in the order in which they took effect: each connection is answered for its own commands, in the order
in which it sent them, and all commands that were read are answered without anything else happening.
-/

namespace PubSub.Redis.TestingUtils
set_option autoImplicit false
open Base Base.Text

/-! ## One command at a time -/

section Serial

variable (pubsubMessages : Table String (List String))

/-- What `execute_command` answers, and the streams afterwards. -/
def respond (command : Command) (streams : StreamState) : String × StreamState :=
  let done := executeCommand pubsubMessages command ⟨streams, [], []⟩
  (done.1, done.2.streamState)

/-- A command depends on the streams, and sends its message besides. -/
theorem executeCommand_eq (command : Command) (server : Server) : executeCommand pubsubMessages command server =
    ((respond pubsubMessages command server.streamState).1,
      { server with
        streamState := (respond pubsubMessages command server.streamState).2
        messages := server.messages ++ command.broadcastPayload.toList }) := by
  cases command <;> simp [executeCommand, respond, Command.broadcastPayload]

theorem readsAll_respond (depth : Nat) (command : Command) (streams : StreamState) :
    Resp.ReadsAll (depth + 5) (bytes (respond pubsubMessages command streams).1.toList)
      (command.replies pubsubMessages streams) :=
  readsAll_executeCommand pubsubMessages depth command ⟨streams, [], []⟩

/-- The streams after commands that take effect one after the other. -/
def streamsAfter (streams : StreamState) (performed : List (Nat × Command)) : StreamState :=
  performed.foldl (fun streams e => (respond pubsubMessages e.2 streams).2) streams

/-- The commands of a connection. -/
def commandsOf (c : Nat) (performed : List (Nat × Command)) : List Command :=
  (performed.filter fun e => e.1 = c).map Prod.snd

/-- What the commands of a connection are answered, each with the streams it finds. -/
def answersTo {β : Type} (answer : Command → StreamState → List β) (c : Nat) :
    StreamState → List (Nat × Command) → List β
  | _, [] => []
  | streams, e :: performed =>
    (if e.1 = c then answer e.2 streams else []) ++
      answersTo answer c (respond pubsubMessages e.2 streams).2 performed

variable {pubsubMessages} {β : Type} {answer : Command → StreamState → List β}

theorem streamsAfter_append (streams : StreamState) (performed others : List (Nat × Command)) :
    streamsAfter pubsubMessages streams (performed ++ others) =
      streamsAfter pubsubMessages (streamsAfter pubsubMessages streams performed) others := List.foldl_append

theorem streamsAfter_concat (streams : StreamState) (performed : List (Nat × Command)) (e : Nat × Command) :
    streamsAfter pubsubMessages streams (performed ++ [e]) =
      (respond pubsubMessages e.2 (streamsAfter pubsubMessages streams performed)).2 := by
  rw [streamsAfter_append]
  rfl

theorem commandsOf_append (c : Nat) (performed others : List (Nat × Command)) :
    commandsOf c (performed ++ others) = commandsOf c performed ++ commandsOf c others := by
  rw [commandsOf, List.filter_append, List.map_append]
  rfl

theorem commandsOf_concat (c : Nat) (performed : List (Nat × Command)) (e : Nat × Command) :
    commandsOf c (performed ++ [e]) = commandsOf c performed ++ if e.1 = c then [e.2] else [] := by
  rw [commandsOf_append]
  congr 1
  rw [commandsOf, List.filter_singleton]
  by_cases mine : e.1 = c
  · simp [mine]
  · simp [mine]

theorem answersTo_append (c : Nat) (streams : StreamState) (performed others : List (Nat × Command)) :
    answersTo pubsubMessages answer c streams (performed ++ others) =
      answersTo pubsubMessages answer c streams performed ++
        answersTo pubsubMessages answer c (streamsAfter pubsubMessages streams performed) others := by
  induction performed generalizing streams with
  | nil => rfl
  | cons d performed ih =>
    rw [List.cons_append, answersTo, ih, answersTo, List.append_assoc]
    rfl

theorem answersTo_concat (c : Nat) (streams : StreamState) (performed : List (Nat × Command)) (e : Nat × Command) :
    answersTo pubsubMessages answer c streams (performed ++ [e]) =
      answersTo pubsubMessages answer c streams performed ++
        if e.1 = c then answer e.2 (streamsAfter pubsubMessages streams performed) else [] := by
  rw [answersTo_append, answersTo, answersTo, List.append_nil]

/-- Nothing is answered to a connection that has run nothing. -/
theorem answersTo_of_absent {c : Nat} {performed : List (Nat × Command)} (absent : ∀ e ∈ performed, e.1 ≠ c)
    (streams : StreamState) : answersTo pubsubMessages answer c streams performed = [] := by
  induction performed generalizing streams with
  | nil => rfl
  | cons e performed ih =>
    obtain ⟨first, others⟩ := List.forall_mem_cons.1 absent
    rw [answersTo, if_neg first, ih others, List.nil_append]

theorem commandsOf_of_absent {c : Nat} {performed : List (Nat × Command)} (absent : ∀ e ∈ performed, e.1 ≠ c) :
    commandsOf c performed = [] := by
  rw [commandsOf, List.map_eq_nil_iff, List.filter_eq_nil_iff]
  exact fun e here same => absent e here (of_decide_eq_true same)

variable (pubsubMessages) in
/-- The response to a command, and the replies that a client reads. -/
def responseTo (command : Command) (streams : StreamState) : List String :=
  [(respond pubsubMessages command streams).1]

variable (pubsubMessages) in
def repliesTo (command : Command) (streams : StreamState) : List Resp.Reply :=
  command.replies pubsubMessages streams

/-- The responses to a connection are read as the replies to its commands. -/
theorem readsAll_answersTo (depth c : Nat) (streams : StreamState) (performed : List (Nat × Command)) :
    Resp.ReadsAll (depth + 5)
      (bytes (String.join (answersTo pubsubMessages (responseTo pubsubMessages) c streams performed)).toList)
      (answersTo pubsubMessages (repliesTo pubsubMessages) c streams performed) := by
  induction performed generalizing streams with
  | nil => exact Resp.readsAll_nil _
  | cons e performed ih =>
    rw [answersTo, answersTo]
    split
    · rw [responseTo, List.singleton_append, String.join_cons, bytes_string_append]
      exact (readsAll_respond pubsubMessages depth e.2 streams).append (ih _)
    · rw [List.nil_append, List.nil_append]
      exact ih _

end Serial

namespace MockServer

/-! ## The invariant of every run -/

/-- The commands that were read and have not taken effect. -/
def Serving.ahead (sv : Serving) : List Command :=
  match sv.running with
  | some (.described command) => command :: sv.commands
  | _ => sv.commands

/-- The response of the command that has taken effect and is not answered yet. -/
def Serving.answering (sv : Serving) : List String :=
  match sv.running with
  | some (.performed response _) => [response]
  | _ => []

section Runs

variable [Uppercase] [Allocator] (pubsubMessages : Table String (List String))

/-- What a connection has received, run and answered. -/
structure Serving.Accounted (performed : List (Nat × Command)) (c : Nat) (sv : Serving) : Prop where
  parsed : Parser.drain parseFrame sv.received = .ok (commandsOf c performed ++ sv.ahead, sv.pending)
  answered : sv.written ++ sv.responses ++ sv.answering =
    answersTo pubsubMessages (responseTo pubsubMessages) c default performed

structure Invariant (s : State) : Prop where
  streams : s.server.streamState = streamsAfter pubsubMessages default s.performed
  known : ∀ e ∈ s.performed, e.1 < s.nextConnection
  numbered : ∀ c sv, s.serving.lookup c = some sv → c < s.nextConnection
  accounted : ∀ c sv, s.serving.lookup c = some sv → sv.Accounted pubsubMessages s.performed c

variable {pubsubMessages} {s s' : State} {a : Action} {c : Nat} {sv sv' : Serving}

theorem invariant_init : Invariant pubsubMessages init where
  streams := rfl
  known := nofun
  numbered _ _ open' := by cases open'
  accounted _ _ open' := by cases open'

/-- A step of one connection that lets no command take effect. -/
theorem Invariant.insert (inv : Invariant pubsubMessages s) (open' : s.serving.lookup c = some sv)
    (streams : s'.server.streamState = s.server.streamState) (performed : s'.performed = s.performed)
    (next : s'.nextConnection = s.nextConnection) (serving : s'.serving = s.serving.insert c sv')
    (accounted : sv'.Accounted pubsubMessages s.performed c) : Invariant pubsubMessages s' := by
  refine ⟨?_, ?_, ?_, ?_⟩
  · rw [streams, performed]
    exact inv.streams
  · rw [performed, next]
    exact inv.known
  · intro d dv there
    rw [next]
    rw [serving, Table.lookup_insert_eq_ite] at there
    split at there
    · subst_vars
      exact inv.numbered _ sv open'
    · exact inv.numbered d dv there
  · intro d dv there
    rw [performed]
    rw [serving, Table.lookup_insert_eq_ite] at there
    split at there
    · cases there
      subst_vars
      exact accounted
    · exact inv.accounted d dv there

theorem Invariant.erase (inv : Invariant pubsubMessages s) (c : Nat) :
    Invariant pubsubMessages { s with serving := s.serving.erase c } := by
  have kept : ∀ d dv, (s.serving.erase c).lookup d = some dv → s.serving.lookup d = some dv := by
    intro d dv there
    rw [Table.lookup_erase_eq_ite] at there
    split at there
    · cases there
    · exact there
  exact ⟨inv.streams, inv.known, fun d dv there => inv.numbered d dv (kept d dv there),
    fun d dv there => inv.accounted d dv (kept d dv there)⟩

theorem read_eq_drain (sv : Serving) (bytes : List UInt8) : sv.read bytes =
    (Parser.drain parseFrame (sv.pending ++ lossy bytes)).map fun d =>
      { sv with pending := d.2, commands := d.1, received := sv.received ++ lossy bytes } := by
  rw [Serving.read]
  refine Eq.trans (parsePending_eq_drain (β := Serving) (sv.pending ++ lossy bytes) fun commands pending =>
    .ok { sv with pending, commands, received := sv.received ++ lossy bytes }) ?_
  cases Parser.drain parseFrame (sv.pending ++ lossy bytes) with
  | error e => rfl
  | ok d => rfl

theorem Invariant.read (inv : Invariant pubsubMessages s) (open' : s.serving.lookup c = some sv) (waits : sv.waits)
    {bytes : List UInt8} (parsed : sv.read bytes = .ok sv') :
    Invariant pubsubMessages { s with serving := s.serving.insert c sv' } := by
  obtain ⟨before, answered⟩ := inv.accounted c sv open'
  obtain ⟨done, idle, -⟩ := waits
  have ahead : sv.ahead = [] := by rw [Serving.ahead, idle, done]
  rw [read_eq_drain] at parsed
  cases drained : Parser.drain parseFrame (sv.pending ++ lossy bytes) with
  | error e =>
    rw [drained] at parsed
    cases parsed
  | ok d =>
    rw [drained] at parsed
    cases parsed
    refine inv.insert open' rfl rfl rfl rfl ⟨?_, ?_⟩
    · rw [ahead, List.append_nil] at before
      rw [Parser.drain_append consuming_parseFrame stable_parseFrame, before]
      dsimp only
      rw [drained, Serving.ahead, idle]
      rfl
    · rw [Serving.answering, idle] at answered ⊢
      exact answered

theorem Invariant.accept (inv : Invariant pubsubMessages s) : Invariant pubsubMessages
    { s with serving := s.serving.insert s.nextConnection .new, nextConnection := s.nextConnection + 1 } := by
  have absent : ∀ e ∈ s.performed, e.1 ≠ s.nextConnection := fun e here => Nat.ne_of_lt (inv.known e here)
  refine ⟨inv.streams, fun e here => Nat.lt_succ_of_lt (inv.known e here), ?_, ?_⟩
  · intro d dv there
    rw [Table.lookup_insert_eq_ite] at there
    split at there
    · subst_vars
      exact Nat.lt_succ_self _
    · exact Nat.lt_succ_of_lt (inv.numbered d dv there)
  · intro d dv there
    rw [Table.lookup_insert_eq_ite] at there
    split at there
    · cases there
      subst_vars
      refine ⟨?_, ?_⟩
      · rw [commandsOf_of_absent absent]
        exact Parser.drain_of_none parseFrame_nil
      · rw [answersTo_of_absent absent]
        rfl
    · exact inv.accounted d dv there

theorem Invariant.perform (inv : Invariant pubsubMessages s) (open' : s.serving.lookup c = some sv)
    {command : Command} (running : sv.running = some (.described command)) :
    Invariant pubsubMessages (s.perform pubsubMessages c sv command) := by
  rw [State.perform, executeCommand_eq]
  refine ⟨?_, ?_, ?_, ?_⟩
  · rw [streamsAfter_concat, ← inv.streams]
  · intro e here
    rcases List.mem_append.1 here with before | last
    · exact inv.known e before
    · rw [List.mem_singleton.1 last]
      exact inv.numbered c sv open'
  · intro d dv there
    rw [Table.lookup_insert_eq_ite] at there
    split at there
    · subst_vars
      exact inv.numbered _ sv open'
    · exact inv.numbered d dv there
  · intro d dv there
    rw [Table.lookup_insert_eq_ite] at there
    split at there
    · cases there
      subst_vars
      obtain ⟨parsed, answered⟩ := inv.accounted _ sv open'
      refine ⟨?_, ?_⟩
      · rw [commandsOf_concat, if_pos rfl, List.append_assoc]
        rw [Serving.ahead, running] at parsed
        exact parsed
      · rw [answersTo_concat, if_pos rfl, ← answered, ← inv.streams]
        rw [Serving.answering, Serving.answering, running, List.append_nil]
        rfl
    · rename_i other
      obtain ⟨parsed, answered⟩ := inv.accounted d dv there
      refine ⟨?_, ?_⟩
      · rw [commandsOf_concat, if_neg (Ne.symm other), List.append_nil]
        exact parsed
      · rw [answersTo_concat, if_neg (Ne.symm other), List.append_nil]
        exact answered

variable [Debug String]

theorem Invariant.step (inv : Invariant pubsubMessages s) (taken : Step pubsubMessages s a s') :
    Invariant pubsubMessages s' := by
  cases taken with
  | accept => exact inv.accept
  | read open' waits _ parsed => exact inv.read open' waits parsed
  | panic open' _ _ _ _ => exact inv.erase _
  | @describe c sv command commands open' idle next =>
    obtain ⟨parsed, answered⟩ := inv.accounted c sv open'
    refine inv.insert open' rfl rfl rfl rfl ⟨?_, ?_⟩
    · rw [Serving.ahead, idle, next] at parsed
      exact parsed
    · rw [Serving.answering, idle] at answered
      exact answered
  | perform open' running => exact inv.perform open' running
  | @answer c sv response payload open' running =>
    obtain ⟨parsed, answered⟩ := inv.accounted c sv open'
    refine inv.insert open' rfl rfl rfl rfl ⟨?_, ?_⟩
    · rw [Serving.ahead, running] at parsed
      exact parsed
    · rw [Serving.answering, running] at answered
      rw [← answered, Serving.answering, List.append_nil, List.append_assoc]
  | @write c sv open' done idle some =>
    obtain ⟨parsed, answered⟩ := inv.accounted c sv open'
    refine inv.insert open' rfl rfl rfl rfl ⟨parsed, ?_⟩
    rw [Serving.answering, idle] at answered ⊢
    rw [← answered, List.append_nil]
  | close open' _ _ => exact inv.erase _

theorem invariant_of_reachable (reached : (system pubsubMessages).Reachable s) : Invariant pubsubMessages s :=
  Lts.Reachable.invariant (M := system pubsubMessages) invariant_init
    (fun _ _ _ _ inv taken => inv.step (.of_step taken)) s reached

/-! ## Answers -/

omit [Debug String] in
theorem drain_encodeCommands (vs : List TokenVec) :
    Parser.drain parseFrame (encodeCommands vs) = .ok (vs.map TokenVec.command, []) := by
  induction vs with
  | nil => exact Parser.drain_of_none parseFrame_nil
  | cons v vs ih =>
    have first : parseFrame (encodeCommands (v :: vs)) = .ok (some (v.command, encodeCommands vs)) := by
      rw [encodeCommands_cons]
      exact parseFrame_eq_some_iff.2 ⟨_, frame_encodeCommand v _, rfl⟩
    rw [Parser.drain_of_item consuming_parseFrame first, ih]
    rfl

omit [Debug String] in
/-- Of a connection that waits, all commands have been run and answered. -/
theorem Serving.Accounted.of_waits {performed : List (Nat × Command)}
    (accounted : sv.Accounted pubsubMessages performed c) (waits : sv.waits) :
    Parser.drain parseFrame sv.received = .ok (commandsOf c performed, sv.pending) ∧
      sv.written = answersTo pubsubMessages (responseTo pubsubMessages) c default performed := by
  obtain ⟨parsed, answered⟩ := accounted
  obtain ⟨done, idle, none⟩ := waits
  rw [Serving.ahead, idle, done, List.append_nil] at parsed
  rw [Serving.answering, idle, none, List.append_nil, List.append_nil] at answered
  exact ⟨parsed, answered⟩

/-- **Clients are served one command at a time.** In every reachable state the streams are those that
the commands leave which have taken effect, run one after the other; and a connection that waits for
input has run exactly the commands in the text it has received (the ones the client encoded, if that is
what it sent), and has written what is read as their replies, each to the streams at its turn. -/
theorem clients_are_served (reached : (system pubsubMessages).Reachable s) (depth : Nat) :
    s.server.streamState = streamsAfter pubsubMessages default s.performed ∧
      ∀ c sv, s.serving.lookup c = some sv → sv.waits →
        Parser.drain parseFrame sv.received = .ok (commandsOf c s.performed, sv.pending) ∧
          (∀ vs, sv.received = encodeCommands vs → commandsOf c s.performed = vs.map TokenVec.command) ∧
          Resp.ReadsAll (depth + 5) (bytes (String.join sv.written).toList)
            (answersTo pubsubMessages (repliesTo pubsubMessages) c default s.performed) := by
  have inv := invariant_of_reachable reached
  refine ⟨inv.streams, fun c sv open' waits => ?_⟩
  obtain ⟨parsed, answered⟩ := (inv.accounted c sv open').of_waits waits
  refine ⟨parsed, fun vs sent => ?_, ?_⟩
  · rw [sent, drain_encodeCommands] at parsed
    exact (congrArg Prod.fst (Except.ok.inj parsed)).symm
  · rw [answered]
    exact readsAll_answersTo depth c default s.performed

end Runs

section Concrete

open Concrete

/-- The second client is served between the two commands of the first, one of which arrives in two reads. -/
def twoClients : List Action :=
  [.accept, .accept, .read 0 (bytes "*3\r\n$7\r\nPUBLISH\r\n$1\r\nt\r\n$1\r\na\r\nPI".toList),
    .read 1 (bytes "*5\r\n$4\r\nXADD\r\n$1\r\nt\r\n$1\r\n*\r\n$1\r\nk\r\n$1\r\nb\r\n".toList),
    .describe 0, .describe 1, .perform 1, .perform 0, .answer 0, .write 0, .read 0 (bytes "NG\r\n".toList),
    .answer 1, .write 1, .describe 0, .perform 0, .answer 0, .write 0]

theorem clients_are_served_twoClients : ∃ s, (system ∅).exec init twoClients = some s ∧
    s.performed = [(1, .Xadd "t" [("k", "b")]), (0, .Publish "t" "a"), (0, .Unknown "PING" [])] ∧
    s.server.streamState = streamsAfter ∅ default s.performed ∧
      ∀ c sv, s.serving.lookup c = some sv → sv.waits →
        Parser.drain parseFrame sv.received = .ok (commandsOf c s.performed, sv.pending) ∧
          (∀ vs, sv.received = encodeCommands vs → commandsOf c s.performed = vs.map TokenVec.command) ∧
          Resp.ReadsAll 5 (bytes (String.join sv.written).toList)
            (answersTo ∅ (repliesTo ∅) c default s.performed) := by
  have ends : ((system ∅).exec init twoClients).map State.performed =
      some [(1, .Xadd "t" [("k", "b")]), (0, .Publish "t" "a"), (0, .Unknown "PING" [])] := by decide +kernel
  obtain ⟨s, run, performed⟩ := Option.map_eq_some_iff.1 ends
  exact ⟨s, run, performed, clients_are_served ⟨twoClients, run⟩ 0⟩

end Concrete

/-! ## Rest -/

/-- The steps that the server takes by itself. -/
def Action.internal : Action → Prop
  | .describe _ | .perform _ | .answer _ | .write _ => True
  | _ => False

section Rest

variable [Uppercase] [Allocator] [Debug String] {pubsubMessages : Table String (List String)} {s s' : State} {c : Nat}
  {sv sv' : Serving}

/-- How many steps a connection can take at most before it waits. -/
def Serving.work (sv : Serving) : Nat :=
  4 * sv.commands.length + sv.responses.length + match sv.running with
    | none => 0
    | some (.described _) => 3
    | some (.performed _ _) => 2

def State.work (s : State) : Nat := s.serving.total Serving.work

omit [Uppercase] [Allocator] [Debug String] in
/-- A step of one connection that brings it closer to waiting. -/
theorem work_insert_lt (open' : s.serving.lookup c = some sv) (serving : s'.serving = s.serving.insert c sv')
    (less : sv'.work < sv.work) : s'.work < s.work := by
  rw [State.work, State.work, serving, Table.total_insert, Table.total_of_lookup open']
  omega

theorem decreasing : (system pubsubMessages).Decreasing Action.internal (fun _ => True) State.work := by
  refine ⟨fun _ _ _ _ _ _ => trivial, fun s a s' _ own taken => ?_⟩
  cases Step.of_step taken with
  | accept => cases own
  | read => cases own
  | panic => cases own
  | close => cases own
  | @describe c sv command commands open' idle next =>
    refine work_insert_lt open' rfl ?_
    simp only [Serving.work, idle, next, List.length_cons]
    omega
  | @perform c sv command open' running =>
    have serving : (s.perform pubsubMessages c sv command).serving = s.serving.insert c { sv with
      running := some (.performed (executeCommand pubsubMessages command s.server).1 command.broadcastPayload) } := rfl
    refine work_insert_lt open' serving ?_
    simp only [Serving.work, running]
    omega
  | @answer c sv response payload open' running =>
    refine work_insert_lt open' rfl ?_
    simp only [Serving.work, running, List.length_append, List.length_singleton]
    omega
  | @write c sv open' done idle some =>
    refine work_insert_lt open' rfl ?_
    have := List.length_pos_iff.2 some
    simp only [Serving.work, done, idle, List.length_nil]
    omega

/-- A connection that cannot take a step waits. -/
theorem waits_of_atRest (rest : (system pubsubMessages).AtRest Action.internal s)
    (open' : s.serving.lookup c = some sv) : sv.waits := by
  have describe := rest (.describe c) trivial
  have perform := rest (.perform c) trivial
  have answer := rest (.answer c) trivial
  have write := rest (.write c) trivial
  simp only [system, step, open', Option.bind_some] at describe perform answer write
  have idle : sv.running = none := by
    cases running : sv.running with
    | none => rfl
    | some r =>
      cases r with
      | described command =>
        rw [running] at perform
        cases perform
      | performed response payload =>
        rw [running] at answer
        cases answer
  have done : sv.commands = [] := by
    cases next : sv.commands with
    | nil => rfl
    | cons command commands =>
      rw [idle, next] at describe
      cases describe
  refine ⟨done, idle, ?_⟩
  cases some : sv.responses with
  | nil => rfl
  | cons response responses =>
    rw [done, idle, some] at write
    cases write

/-- **Every command that was read is answered.** Whatever the order of their steps, the connections come
to rest by themselves, after no more steps than there is work, and they can; then each of them waits. -/
theorem comes_to_rest (s : State) :
    (∀ as s', (∀ a ∈ as, a.internal) → (system pubsubMessages).exec s as = some s' → as.length ≤ s.work ∧
      ((system pubsubMessages).AtRest Action.internal s' → ∀ c sv, s'.serving.lookup c = some sv → sv.waits)) ∧
      ∃ as s', (∀ a ∈ as, a.internal) ∧ (system pubsubMessages).exec s as = some s' ∧
        (system pubsubMessages).AtRest Action.internal s' := by
  refine ⟨fun as s' own run => ⟨?_, fun rest c sv open' => waits_of_atRest rest open'⟩,
    decreasing.exists_atRest trivial⟩
  have bound := decreasing.length_le trivial own run
  omega

end Rest

end MockServer

end PubSub.Redis.TestingUtils
