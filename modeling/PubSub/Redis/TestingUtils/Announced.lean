import PubSub.Redis.TestingUtils.Served

/-!
# What the mock server keeps and announces

The streams hold one entry for each `XADD` that took effect, and the listeners are sent the text of each
command and the message of each `PUBLISH` and `XADD` once, whatever the connections do in between.
-/

namespace PubSub.Redis.TestingUtils
set_option autoImplicit false
open Base

/-- The call of `push` that a command makes. -/
def Command.push : Command → Option Push
  | .Xadd topic fields => some ⟨topic, fields⟩
  | _ => none

theorem respond_snd (pubsubMessages : Table String (List String)) (command : Command) (streams : StreamState) :
    (respond pubsubMessages command streams).2 = streams.run command.push.toList := by
  cases command <;> rfl

theorem streamsAfter_eq_run (pubsubMessages : Table String (List String)) (streams : StreamState)
    (performed : List (Nat × Command)) :
    streamsAfter pubsubMessages streams performed = streams.run (performed.filterMap fun e => e.2.push) := by
  induction performed generalizing streams with
  | nil => rfl
  | cons e performed ih =>
    rw [streamsAfter, List.foldl_cons, ← streamsAfter, ih, respond_snd, List.filterMap_cons]
    cases e.2.push <;> rfl

/-- What a command adds to a topic. -/
def Command.addsTo (topic : String) (command : Command) : Option (List (String × String)) :=
  (command.push.filter fun p => p.topic = topic).map Push.fields

/-- What was added to a topic, in order. -/
def addedTo (topic : String) (performed : List (Nat × Command)) : List (List (String × String)) :=
  performed.filterMap fun e => e.2.addsTo topic

/-- The streams hold what was added. -/
theorem fields_streamsAfter (pubsubMessages : Table String (List String)) (topic : String)
    (performed : List (Nat × Command)) :
    ((streamsAfter pubsubMessages default performed).all topic).map StreamEntry.fields = addedTo topic performed := by
  rw [streamsAfter_eq_run, StreamState.all_run, List.map_append, StreamState.fields_pushed, List.filter_filterMap,
    List.map_filterMap]
  rfl

namespace MockServer

/-- The message that a connection is about to send. -/
def Serving.sending (sv : Serving) : List String :=
  match sv.running with
  | some (.performed _ payload) => payload.toList
  | _ => []

section Runs

variable [Debug String]

/-- The text of the command that a connection is about to let take effect. -/
def Serving.described (sv : Serving) : List String :=
  match sv.running with
  | some (.described command) => [command.describe]
  | _ => []

/-- The messages sent and about to be sent are those of the commands that took effect, and the texts
sent are those of these commands and of the ones about to. -/
structure Announced (s : State) : Prop where
  messages : (s.server.messages ++ s.serving.gather Serving.sending).Perm
    (s.performed.filterMap fun e => e.2.broadcastPayload)
  texts : ((s.performed.map fun e => e.2.describe) ++ s.serving.gather Serving.described).Perm s.server.connections

theorem announced_init : Announced init := ⟨.nil, .nil⟩

variable {s s' : State} {c : Nat} {sv sv' : Serving}

/-- A step that neither sends anything nor lets a command take effect. -/
theorem Announced.insert (announced : Announced s) (open' : s.serving.lookup c = some sv)
    (running : sv'.running = sv.running) : Announced { s with serving := s.serving.insert c sv' } := by
  have sending : sv'.sending = sv.sending := by rw [Serving.sending, running, Serving.sending]
  have described : sv'.described = sv.described := by rw [Serving.described, running, Serving.described]
  constructor
  · exact Table.gather_insert_perm_self announced.messages open' (by rw [sending])
  · exact Table.gather_insert_perm_self announced.texts open' (by rw [described])

theorem Announced.erase (announced : Announced s) (open' : s.serving.lookup c = some sv) (idle : sv.running = none) :
    Announced { s with serving := s.serving.erase c } := by
  constructor
  · have same := Table.gather_erase_perm (f := Serving.sending) open' (by rw [Serving.sending, idle])
    exact (same.append_left _).trans announced.messages
  · have same := Table.gather_erase_perm (f := Serving.described) open' (by rw [Serving.described, idle])
    exact (same.append_left _).trans announced.texts

variable [Uppercase] [Allocator] {pubsubMessages : Table String (List String)} {a : Action}

theorem Announced.step (announced : Announced s) (inv : Invariant pubsubMessages s)
    (taken : Step pubsubMessages s a s') : Announced s' := by
  cases taken with
  | accept =>
    have absent : s.serving.lookup s.nextConnection = none := by
      cases found : s.serving.lookup s.nextConnection with
      | none => rfl
      | some sv => exact absurd (inv.numbered _ sv found) (Nat.lt_irrefl _)
    constructor
    · rw [Table.gather_insert, Table.erase_eq_self absent]
      exact announced.messages
    · rw [Table.gather_insert, Table.erase_eq_self absent]
      exact announced.texts
  | @read c sv sv' bytes open' waits _ parsed =>
    refine announced.insert open' ?_
    rw [read_eq_drain] at parsed
    cases drained : Parser.drain parseFrame (sv.pending ++ lossy bytes) with
    | error e =>
      rw [drained] at parsed
      cases parsed
    | ok d =>
      rw [drained] at parsed
      cases parsed
      rfl
  | panic open' waits _ _ _ => exact announced.erase open' waits.2.1
  | close open' _ idle => exact announced.erase open' idle
  | @describe c sv command commands open' idle next =>
    constructor
    · refine Table.gather_insert_perm_self announced.messages open' ?_
      rw [Serving.sending, Serving.sending, idle]
      exact .refl _
    · refine Table.gather_insert_perm announced.texts open' ?_
      rw [Serving.described, Serving.described, idle, List.append_nil]
      exact .refl _
  | @perform c sv command open' running =>
    rw [State.perform, executeCommand_eq]
    constructor
    · have payload : (s.performed ++ [(c, command)]).filterMap (fun e => e.2.broadcastPayload) =
          s.performed.filterMap (fun e => e.2.broadcastPayload) ++ command.broadcastPayload.toList := by
        rw [List.filterMap_append]
        cases found : command.broadcastPayload <;> simp [found]
      rw [payload]
      refine Table.gather_insert_perm announced.messages open' ?_
      rw [Serving.sending, Serving.sending, running, List.append_nil]
    · refine Table.gather_insert_perm_self announced.texts open' ?_
      rw [Serving.described, Serving.described, running, List.map_append, List.append_nil]
      exact .refl _
  | @answer c sv response payload open' running =>
    constructor
    · refine Table.gather_insert_perm_self announced.messages open' ?_
      rw [Serving.sending, Serving.sending, running]
      exact .of_eq (List.append_nil _)
    · refine Table.gather_insert_perm_self announced.texts open' ?_
      rw [Serving.described, Serving.described, running]
      exact .refl _
  | write open' _ _ _ => exact announced.insert open' rfl

theorem announced_of_reachable (reached : (system pubsubMessages).Reachable s) : Announced s :=
  Lts.Reachable.invariant (M := system pubsubMessages) announced_init
    (fun _ _ _ reached announced taken => announced.step (invariant_of_reachable reached) (.of_step taken)) s reached

/-- **Nothing is lost, doubled or made up.** In every reachable state a topic holds the fields of the
`XADD`s to it in the order in which they took effect, under ids of their own; and apart from what a
connection is about to send, the listeners have been sent the message of every command that took effect
and the text of every command, each once. -/
theorem nothing_is_lost (reached : (system pubsubMessages).Reachable s) :
    (∀ topic, (s.server.streamState.all topic).map StreamEntry.fields = addedTo topic s.performed ∧
      ((s.server.streamState.all topic).map StreamEntry.id).Nodup) ∧
      (s.server.messages ++ s.serving.gather Serving.sending).Perm
        (s.performed.filterMap fun e => e.2.broadcastPayload) ∧
      s.server.connections.Perm ((s.performed.map fun e => e.2.describe) ++ s.serving.gather Serving.described) := by
  have announced := announced_of_reachable reached
  refine ⟨fun topic => ?_, announced.messages, announced.texts.symm⟩
  rw [(invariant_of_reachable reached).streams]
  constructor
  · exact fields_streamsAfter pubsubMessages topic s.performed
  · rw [streamsAfter_eq_run]
    exact (StreamState.numbered_default.run _).nodup_ids topic

end Runs

section Concrete

open Concrete

theorem nothing_is_lost_twoClients : ∃ s, (system ∅).exec init twoClients = some s ∧
    s.server.messages = ["a", "b"] ∧
    (∀ topic, (s.server.streamState.all topic).map StreamEntry.fields = addedTo topic s.performed ∧
      ((s.server.streamState.all topic).map StreamEntry.id).Nodup) ∧
      (s.server.messages ++ s.serving.gather Serving.sending).Perm
        (s.performed.filterMap fun e => e.2.broadcastPayload) ∧
      s.server.connections.Perm ((s.performed.map fun e => e.2.describe) ++ s.serving.gather Serving.described) := by
  have ends : ((system ∅).exec init twoClients).map (fun s => s.server.messages) =
      some ["a", "b"] := by decide +kernel
  obtain ⟨s, run, messages⟩ := Option.map_eq_some_iff.1 ends
  exact ⟨s, run, messages, nothing_is_lost ⟨twoClients, run⟩⟩

end Concrete

end MockServer

end PubSub.Redis.TestingUtils
