import PubSub.Base.Listener
import PubSub.Redis.TestingUtils.Announced

/-!
# The checks of the test harness

`check_for_message` and `check_for_connection_command` each read on in a broadcast channel until a text
turns up or a second has passed. What one check has read, the later ones do not see again. The harness
and the mock server run side by side, so messages are sent at any time during a check.
-/

namespace PubSub.Redis.TestingUtils
set_option autoImplicit false
open Base

/-- `str::contains`. -/
def contains (message expected : String) : Bool := (Text.find expected.toList message.toList).isSome

/-- A call of `wait_for_broadcast_message`. -/
structure Check where
  expected : String
  /-- History: the positions of the messages that it has read. -/
  read : List Nat
  deriving DecidableEq

/-- The harness's receiver of one channel, and the checks on it. -/
structure Watch where
  label : String
  listener : Listener String
  running : Option Check
  /-- History: the checks that have ended, with what they returned unless they were dropped. -/
  finished : List (Check × Option (Except String Unit))

namespace Watch

/-- The channels hold 32 messages. -/
def capacity : Nat := 32

def new (label : String) : Watch := ⟨label, .start, none, []⟩

/-- What the server has sent arrives in the channel. -/
def hear (w : Watch) (messages : List String) : Watch :=
  { w with listener := messages.foldl (fun listener message => listener.observe capacity (.sent message)) w.listener }

def start (w : Watch) (expected : String) : Watch := { w with running := some ⟨expected, []⟩ }

def finish (w : Watch) (check : Check) (result : Option (Except String Unit)) : Watch :=
  { w with running := none, finished := w.finished ++ [(check, result)] }

/-- One iteration of the loop of `wait_for_broadcast_message`, if there is anything to receive. -/
def recv (w : Watch) (senders : Nat) : Option Watch :=
  w.running.bind fun check =>
    let read := { w with listener := w.listener.observe capacity .read }
    if w.listener.cursor < w.listener.oldest capacity then some read
    else match w.listener.sent[w.listener.cursor]? with
      | some message =>
        let check := { check with read := check.read ++ [w.listener.cursor] }
        if contains message check.expected then some (read.finish check (some (.ok ())))
        else some { read with running := some check }
      | none =>
        if senders = 0 then
          some (w.finish check (some (.error s!"{w.label} channel closed before observing {check.expected}")))
        else none

/-- A second has passed. -/
def timeout (w : Watch) : Option Watch :=
  w.running.map fun check => w.finish check (some (.error s!"{w.label} not found: {check.expected}"))

/-- The caller drops the check. -/
def drop (w : Watch) : Option Watch := w.running.map fun check => w.finish check none

/-- The text of a check that has returned `Ok`. -/
def found : Check × Option (Except String Unit) → Option String
  | (check, some (.ok _)) => some check.expected
  | _ => none

def passed (w : Watch) : List String := w.finished.filterMap found

/-! ## What a check has seen -/

/-- None of the messages at these positions contains the text. -/
def Lacks (sent : List String) (expected : String) (positions : List Nat) : Prop :=
  ∀ p ∈ positions, ∀ message, sent[p]? = some message → contains message expected = false

/-- A check returns `Ok` at the first message that contains its text, and else has seen none. -/
def Fits (sent : List String) : Check × Option (Except String Unit) → Prop
  | (check, some (.ok _)) => ∃ before p message, check.read = before ++ [p] ∧ Lacks sent check.expected before ∧
      sent[p]? = some message ∧ contains message check.expected = true
  | (check, _) => Lacks sent check.expected check.read

/-- The checks share out what the receiver has read. -/
structure Accounted (w : Watch) : Prop where
  shared : (w.finished.flatMap fun e => e.1.read) ++ w.running.elim [] Check.read = w.listener.got
  searching : ∀ check, w.running = some check → Lacks w.listener.sent check.expected check.read
  ended : ∀ e ∈ w.finished, Fits w.listener.sent e

variable {w w' : Watch} {sent : List String} {expected : String} {positions : List Nat}

theorem lacks_nil : Lacks sent expected [] := nofun

theorem Lacks.concat (lacks : Lacks sent expected positions) {p : Nat} {message : String}
    (here : sent[p]? = some message) (other : contains message expected = false) :
    Lacks sent expected (positions ++ [p]) := by
  intro q listed m there
  rcases List.mem_append.1 listed with before | last
  · exact lacks q before m there
  · rw [List.mem_singleton.1 last, here] at there
    cases there
    exact other

/-- Messages that are sent later change nothing at positions before. -/
theorem Lacks.append (lacks : Lacks sent expected positions) (within : ∀ p ∈ positions, p < sent.length)
    (more : List String) : Lacks (sent ++ more) expected positions := by
  intro p listed message here
  rw [List.getElem?_append_left (within p listed)] at here
  exact lacks p listed message here

theorem Fits.append {e : Check × Option (Except String Unit)} (fits : Fits sent e)
    (within : ∀ p ∈ e.1.read, p < sent.length) (more : List String) : Fits (sent ++ more) e := by
  obtain ⟨check, result⟩ := e
  match result with
  | some (.ok _) =>
    obtain ⟨before, p, message, read, lacks, here, found⟩ := fits
    have inside : ∀ q ∈ before ++ [p], q < sent.length := read ▸ within
    refine ⟨before, p, message, read, ?_, ?_, found⟩
    · exact lacks.append (fun q listed => inside q (List.mem_append_left _ listed)) more
    · rw [List.getElem?_append_left (inside p (by simp)), here]
  | some (.error _) => exact Lacks.append fits within more
  | none => exact Lacks.append fits within more

theorem accounted_new (label : String) : Accounted (new label) := ⟨rfl, nofun, nofun⟩

theorem Accounted.read_lt (accounted : Accounted w) {p : Nat}
    (here : p ∈ (w.finished.flatMap fun e => e.1.read) ++ w.running.elim [] Check.read) : p < w.listener.sent.length := by
  rw [accounted.shared] at here
  exact Nat.lt_of_lt_of_le (w.listener.below p here) w.listener.within

theorem Accounted.send (accounted : Accounted w) (message : String) :
    Accounted { w with listener := w.listener.observe capacity (.sent message) } where
  shared := accounted.shared
  searching := by
    intro check running
    refine (accounted.searching check running).append (fun p here => accounted.read_lt ?_) [message]
    rw [running]
    exact List.mem_append_right _ here
  ended := by
    intro e listed
    refine (accounted.ended e listed).append (fun p here => accounted.read_lt ?_) [message]
    exact List.mem_append_left _ (List.mem_flatMap.2 ⟨e, listed, here⟩)

theorem Accounted.hear (accounted : Accounted w) (messages : List String) : Accounted (w.hear messages) := by
  induction messages generalizing w with
  | nil => exact accounted
  | cons message messages ih => exact ih (accounted.send message)

theorem sent_hear (w : Watch) (messages : List String) :
    (w.hear messages).listener.sent = w.listener.sent ++ messages := by
  induction messages generalizing w with
  | nil => exact (List.append_nil _).symm
  | cons message messages ih =>
    refine (ih { w with listener := w.listener.observe capacity (.sent message) }).trans ?_
    exact List.append_assoc _ [message] messages

theorem Accounted.start (accounted : Accounted w) (idle : w.running = none) (expected : String) :
    Accounted (w.start expected) where
  shared := by
    have shared := accounted.shared
    rw [idle] at shared
    exact shared
  searching := by
    intro check running
    cases running
    exact lacks_nil
  ended := accounted.ended

/-- A check ends with what it has read. -/
theorem Accounted.finish (accounted : Accounted w) {check : Check} (running : w.running = some check)
    {result : Option (Except String Unit)} (fits : Fits w.listener.sent (check, result)) :
    Accounted (w.finish check result) where
  shared := by
    have shared := accounted.shared
    rw [running] at shared
    rw [Watch.finish, List.flatMap_append, ← shared]
    simp
  searching := nofun
  ended := by
    intro e listed
    rcases List.mem_append.1 listed with before | last
    · exact accounted.ended e before
    · rw [List.mem_singleton.1 last]
      exact fits

/-- What an iteration of the loop does. -/
theorem recv_cases {senders : Nat} (taken : w.recv senders = some w') : ∃ check, w.running = some check ∧
    ((w.listener.cursor < w.listener.oldest capacity ∧
        w' = { w with listener := w.listener.observe capacity .read }) ∨
      (w.listener.oldest capacity ≤ w.listener.cursor ∧ ∃ message, w.listener.sent[w.listener.cursor]? = some message ∧
        w' = (if contains message check.expected then
          { w with listener := w.listener.observe capacity .read }.finish
            { check with read := check.read ++ [w.listener.cursor] } (some (.ok ()))
          else { w with
            listener := w.listener.observe capacity .read
            running := some { check with read := check.read ++ [w.listener.cursor] } })) ∨
      (w.listener.oldest capacity ≤ w.listener.cursor ∧ w.listener.sent.length ≤ w.listener.cursor ∧ senders = 0 ∧
        w' = w.finish check (some (.error s!"{w.label} channel closed before observing {check.expected}")))) := by
  obtain ⟨check, running, taken⟩ := Option.bind_eq_some_iff.1 taken
  refine ⟨check, running, ?_⟩
  dsimp only at taken
  split at taken
  · cases taken
    exact .inl ⟨‹_›, rfl⟩
  · have reached : w.listener.oldest capacity ≤ w.listener.cursor := Nat.le_of_not_lt ‹_›
    split at taken
    · refine .inr (.inl ⟨reached, _, ‹_›, ?_⟩)
      split at taken
      · cases taken
        rw [if_pos ‹_›]
      · cases taken
        rw [if_neg ‹_›]
    · split at taken
      · cases taken
        exact .inr (.inr ⟨reached, List.getElem?_eq_none_iff.1 ‹_›, ‹_›, rfl⟩)
      · cases taken

theorem sent_recv {senders : Nat} (taken : w.recv senders = some w') : w'.listener.sent = w.listener.sent := by
  have read := (Listener.observe_read capacity w.listener).1
  obtain ⟨check, running, ⟨lag, rfl⟩ | ⟨reached, message, here, rfl⟩ | ⟨-, -, -, rfl⟩⟩ := recv_cases taken
  · exact read
  · split
    · exact read
    · exact read
  · rfl

/-- An iteration that is not too late leaves no gap. -/
theorem got_recv_eq_range (all : w.listener.got = List.range w.listener.cursor) (close : w.listener.behind ≤ capacity)
    {senders : Nat} (taken : w.recv senders = some w') : w'.listener.got = List.range w'.listener.cursor := by
  have read := Listener.got_observe_read_eq_range all close
  obtain ⟨check, running, ⟨lag, rfl⟩ | ⟨reached, message, here, rfl⟩ | ⟨-, -, -, rfl⟩⟩ := recv_cases taken
  · exact read
  · split
    · exact read
    · exact read
  · exact all

theorem got_hear (w : Watch) (messages : List String) :
    (w.hear messages).listener.got = w.listener.got ∧ (w.hear messages).listener.cursor = w.listener.cursor := by
  induction messages generalizing w with
  | nil => exact ⟨rfl, rfl⟩
  | cons message messages ih => exact ih { w with listener := w.listener.observe capacity (.sent message) }

theorem Accounted.recv (accounted : Accounted w) {senders : Nat} (taken : w.recv senders = some w') :
    Accounted w' := by
  obtain ⟨check, running, ⟨lag, rfl⟩ | ⟨reached, message, here, rfl⟩ | ⟨-, -, -, rfl⟩⟩ := recv_cases taken
  · -- nothing is read of what was overwritten
    obtain ⟨sent, ⟨-, -, got⟩ | ⟨reached, -⟩ | ⟨reached, -⟩⟩ := Listener.observe_read capacity w.listener
    · refine ⟨accounted.shared.trans got.symm, ?_, ?_⟩
      · rw [sent]
        exact accounted.searching
      · rw [sent]
        exact accounted.ended
    · exact absurd lag (Nat.not_lt.2 reached)
    · exact absurd lag (Nat.not_lt.2 reached)
  · have waiting : w.listener.cursor < w.listener.sent.length := (List.getElem?_eq_some_iff.1 here).1
    obtain ⟨sent, ⟨lag, -⟩ | ⟨-, -, -, got⟩ | ⟨-, caught, -⟩⟩ := Listener.observe_read capacity w.listener
    · exact absurd reached (Nat.not_le.2 lag)
    · have lacks := accounted.searching check running
      have shared : (w.finished.flatMap fun e => e.1.read) ++ (check.read ++ [w.listener.cursor]) =
          (w.listener.observe capacity .read).got := by
        have shared := accounted.shared
        rw [running] at shared
        rw [got, ← shared, List.append_assoc]
        rfl
      split
      · refine ⟨?_, nofun, fun e listed => ?_⟩
        · rw [Watch.finish, List.flatMap_append, ← shared]
          simp
        · rw [Watch.finish, sent]
          rcases List.mem_append.1 listed with before | last
          · exact accounted.ended e before
          · rw [List.mem_singleton.1 last]
            exact ⟨check.read, w.listener.cursor, message, rfl, lacks, here, ‹_›⟩
      · refine ⟨shared, fun check' same => ?_, ?_⟩
        · cases same
          rw [sent]
          exact lacks.concat here (eq_false_of_ne_true ‹_›)
        · rw [sent]
          exact accounted.ended
    · exact absurd waiting (Nat.not_lt.2 caught)
  · exact accounted.finish running (accounted.searching check running)

/-- Each check that has returned `Ok` has read a message of its own. -/
theorem exists_positions {es : List (Check × Option (Except String Unit))} (fits : ∀ e ∈ es, Fits sent e) :
    ∃ ps, List.Forall₂ (fun expected p => ∃ message, sent[p]? = some message ∧ contains message expected = true)
      (es.filterMap found) ps ∧ ps.Sublist (es.flatMap fun e => e.1.read) := by
  induction es with
  | nil => exact ⟨[], .nil, List.nil_sublist _⟩
  | cons e es ih =>
    obtain ⟨first, others⟩ := List.forall_mem_cons.1 fits
    obtain ⟨ps, all, part⟩ := ih others
    obtain ⟨check, result⟩ := e
    have skipped : ps.Sublist (((check, result) :: es).flatMap fun e => e.1.read) :=
      part.trans (List.sublist_append_right _ _)
    match result, first with
    | some (.ok _), first =>
      obtain ⟨before, p, message, read, -, here, found⟩ := first
      refine ⟨p :: ps, .cons ⟨message, here, found⟩ all, ?_⟩
      have own : [p].Sublist check.read := read ▸ List.sublist_append_right _ _
      exact own.append part
    | some (.error _), _ => exact ⟨ps, all, skipped⟩
    | none, _ => exact ⟨ps, all, skipped⟩

/-- The texts that were found stand in different messages, in the order of the checks. -/
theorem Accounted.exists_messages (accounted : Accounted w) : ∃ ms : List String,
    List.Forall₂ (fun expected message => contains message expected = true) w.passed ms ∧
      ms.Sublist w.listener.sent := by
  obtain ⟨ps, all, part⟩ := exists_positions accounted.ended
  rw [← passed] at all
  have got : ps.Sublist w.listener.got := accounted.shared ▸ part.trans (List.sublist_append_left _ _)
  refine ⟨ps.filterMap (w.listener.sent[·]?), ?_,
    Listener.filterMap_getElem?_sublist _ (w.listener.sorted.sublist got)⟩
  clear part got
  generalize w.passed = texts at all ⊢
  induction all with
  | nil => exact .nil
  | cons first _ ih =>
    obtain ⟨message, here, found⟩ := first
    rw [List.filterMap_cons_some here]
    exact .cons found ih

/-- A receiver that never misses a message has read all before its cursor. -/
theorem Accounted.unread_lacks (accounted : Accounted w) (all : w.listener.got = List.range w.listener.cursor)
    {check : Check} (running : w.running = some check) (waits : w.listener.behind = 0) :
    ∀ message ∈ w.listener.sent.drop (w.finished.flatMap fun e => e.1.read).length,
      contains message check.expected = false := by
  intro message here
  obtain ⟨i, there⟩ := List.mem_iff_getElem?.1 here
  rw [List.getElem?_drop] at there
  refine accounted.searching check running _ ?_ message there
  have within : (w.finished.flatMap fun e => e.1.read).length + i < w.listener.sent.length :=
    (List.getElem?_eq_some_iff.1 there).1
  have shared := accounted.shared
  rw [running, all] at shared
  have listed : (List.range w.listener.cursor)[(w.finished.flatMap fun e => e.1.read).length + i]? =
      some ((w.finished.flatMap fun e => e.1.read).length + i) := by
    unfold Listener.behind at waits
    exact List.getElem?_range (by omega)
  rw [← shared, List.getElem?_append_right (Nat.le_add_right _ _), Nat.add_sub_cancel_left] at listed
  exact List.mem_of_getElem? listed

end Watch

/-! ## The harness and the server -/

namespace TestHarness

inductive Channel where
  | message
  | connectionCommand
  deriving DecidableEq

def Channel.label : Channel → String
  | .message => "Message"
  | .connectionCommand => "Connection command"

/-- What was sent to the channel. -/
def Channel.log : Channel → Server → List String
  | .message, server => server.messages
  | .connectionCommand, server => server.connections

structure State where
  server : MockServer.State
  watch : Channel → Watch

def init : State := ⟨MockServer.init, fun channel => .new channel.label⟩

inductive Action where
  | server (a : MockServer.Action)
  /-- `check_for_message` or `check_for_connection_command` is called -/
  | check (channel : Channel) (expected : String)
  | recv (channel : Channel)
  | timeout (channel : Channel)
  | drop (channel : Channel)

/-- The listening task has a sender, and each connection. -/
def State.senders (s : State) : Nat := 1 + s.server.serving.size

def State.set (s : State) (channel : Channel) (w : Watch) : State :=
  { s with watch := fun c => if c = channel then w else s.watch c }

/-- The harness is borrowed for the time of a check. -/
def State.checks (s : State) : Bool :=
  (s.watch .message).running.isSome || (s.watch .connectionCommand).running.isSome

section System

variable [Uppercase] [Allocator] [Debug String] (pubsubMessages : Table String (List String))

def step (s : State) : Action → Option State
  | .server a => (MockServer.step pubsubMessages s.server a).map fun server =>
      ⟨server, fun channel =>
        (s.watch channel).hear ((channel.log server.server).drop (channel.log s.server.server).length)⟩
  | .check channel expected =>
    if s.checks then none else some (s.set channel ((s.watch channel).start expected))
  | .recv channel => ((s.watch channel).recv s.senders).map (s.set channel)
  | .timeout channel => (s.watch channel).timeout.map (s.set channel)
  | .drop channel => (s.watch channel).drop.map (s.set channel)

/-- The harness and the server, with any number of clients. -/
def system : Lts State Action := ⟨init, step pubsubMessages⟩

variable {pubsubMessages} {s s' : State} {a : Action}

/-- The server only adds to the channels. -/
theorem log_grows {server server' : MockServer.State} {a : MockServer.Action}
    (taken : MockServer.Step pubsubMessages server a server') (channel : Channel) :
    channel.log server.server <+: channel.log server'.server := by
  cases taken with
  | accept => exact List.prefix_rfl
  | read => exact List.prefix_rfl
  | panic => exact List.prefix_rfl
  | write => exact List.prefix_rfl
  | close => exact List.prefix_rfl
  | describe =>
    cases channel with
    | message => exact List.prefix_rfl
    | connectionCommand => exact List.prefix_append _ _
  | perform => cases channel <;> exact List.prefix_rfl
  | answer =>
    cases channel with
    | message => exact List.prefix_append _ _
    | connectionCommand => exact List.prefix_rfl

variable (pubsubMessages) in
structure Invariant (s : State) : Prop where
  reached : (MockServer.system pubsubMessages).Reachable s.server
  heard : ∀ channel, (s.watch channel).listener.sent = channel.log s.server.server
  accounted : ∀ channel, (s.watch channel).Accounted

theorem invariant_init : Invariant pubsubMessages init where
  reached := .init
  heard channel := by cases channel <;> rfl
  accounted channel := Watch.accounted_new channel.label

omit [Uppercase] [Allocator] [Debug String] in
theorem watch_set (channel c : Channel) (w : Watch) :
    (s.set channel w).watch c = if c = channel then w else s.watch c := rfl

/-- A step of the harness on one channel. -/
theorem Invariant.set (inv : Invariant pubsubMessages s) {channel : Channel} {w : Watch}
    (heard : w.listener.sent = (s.watch channel).listener.sent) (accounted : w.Accounted) :
    Invariant pubsubMessages (s.set channel w) where
  reached := inv.reached
  heard c := by
    rw [watch_set]
    split
    · subst_vars
      exact heard.trans (inv.heard _)
    · exact inv.heard c
  accounted c := by
    rw [watch_set]
    split
    · exact accounted
    · exact inv.accounted c

omit [Uppercase] [Allocator] [Debug String] in
theorem running_of_not_checks (idle : ¬ s.checks = true) (channel : Channel) : (s.watch channel).running = none := by
  rw [State.checks, Bool.or_eq_true, not_or, Option.not_isSome_iff_eq_none, Option.not_isSome_iff_eq_none] at idle
  cases channel with
  | message => exact idle.1
  | connectionCommand => exact idle.2

theorem Invariant.step (inv : Invariant pubsubMessages s) (taken : step pubsubMessages s a = some s') :
    Invariant pubsubMessages s' := by
  cases a with
  | server a =>
    obtain ⟨server, moved, rfl⟩ := Option.map_eq_some_iff.1 taken
    refine ⟨inv.reached.step moved, fun channel => ?_, fun channel => (inv.accounted channel).hear _⟩
    rw [Watch.sent_hear, inv.heard]
    exact List.prefix_iff_eq_append.1 (log_grows (.of_step moved) channel)
  | check channel expected =>
    obtain ⟨idle, same⟩ := Option.ite_none_left_eq_some.1 taken
    cases same
    exact inv.set rfl ((inv.accounted channel).start (running_of_not_checks idle channel) expected)
  | recv channel =>
    obtain ⟨w, received, rfl⟩ := Option.map_eq_some_iff.1 taken
    exact inv.set (Watch.sent_recv received) ((inv.accounted channel).recv received)
  | timeout channel =>
    obtain ⟨w, ended, rfl⟩ := Option.map_eq_some_iff.1 taken
    obtain ⟨check, running, rfl⟩ := Option.map_eq_some_iff.1 ended
    exact inv.set rfl ((inv.accounted channel).finish running ((inv.accounted channel).searching check running))
  | drop channel =>
    obtain ⟨w, ended, rfl⟩ := Option.map_eq_some_iff.1 taken
    obtain ⟨check, running, rfl⟩ := Option.map_eq_some_iff.1 ended
    exact inv.set rfl ((inv.accounted channel).finish running ((inv.accounted channel).searching check running))

theorem invariant_of_reachable (reached : (system pubsubMessages).Reachable s) : Invariant pubsubMessages s :=
  Lts.Reachable.invariant (M := system pubsubMessages) invariant_init (fun _ _ _ _ inv taken => inv.step taken) s reached

/-- What the server has sent for the commands of its clients. -/
def Channel.caused : Channel → MockServer.State → List String
  | .message, server => server.performed.filterMap fun e => e.2.broadcastPayload
  | .connectionCommand, server =>
    (server.performed.map fun e => e.2.describe) ++ server.serving.gather MockServer.Serving.described

omit [Uppercase] [Allocator] in
/-- Everything in a channel was caused by a command. -/
theorem log_subperm {server : MockServer.State} (announced : MockServer.Announced server) (channel : Channel) :
    (channel.log server.server).Subperm (channel.caused server) := by
  cases channel with
  | message => exact (List.sublist_append_left _ _).subperm.trans announced.messages.subperm
  | connectionCommand => exact announced.texts.symm.subperm

/-- **Passing checks are backed by commands.** However the checks and the connections interleave, the
checks of a channel share out the messages read from it: each one that returned `Ok` did so at the first
message it read with its text, and each other one has read none. So the texts that were found stand in
different messages, in the order of the checks, and each of these was caused by a command of its own. -/
theorem checks_are_backed (reached : (system pubsubMessages).Reachable s) (channel : Channel) :
    (s.watch channel).Accounted ∧ ∃ ms : List String,
      List.Forall₂ (fun expected message => contains message expected = true) (s.watch channel).passed ms ∧
        ms.Sublist (channel.log s.server.server) ∧ ms.Subperm (channel.caused s.server) := by
  have inv := invariant_of_reachable reached
  obtain ⟨ms, all, part⟩ := (inv.accounted channel).exists_messages
  rw [inv.heard] at part
  have announced := MockServer.announced_of_reachable inv.reached
  exact ⟨inv.accounted channel, ms, all, part, part.subperm.trans (log_subperm announced channel)⟩

end System

section Concrete

open Concrete

/-- The two clients' messages are found one after the other, and then the first one is not found again. -/
def threeChecks : List Action :=
  MockServer.twoClients.map .server ++ [.check .message "a", .recv .message, .check .message "b", .recv .message,
    .check .message "a"]

theorem checks_are_backed_threeChecks : ∃ s, (system ∅).exec init threeChecks = some s ∧
    (s.watch .message).passed = ["a", "b"] ∧ (s.watch .message).Accounted ∧ ∃ ms : List String,
      List.Forall₂ (fun expected message => contains message expected = true) (s.watch .message).passed ms ∧
        ms.Sublist s.server.server.messages ∧ ms.Subperm (s.server.performed.filterMap fun e => e.2.broadcastPayload) := by
  have ends : ((system ∅).exec init threeChecks).map (fun s => (s.watch .message).passed) =
      some ["a", "b"] := by decide +kernel
  obtain ⟨s, run, passed⟩ := Option.map_eq_some_iff.1 ends
  exact ⟨s, run, passed, checks_are_backed ⟨threeChecks, run⟩ .message⟩

end Concrete

/-! ## Checks that give up -/

section Waiting

variable [Uppercase] [Allocator] [Debug String] {pubsubMessages : Table String (List String)} {s s' : State} {a : Action}

/-- The harness has missed no message. -/
def Gapless (s : State) : Prop :=
  ∀ channel, (s.watch channel).listener.got = List.range (s.watch channel).listener.cursor

/-- No receiver has fallen out of the ring. -/
def KeepsUp (s : State) : Prop := ∀ channel, (s.watch channel).listener.behind ≤ Watch.capacity

instance (s : State) : Decidable (KeepsUp s) :=
  decidable_of_iff ((s.watch .message).listener.behind ≤ Watch.capacity ∧
      (s.watch .connectionCommand).listener.behind ≤ Watch.capacity) <| by
    constructor
    · intro both channel
      cases channel with
      | message => exact both.1
      | connectionCommand => exact both.2
    · exact fun all => ⟨all .message, all .connectionCommand⟩

omit [Uppercase] [Allocator] [Debug String] in
theorem Gapless.set (gapless : Gapless s) {channel : Channel} {w : Watch}
    (all : w.listener.got = List.range w.listener.cursor) : Gapless (s.set channel w) := by
  intro c
  rw [watch_set]
  split
  · exact all
  · exact gapless c

theorem Gapless.step (gapless : Gapless s) (close : KeepsUp s) (taken : step pubsubMessages s a = some s') :
    Gapless s' := by
  cases a with
  | server a =>
    obtain ⟨server, moved, rfl⟩ := Option.map_eq_some_iff.1 taken
    intro channel
    obtain ⟨got, cursor⟩ := Watch.got_hear (s.watch channel)
      ((channel.log server.server).drop (channel.log s.server.server).length)
    dsimp only
    rw [got, cursor]
    exact gapless channel
  | check channel expected =>
    obtain ⟨idle, same⟩ := Option.ite_none_left_eq_some.1 taken
    cases same
    exact gapless.set (gapless channel)
  | recv channel =>
    obtain ⟨w, received, rfl⟩ := Option.map_eq_some_iff.1 taken
    exact gapless.set (Watch.got_recv_eq_range (gapless channel) (close channel) received)
  | timeout channel =>
    obtain ⟨w, ended, rfl⟩ := Option.map_eq_some_iff.1 taken
    obtain ⟨check, running, rfl⟩ := Option.map_eq_some_iff.1 ended
    exact gapless.set (gapless channel)
  | drop channel =>
    obtain ⟨w, ended, rfl⟩ := Option.map_eq_some_iff.1 taken
    obtain ⟨check, running, rfl⟩ := Option.map_eq_some_iff.1 ended
    exact gapless.set (gapless channel)

/-- **A check that waits has seen everything.** If the receivers never fall out of the ring, then a check
that has nothing left to read, and so can only time out, is right to: no message that was sent after the
ones read by the checks before it contains its text. -/
theorem waiting_check_has_seen_all {as : List Action} (run : (system pubsubMessages).exec init as = some s)
    (close : (system pubsubMessages).Along (fun s _ => KeepsUp s) init as) {channel : Channel} {check : Check}
    (running : (s.watch channel).running = some check) (waits : (s.watch channel).listener.behind = 0) :
    ∀ message ∈ (channel.log s.server.server).drop ((s.watch channel).finished.flatMap fun e => e.1.read).length,
      contains message check.expected = false := by
  have inv := invariant_of_reachable ⟨as, run⟩
  have gapless : Gapless s := Lts.Along.exec_invariant (I := Gapless)
    (fun _ _ _ gapless close taken => gapless.step close taken) (fun channel => by cases channel <;> rfl) close run
  rw [← inv.heard]
  exact (inv.accounted channel).unread_lacks (gapless channel) running waits

end Waiting

section Concrete

open Concrete

/-- The first message is found, and the next check for its text passes over the second one. -/
def passingOver : List Action :=
  MockServer.twoClients.map .server ++ [.check .message "a", .recv .message, .check .message "a", .recv .message]

theorem waiting_check_passingOver : ∃ s, (system ∅).exec init passingOver = some s ∧
    (s.watch .message).running = some ⟨"a", [1]⟩ ∧ (s.watch .message).listener.behind = 0 ∧
    s.server.server.messages.drop ((s.watch .message).finished.flatMap fun e => e.1.read).length = ["b"] ∧
    ∀ message ∈ s.server.server.messages.drop ((s.watch .message).finished.flatMap fun e => e.1.read).length,
      contains message "a" = false := by
  have ends : ((system ∅).exec init passingOver).map (fun s =>
      ((s.watch .message).running, (s.watch .message).listener.behind,
        s.server.server.messages.drop ((s.watch .message).finished.flatMap fun e => e.1.read).length)) =
      some (some ⟨"a", [1]⟩, 0, ["b"]) := by decide +kernel
  have close : (system ∅).Along (fun s _ => KeepsUp s) init passingOver := by decide +kernel
  obtain ⟨s, run, facts⟩ := Option.map_eq_some_iff.1 ends
  obtain ⟨running, facts⟩ := Prod.mk.inj facts
  obtain ⟨waits, others⟩ := Prod.mk.inj facts
  exact ⟨s, run, running, waits, others, waiting_check_has_seen_all run close running waits⟩

end Concrete

end TestHarness

end PubSub.Redis.TestingUtils
