import PubSub.Cuts
import PubSub.Redis.TestingUtils.Decode

/-!
# A connection's reads

Each read is turned into text on its own and appended to what is pending; then everything that is
complete is parsed and run. A character that is cut by the end of a read becomes replacement
characters on both sides of the cut, which are longer than it was.
-/

namespace PubSub.Redis.TestingUtils
set_option autoImplicit false
open Base Base.Text

/-- One connection: what is pending, the commands it has run, the responses it has written, and what
it shares with the others. -/
structure Connection where
  pending : List Char
  commands : List Command
  responses : List String
  server : Server

section Reading

variable [Uppercase] [Allocator] [Debug String] (pubsubMessages : Table String (List String))

/-- One round of the loop over the parsed commands. -/
def runCommand (s : Connection) (command : Command) : Connection :=
  let described := { s.server with connections := s.server.connections ++ [command.describe] }
  let (response, server) := executeCommand pubsubMessages command described
  { s with commands := s.commands ++ [command], responses := s.responses ++ [response], server }

/-- A call of `read_stream` that reads these bytes; none if the client has closed the connection. -/
def readStream (bytes : List UInt8) (s : Connection) : Except Failure Connection := do
  if bytes = [] then return s
  let pending := s.pending ++ lossy bytes
  let (commands, consumed) ← parseRespCommands pending
  let pending ← if 0 < consumed then sliceFrom consumed pending else pure pending
  return commands.foldl (runCommand pubsubMessages) { s with pending }

/-- Successive calls on one connection. -/
def readStreams : List (List UInt8) → Connection → Except Failure Connection
  | [], s => .ok s
  | bytes :: reads, s => do
    let s ← readStream pubsubMessages bytes s
    readStreams reads s

end Reading

/-! ## Runs of commands -/

section Runs

variable [Debug String] {pubsubMessages : Table String (List String)}

/-- Running a command does not look at what is pending. -/
theorem foldl_runCommand (cmds : List Command) (s : Connection) (pending : List Char) :
    cmds.foldl (runCommand pubsubMessages) { s with pending } =
      { cmds.foldl (runCommand pubsubMessages) s with pending } := by
  induction cmds generalizing s with
  | nil => rfl
  | cons cmd cmds ih => exact ih (runCommand pubsubMessages s cmd)

theorem commands_foldl (cmds : List Command) (s : Connection) :
    (cmds.foldl (runCommand pubsubMessages) s).commands = s.commands ++ cmds := by
  induction cmds generalizing s with
  | nil => exact (List.append_nil _).symm
  | cons cmd cmds ih =>
    have first : (runCommand pubsubMessages s cmd).commands = s.commands ++ [cmd] := rfl
    rw [List.foldl_cons, ih, first, List.append_assoc, List.singleton_append]

end Runs

/-! ## Reads that make up encoded commands -/

theorem encodeCommands_cons [Allocator] (v : TokenVec) (vs : List TokenVec) :
    encodeCommands (v :: vs) = encodeCommand v ++ encodeCommands vs := List.flatMap_cons

section Streams

variable [Uppercase] [Allocator]

/-- A beginning of encoded commands: the complete ones, and what is no frame yet. -/
theorem exists_complete {vs : List TokenVec} {start later : List Char} (whole : start ++ later = encodeCommands vs) :
    ∃ vs₁ vs₂ waiting, vs = vs₁ ++ vs₂ ∧ start = encodeCommands vs₁ ++ waiting ∧ parseFrame waiting = .ok none ∧
      waiting ++ later = encodeCommands vs₂ := by
  induction vs generalizing start with
  | nil =>
    obtain ⟨rfl, rfl⟩ := List.append_eq_nil_iff.1 whole
    exact ⟨[], [], [], rfl, rfl, parseFrame_nil, rfl⟩
  | cons v vs ih =>
    rw [encodeCommands_cons] at whole
    rcases List.append_eq_append_iff.1 whole with ⟨missing, split, rfl⟩ | ⟨more, rfl, rest⟩
    · cases missing with
      | nil =>
        rw [List.append_nil] at split
        refine ⟨[v], vs, [], rfl, ?_, parseFrame_nil, rfl⟩
        rw [encodeCommands_cons, encodeCommands, List.flatMap_nil, List.append_nil, List.append_nil, split]
      | cons c missing =>
        refine ⟨[], v :: vs, start, rfl, rfl, parseFrame_of_cut ⟨_, List.cons_ne_nil c missing, split⟩, ?_⟩
        rw [encodeCommands_cons, split, List.append_assoc]
    · obtain ⟨vs₁, vs₂, waiting, rfl, rfl, none, last⟩ := ih rest.symm
      refine ⟨v :: vs₁, vs₂, waiting, rfl, ?_, none, last⟩
      rw [encodeCommands_cons, List.append_assoc]

/-- No frame is left where none stands. -/
theorem eq_nil_of_no_frame {vs : List TokenVec} (none : parseFrame (encodeCommands vs) = .ok none) : vs = [] := by
  cases vs with
  | nil => rfl
  | cons v vs =>
    have frame := frame_encodeCommand v (encodeCommands vs)
    obtain ⟨cmd, built⟩ := exists_buildCommand frame.ne_nil
    have some := parseFrame_eq_some_iff.2 ⟨_, frame, built⟩
    rw [encodeCommands_cons, some] at none
    cases none

variable [Debug String] {pubsubMessages : Table String (List String)}

/-- A read runs the commands that it completes. -/
theorem readStream_of_complete {vs : List TokenVec} {read : List UInt8} {s : Connection} {waiting : List Char}
    (split : s.pending ++ lossy read = encodeCommands vs ++ waiting) (none : parseFrame waiting = .ok none)
    (some : read ≠ []) : readStream pubsubMessages read s =
      .ok { (vs.map TokenVec.command).foldl (runCommand pubsubMessages) s with pending := waiting } := by
  rw [readStream, if_neg some]
  dsimp only
  rw [split, ← foldl_runCommand _ s waiting]
  refine bind_eq_ok_iff.2 ⟨_, parseRespCommands_append vs none, ?_⟩
  dsimp only
  by_cases consumed : 0 < byteLen (encodeCommands vs)
  · rw [if_pos consumed, sliceFrom_append]
    rfl
  · rw [if_neg consumed, byteLen_eq_zero.1 (Nat.eq_zero_of_not_pos consumed)]
    rfl

/-- Reads that decode to what is missing of encoded commands run all of them. -/
theorem readStreams_of_text {vs : List TokenVec} {reads : List (List UInt8)} {s : Connection}
    (none : parseFrame s.pending = .ok none) (text : s.pending ++ reads.flatMap lossy = encodeCommands vs) :
    readStreams pubsubMessages reads s =
      .ok { (vs.map TokenVec.command).foldl (runCommand pubsubMessages) s with pending := [] } := by
  induction reads generalizing vs s with
  | nil =>
    rw [List.flatMap_nil, List.append_nil] at text
    obtain rfl := eq_nil_of_no_frame (text ▸ none)
    rw [readStreams, List.map_nil, List.foldl_nil]
    exact congrArg Except.ok (congrArg (fun pending => { s with pending }) text)
  | cons read reads ih =>
    rw [List.flatMap_cons, ← List.append_assoc] at text
    rw [readStreams]
    by_cases nothing : read = []
    · subst nothing
      have empty : lossy [] = [] := rfl
      rw [empty, List.append_nil] at text
      exact bind_eq_ok_iff.2 ⟨s, rfl, ih none text⟩
    · obtain ⟨vs₁, vs₂, waiting, rfl, split, none, last⟩ := exists_complete text
      refine bind_eq_ok_iff.2 ⟨_, readStream_of_complete split none nothing, ?_⟩
      rw [ih none last, List.map_append, List.foldl_append, foldl_runCommand]

/-- **The reads give the text of encoded commands exactly if each of them is a text, and then they run the
commands that a single read of all the bytes runs**: every one of them, with nothing left pending. -/
theorem readStreams_eq_readStream (vs : List TokenVec) (reads : List (List UInt8)) (s : Connection)
    (drained : s.pending = []) (stream : reads.flatten = bytes (encodeCommands vs)) :
    (reads.flatMap lossy = encodeCommands vs ↔ ∀ read ∈ reads, read.toByteArray.IsValidUTF8) ∧
      ((∀ read ∈ reads, read.toByteArray.IsValidUTF8) →
        ∃ s', readStreams pubsubMessages reads s = .ok s' ∧ readStream pubsubMessages reads.flatten s = .ok s' ∧
          s'.pending = [] ∧ s'.commands = s.commands ++ vs.map TokenVec.command) := by
  have whole := flatMap_lossy_iff stream
  refine ⟨whole, fun valid => ?_⟩
  have none : parseFrame s.pending = .ok none := by rw [drained, parseFrame_nil]
  have parts : readStreams pubsubMessages reads s =
      .ok { (vs.map TokenVec.command).foldl (runCommand pubsubMessages) s with pending := [] } := by
    apply readStreams_of_text none
    rw [drained, List.nil_append, whole.2 valid]
  have single : readStreams pubsubMessages [reads.flatten] s =
      .ok { (vs.map TokenVec.command).foldl (runCommand pubsubMessages) s with pending := [] } := by
    apply readStreams_of_text none
    rw [drained, List.nil_append, List.flatMap_singleton, stream, lossy_bytes]
  refine ⟨_, parts, ?_, rfl, commands_foldl _ s⟩
  rw [readStreams] at single
  obtain ⟨s', read, done⟩ := bind_eq_ok_iff.1 single
  rw [read]
  exact done

end Streams

namespace Concrete

/-- The `Debug` text of a string without characters to escape. -/
scoped instance quoted : Debug String := ⟨fun s => s!"\"{s}\""⟩

end Concrete

section Concrete

open Concrete

/-- A payload with a character of three bytes. -/
def publishEuro : TokenVec := ⟨"PUBLISH", ["t", "€"], by decide, by decide⟩

/-- The bytes of that command, cut after the first `n`. -/
def euroReads (n : Nat) : List (List UInt8) :=
  [(bytes (encodeCommands [publishEuro])).take n, (bytes (encodeCommands [publishEuro])).drop n]

theorem flatten_euroReads (n : Nat) : (euroReads n).flatten = bytes (encodeCommands [publishEuro]) := by
  rw [euroReads, List.flatten_cons, List.flatten_singleton, List.take_append_drop]

/-- A connection that was just accepted. -/
def accepted : Connection := ⟨[], [], [], ⟨default, [], []⟩⟩

/-- Between the carriage return and the line feed after the length. -/
theorem readStreams_publishEuro : ∃ s',
    readStreams ∅ (euroReads 27) accepted = .ok s' ∧
      readStream ∅ (euroReads 27).flatten accepted = .ok s' ∧
      s'.pending = [] ∧ s'.commands = [.Publish "t" "€"] := by
  have command : [publishEuro].map TokenVec.command = [.Publish "t" "€"] := by decide +kernel
  have valid : ∀ read ∈ euroReads 27, read.toByteArray.IsValidUTF8 := by
    have split : euroReads 27 = [bytes ((encodeCommands [publishEuro]).take 27),
      bytes ((encodeCommands [publishEuro]).drop 27)] := by decide +kernel
    rw [split]
    intro read here
    rcases List.mem_cons.1 here with rfl | last
    · exact isValidUTF8_bytes _
    · obtain rfl := List.mem_singleton.1 last
      exact isValidUTF8_bytes _
  rw [← command]
  exact (readStreams_eq_readStream [publishEuro] (euroReads 27) accepted rfl
    (flatten_euroReads 27)).2 valid

/-- The character is cut after its first byte: the command is never run. -/
theorem publishEuro_is_not_run : ¬ ∀ (vs : List TokenVec) (reads : List (List UInt8)),
    (∀ read ∈ reads, read ≠ [] ∧ read.length ≤ 8192) → reads.flatten = bytes (encodeCommands vs) →
      ∃ s s', readStreams ∅ reads accepted = .ok s ∧
        readStream ∅ reads.flatten accepted = .ok s' ∧
        s.commands = s'.commands ∧ s.pending = [] := by
  intro same
  have sizes : ∀ read ∈ euroReads 29, read ≠ [] ∧ read.length ≤ 8192 := by decide +kernel
  obtain ⟨s, s', reads, read, commands, -⟩ := same [publishEuro] (euroReads 29) sizes (flatten_euroReads 29)
  have run : (readStreams ∅ (euroReads 29) accepted).map Connection.commands = .ok [] ∧
      (readStream ∅ (euroReads 29).flatten accepted).map Connection.commands =
        .ok [.Publish "t" "€"] := by decide +kernel
  rw [reads, read] at run
  have first : s.commands = [] := Except.ok.inj run.1
  have second : s'.commands = [.Publish "t" "€"] := Except.ok.inj run.2
  rw [commands, second] at first
  cases first

end Concrete

end PubSub.Redis.TestingUtils
