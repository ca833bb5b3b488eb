import PubSub.Base.Incremental
import PubSub.Redis.TestingUtils.Reads

/-!
# Input in chunks

Every function of the parser is stable: text that arrives later changes neither what it has accepted
nor how it has failed. So what a connection does with its input depends on the text only, malformed
input and failures included, and not on the reads it arrived in.
-/

namespace PubSub.Redis.TestingUtils
set_option autoImplicit false
open Base Base.Text

/-! ## Headers and tokens -/

theorem stable_splitLine : Parser.Stable splitLine := by
  constructor
  · intro input rest line found more
    obtain ⟨rfl, unbroken⟩ := splitLine_eq_some_iff.1 found
    rw [List.append_assoc, List.append_assoc]
    exact splitLine_of_line unbroken (rest ++ more)
  · intro input e failed more
    exact absurd ⟨e, failed⟩ not_fails_splitLine

theorem stable_parseHeader (mark : Char) : Parser.Stable (parseHeader mark) := by
  refine stable_splitLine.bind rfl fun line => ?_
  dsimp only
  split
  · exact Parser.stable_const none
  · refine .after _ fun digits => ?_
    cases parseUsize digits with
    | none => exact Parser.stable_const none
    | some n => exact Parser.stable_const (some n)

section Tokens

variable {input : List Char} {len : Nat}

theorem parseBulkToken_of_large (large : usizeMax < len + 2) (input : List Char) :
    parseBulkToken input len = .error .addOverflow := by
  rw [parseBulkToken, addUsize, if_neg (by omega)]
  rfl

theorem parseBulkToken_of_inside (small : len + 2 ≤ usizeMax) (enough : len + 2 ≤ byteLen input)
    (inside : ¬ Boundary len input) : parseBulkToken input len = .error .sliceIndex := by
  rw [parseBulkToken, addUsize, if_pos small]
  show (if byteLen input < len + 2 then _ else _) = _
  rw [if_neg (by omega)]
  show (sliceTo len input >>= _) = _
  rw [sliceTo, splitAt_eq_none_iff.2 inside]
  rfl

theorem stable_parseBulkToken (len : Nat) : Parser.Stable fun input => parseBulkToken input len := by
  constructor
  · intro input rest token found more
    obtain ⟨small, rfl, length⟩ := parseBulkToken_eq_some_iff.1 found
    refine parseBulkToken_eq_some_iff.2 ⟨small, ?_, length⟩
    rw [List.append_assoc, List.append_assoc]
  · intro input e failed more
    rcases fails_parseBulkToken_iff.1 ⟨e, failed⟩ with large | ⟨enough, inside⟩
    · rw [← failed, parseBulkToken_of_large large, parseBulkToken_of_large large]
    · by_cases small : len + 2 ≤ usizeMax
      · have longer : len + 2 ≤ byteLen (input ++ more) := by rw [byteLen_append]; omega
        rw [← failed, parseBulkToken_of_inside small enough inside,
          parseBulkToken_of_inside small longer (not_boundary_append inside (by omega) more)]
      · have large : usizeMax < len + 2 := Nat.not_le.1 small
        rw [← failed, parseBulkToken_of_large large, parseBulkToken_of_large large]

theorem stable_parseToken : Parser.Stable parseToken :=
  (stable_parseHeader '$').bind rfl fun len => (stable_parseBulkToken len).bind rfl fun token =>
    Parser.stable_const (some (String.ofList token))

theorem stable_parseTokens (count : Nat) (tokens : List String) :
    Parser.Stable fun input => parseTokens count input tokens := by
  induction count generalizing tokens with
  | zero => exact Parser.stable_const (some tokens)
  | succ count ih => exact stable_parseToken.bind rfl fun token => ih (tokens ++ [token])

end Tokens

/-! ## Frames -/

section Frames

variable [Uppercase]

/-- A round of the loop on input that does not start with `'*'`. -/
def parseLine (remaining : List Char) : Except Failure (Option (Command × List Char)) := do
  let some (line, rest) ← splitLine remaining | return none
  return (parseRespCommand line).map fun cmd => (cmd, rest)

theorem stable_parseLine : Parser.Stable parseLine :=
  stable_splitLine.bind rfl fun line => Parser.stable_const (parseRespCommand line)

variable [Allocator]

theorem stable_parseOneRespArray : Parser.Stable parseOneRespArray :=
  (stable_parseHeader '*').bind rfl fun count => .after (vecWithCapacity count) fun tokens =>
    (stable_parseTokens count tokens).bind rfl fun tokens => Parser.stable_const (buildCommand tokens)

/-- **What is parsed stays parsed**, and what has failed would fail with more input too. -/
theorem stable_parseFrame : Parser.Stable parseFrame := by
  have array : ∀ rest, parseFrame ('*' :: rest) = parseOneRespArray ('*' :: rest) := fun rest => if_pos rfl
  have line : ∀ c rest, c ≠ '*' → parseFrame (c :: rest) = parseLine (c :: rest) :=
    fun c rest other => if_neg fun same => other (Option.some.inj same)
  constructor
  · intro input rest cmd found more
    cases input with
    | nil => cases found
    | cons c input =>
      by_cases mark : c = '*'
      · subst mark
        rw [array] at found
        exact (array _).trans (stable_parseOneRespArray.item found more)
      · rw [line c input mark] at found
        exact (line c _ mark).trans (stable_parseLine.item found more)
  · intro input e failed more
    cases input with
    | nil => cases failed
    | cons c input =>
      by_cases mark : c = '*'
      · subst mark
        rw [array] at failed
        exact (array _).trans (stable_parseOneRespArray.failed failed more)
      · rw [line c input mark] at failed
        exact (line c _ mark).trans (stable_parseLine.failed failed more)

theorem consuming_parseFrame : Parser.Consuming parseFrame := by
  intro input rest cmd found
  obtain ⟨tokens, frame, -⟩ := parseFrame_eq_some_iff.1 found
  exact frame.length_lt

/-- The loop of `parse_resp_commands` takes all frames that are there. -/
theorem parseFrames_eq_drain {n : Nat} {input : List Char} (enough : input.length < n) (commands : List Command) :
    parseFrames n input commands = (Parser.drain parseFrame input).map fun s => (commands ++ s.1, s.2) := by
  induction n generalizing input commands with
  | zero => exact absurd enough (Nat.not_lt_zero _)
  | succ n ih =>
    rw [parseFrames]
    cases found : parseFrame input with
    | error e =>
      rw [Parser.drain_of_error found]
      rfl
    | ok o =>
      obtain none | ⟨cmd, rest⟩ := o
      · rw [Parser.drain_of_none found]
        exact congrArg (fun cmds => Except.ok (cmds, input)) (List.append_nil commands).symm
      · have shorter := consuming_parseFrame found
        obtain ⟨tokens, frame, -⟩ := parseFrame_eq_some_iff.1 found
        show (if byteLen rest = byteLen input then _ else _) = _
        rw [if_neg (Nat.ne_of_lt frame.byteLen_lt), Parser.drain_of_item consuming_parseFrame found,
          ih (by omega)]
        cases Parser.drain parseFrame rest with
        | error e => rfl
        | ok s => exact congrArg (fun cmds => Except.ok (cmds, s.2)) (List.append_assoc commands [cmd] s.1)

/-! ## Reads -/

/-- What is left is the end of what there was. -/
theorem exists_taken_of_drain {input rest : List Char} {cmds : List Command}
    (drained : Parser.drain parseFrame input = .ok (cmds, rest)) : ∃ taken, input = taken ++ rest := by
  have looped := parseFrames_eq_drain (Nat.lt_succ_self input.length) []
  rw [drained] at looped
  obtain ⟨frames, reached, -⟩ := (parseFrames_eq_ok_iff (Nat.lt_succ_self _)).1 looped
  exact reached.exists_taken

/-- What `read_stream` makes of the text that is pending: the commands, and what stays pending. -/
theorem parsePending_eq_drain {β : Type} (text : List Char) (next : List Command → List Char → Except Failure β) :
    (do
      let (commands, consumed) ← parseRespCommands text
      let pending ← if 0 < consumed then sliceFrom consumed text else pure text
      next commands pending) = Parser.drain parseFrame text >>= fun d => next d.1 d.2 := by
  show (parseRespCommands text >>= _) = _
  rw [parseRespCommands, parseFrames_eq_drain (Nat.lt_succ_self _)]
  cases drained : Parser.drain parseFrame text with
  | error e => rfl
  | ok d =>
    obtain ⟨cmds, rest⟩ := d
    obtain ⟨taken, rfl⟩ := exists_taken_of_drain drained
    have length : byteLen (taken ++ rest) - byteLen rest = byteLen taken := by
      rw [byteLen_append, Nat.add_sub_cancel]
    show (if 0 < byteLen (taken ++ rest) - byteLen rest then
      sliceFrom (byteLen (taken ++ rest) - byteLen rest) (taken ++ rest) >>= _ else _) = _
    rw [length, sliceFrom_append]
    split
    · rfl
    · rename_i nothing
      rw [byteLen_eq_zero.1 (Nat.eq_zero_of_not_pos nothing)]
      rfl

variable [Debug String] {pubsubMessages : Table String (List String)}

/-- The connection once these commands have been run and this is left. -/
def Connection.ran (pubsubMessages : Table String (List String)) (s : Connection) (drained : List Command × List Char) :
    Connection := { drained.1.foldl (runCommand pubsubMessages) s with pending := drained.2 }

theorem readStream_eq_drain {read : List UInt8} (some : read ≠ []) (s : Connection) :
    readStream pubsubMessages read s =
      (Parser.drain parseFrame (s.pending ++ lossy read)).map (s.ran pubsubMessages) := by
  rw [readStream, if_neg some]
  refine (parsePending_eq_drain (s.pending ++ lossy read) fun commands pending =>
    .ok (commands.foldl (runCommand pubsubMessages) { s with pending })).trans ?_
  cases Parser.drain parseFrame (s.pending ++ lossy read) with
  | error e => rfl
  | ok d => exact congrArg Except.ok (foldl_runCommand d.1 s d.2)

/-- Reads feed the parser. -/
theorem readStreams_eq_feed (reads : List (List UInt8)) {s : Connection} (idle : parseFrame s.pending = .ok none) :
    readStreams pubsubMessages reads s =
      (Parser.feed parseFrame (reads.map lossy) s.pending).map (s.ran pubsubMessages) := by
  induction reads generalizing s with
  | nil => rfl
  | cons read reads ih =>
    have first : readStream pubsubMessages read s =
        (Parser.drain parseFrame (s.pending ++ lossy read)).map (s.ran pubsubMessages) := by
      by_cases nothing : read = []
      · have empty : lossy [] = [] := rfl
        rw [nothing, empty, List.append_nil, Parser.drain_of_none idle]
        rfl
      · exact readStream_eq_drain nothing s
    rw [readStreams, first, List.map_cons, Parser.feed]
    cases drained : Parser.drain parseFrame (s.pending ++ lossy read) with
    | error e => rfl
    | ok d =>
      show readStreams pubsubMessages reads (s.ran pubsubMessages d) = _
      rw [ih (Parser.none_of_drain consuming_parseFrame drained)]
      show (Parser.feed parseFrame (reads.map lossy) d.2).map _ = _
      dsimp only
      cases Parser.feed parseFrame (reads.map lossy) d.2 with
      | error e => rfl
      | ok d' =>
        refine congrArg Except.ok ?_
        show { List.foldl _ { List.foldl _ s d.1 with pending := d.2 } d'.1 with pending := d'.2 } =
          { (d.1 ++ d'.1).foldl _ s with pending := d'.2 }
        rw [foldl_runCommand, List.foldl_append]

theorem readStreams_eq_drain (reads : List (List UInt8)) {s : Connection} (idle : parseFrame s.pending = .ok none) :
    readStreams pubsubMessages reads s =
      (Parser.drain parseFrame (s.pending ++ reads.flatMap lossy)).map (s.ran pubsubMessages) := by
  rw [readStreams_eq_feed reads idle, Parser.feed_eq_drain consuming_parseFrame stable_parseFrame _ idle,
    ← List.flatMap_def]

/-- **A connection depends on the text it is sent**, and not on the reads in which it arrives: the same
commands are run in the same order, the same text is left pending, or the same failure ends it,
whatever the text is. What is left pending is never a complete command. -/
theorem readStreams_of_same_text {reads reads' : List (List UInt8)} {s : Connection}
    (idle : parseFrame s.pending = .ok none) (same : reads.flatMap lossy = reads'.flatMap lossy) :
    readStreams pubsubMessages reads s = readStreams pubsubMessages reads' s ∧
      ∀ s', readStreams pubsubMessages reads s = .ok s' → parseFrame s'.pending = .ok none := by
  have drained : readStreams pubsubMessages reads s = readStreams pubsubMessages reads' s := by
    rw [readStreams_eq_drain reads idle, readStreams_eq_drain reads' idle, same]
  refine ⟨drained, fun s' returned => ?_⟩
  rw [readStreams_eq_drain reads idle] at returned
  cases whole : Parser.drain parseFrame (s.pending ++ reads.flatMap lossy) with
  | error e =>
    rw [whole] at returned
    cases returned
  | ok d =>
    rw [whole] at returned
    cases returned
    exact Parser.none_of_drain consuming_parseFrame whole

end Frames

section Concrete

open Concrete

/-- A command on a line of its own that arrives in two reads, and a blank line, which nothing gets past. -/
def stalling : List (List UInt8) := [bytes "ping\r".toList, bytes "\n\r\n*1\r\n$4\r\nPING\r\n".toList]

theorem readStreams_stalling : readStreams ∅ stalling accepted = readStreams ∅ [stalling.flatten] accepted ∧
    ∀ s', readStreams ∅ stalling accepted = .ok s' → parseFrame s'.pending = .ok none := by
  have same : stalling.flatMap lossy = [stalling.flatten].flatMap lossy := by decide +kernel
  exact readStreams_of_same_text rfl same

end Concrete

end PubSub.Redis.TestingUtils
