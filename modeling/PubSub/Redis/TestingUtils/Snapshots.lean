import PubSub.Base.Listener
import PubSub.Redis.TestingUtils.Announced
import PubSub.Redis.Trimming

/-!
# Snapshots of what was published, over the wire

The crate's publishers and snapshots as clients of the mock server. Clients of one host share a
connection, so a request is found by its place on it. The order in which the commands take effect is
the one order of all requests: a snapshot shows what was added before its turn, in this order.
-/

namespace PubSub.Redis
set_option autoImplicit false
open Base Base.Text

/-- The limit as arguments of an `XADD`. -/
def StreamMaxlen.args : StreamMaxlen → List String
  | Approx n => ["MAXLEN", "~", toString n]
  | Equals n => ["MAXLEN", "=", toString n]

theorem decimal_toString (n : Nat) : (Decimal.read (toString n).toList).isSome := by
  have digits : (toString n).toList = Nat.toDigits 10 n := by simp [toString]
  rw [digits, Decimal.read_toDigits]
  rfl

def StreamMaxlen.maxLen : StreamMaxlen → TestingUtils.MaxLen
  | Approx n => ⟨true, toString n, decimal_toString n⟩
  | Equals n => ⟨false, toString n, decimal_toString n⟩

theorem StreamMaxlen.args_maxLen (limit : StreamMaxlen) : limit.maxLen.args = limit.args := by
  cases limit with
  | Approx n => rfl
  | Equals n => rfl

namespace TestingUtils

/-- The entries that the client library finds in the reply to `xrange_all`, by
`StreamRangeReply::from_redis_value`. -/
class StreamRangeReply where
  ids : Resp.Reply → Except PubSubError (List (StreamId String))

/-- An entry of the mock server, as the client library hands it out. -/
def StreamEntry.streamId (entry : StreamEntry) : StreamId String :=
  .ofEntry (entry.id, entry.fields.map fun f => (f.1, f.2.toUTF8))

/-- The library finds all entries, with their fields. -/
def StreamRangeReply.Reads [StreamRangeReply] : Prop :=
  ∀ entries : List StreamEntry, ids (entriesReply entries) = .ok (entries.map StreamEntry.streamId)

/-- Command names in capitals stay as they are. -/
def Uppercase.KeepsCapitals [Uppercase] : Prop := ∀ name ∈ ["CLIENT", "XADD", "XRANGE"], toUppercase name = name

/-! ## Requests -/

/-- What the crate asks of a server for streams. -/
inductive Request where
  /-- the client library introduces itself -/
  | client (args : List String)
  /-- `xadd_maxlen` -/
  | xaddMaxlen (publisher : RedisPublisher) (texts : Table String String) (nonempty : texts.pairs ≠ [])
  /-- `xrange_all` -/
  | xrangeAll (topic : String)

namespace Request

def tokens : Request → List String
  | client args => "CLIENT" :: args
  | xaddMaxlen publisher texts _ =>
    "XADD" :: publisher.topic :: (publisher.streamMaxLen.args ++ "*" :: Xadd.flat texts.pairs)
  | xrangeAll topic => ["XRANGE", topic, "-", "+"]

/-- The command that the server understands. -/
def command : Request → Command
  | client args => .Client args
  | xaddMaxlen publisher texts _ => .Xadd publisher.topic texts.pairs
  | xrangeAll topic => .Xrange topic

/-- What a request publishes to a topic. -/
def publishes (topic : String) : Request → Option (Table String String)
  | xaddMaxlen publisher texts _ => if publisher.topic = topic then some texts else none
  | _ => none

end Request

/-- The server understands every request. -/
theorem Request.command_of_tokens [Uppercase] [Allocator] (capitals : Uppercase.KeepsCapitals) {v : TokenVec} {request : Request}
    (same : v.tokens = request.tokens) : v.command = request.command := by
  have name : v.name = request.tokens.headD "" := congrArg (List.headD · "") same
  have others : v.args = request.tokens.tail := congrArg List.tail same
  rw [TokenVec.command, name, others]
  cases request with
  | client args =>
    show Command.fromParts (Uppercase.toUppercase "CLIENT") args = _
    rw [capitals _ (by decide)]
    rfl
  | xaddMaxlen publisher texts nonempty =>
    show Command.fromParts (Uppercase.toUppercase "XADD")
      (publisher.topic :: (publisher.streamMaxLen.args ++ "*" :: Xadd.flat texts.pairs)) = _
    rw [capitals _ (by decide), ← StreamMaxlen.args_maxLen]
    exact fromParts_args ⟨publisher.topic, some publisher.streamMaxLen.maxLen, texts.pairs, nonempty⟩
  | xrangeAll topic =>
    show Command.fromParts (Uppercase.toUppercase "XRANGE") [topic, "-", "+"] = _
    rw [capitals _ (by decide)]
    rfl

theorem Request.commands_of_tokens [Uppercase] [Allocator] (capitals : Uppercase.KeepsCapitals) {vs : List TokenVec}
    {requests : List Request} (same : List.Forall₂ (fun v request => TokenVec.tokens v = request.tokens) vs requests) :
    vs.map TokenVec.command = requests.map Request.command := by
  induction same with
  | nil => rfl
  | cons first _ ih => rw [List.map_cons, List.map_cons, Request.command_of_tokens capitals first, ih]

/-! ## The turn of a command -/

section Turns

variable {pubsubMessages : Table String (List String)} {c : Nat} {performed : List (Nat × Command)}

/-- The command at a place of a connection takes effect at some point. -/
theorem exists_turn {earlier later : List Command} {command : Command}
    (ran : commandsOf c performed = earlier ++ command :: later) :
    ∃ before after, performed = before ++ (c, command) :: after ∧ commandsOf c before = earlier ∧
      commandsOf c after = later := by
  obtain ⟨firsts, others, mine, first, rest⟩ := List.map_eq_append_iff.1 ran
  obtain ⟨e, lasts, rfl, rfl, last⟩ := List.map_eq_cons_iff.1 rest
  obtain ⟨before, more, rfl, before', more'⟩ := List.filter_eq_append_iff.1 mine
  obtain ⟨between, after, rfl, none, here, after'⟩ := List.filter_eq_cons_iff.1 more'
  refine ⟨before ++ between, after, ?_, ?_, ?_⟩
  · rw [← of_decide_eq_true here, List.append_assoc]
  · have absent : commandsOf c between = [] :=
      commandsOf_of_absent fun e here same => none e here (decide_eq_true same)
    rw [commandsOf_append, absent, List.append_nil, commandsOf, before', first]
  · rw [commandsOf, after', last]

/-- Commands that have one reply each are answered by as many replies. -/
theorem length_answersTo (streams : StreamState)
    (single : ∀ command ∈ commandsOf c performed, ∀ streams, (repliesTo pubsubMessages command streams).length = 1) :
    (answersTo pubsubMessages (repliesTo pubsubMessages) c streams performed).length =
      (commandsOf c performed).length := by
  induction performed generalizing streams with
  | nil => rfl
  | cons e performed ih =>
    rw [← List.singleton_append, commandsOf_append] at single ⊢
    have others := fun command here => single command (List.mem_append_right _ here)
    rw [List.singleton_append, answersTo, List.length_append, List.length_append, ih _ others]
    congr 1
    by_cases mine : e.1 = c
    · have here : commandsOf c [e] = [e.2] := by simp [commandsOf, mine]
      rw [if_pos mine, here]
      refine single e.2 (List.mem_append_left _ ?_) streams
      rw [here]
      exact List.mem_singleton_self _
    · rw [if_neg mine]
      simp [commandsOf, mine]

theorem length_repliesTo (request : Request) (streams : StreamState) :
    (repliesTo pubsubMessages request.command streams).length = 1 := by
  cases request with
  | client _ => rfl
  | xaddMaxlen _ _ _ => rfl
  | xrangeAll _ => rfl

/-- Requests are answered by one reply each. -/
theorem length_answersTo_requests {requests : List Request} (ran : commandsOf c performed = requests.map Request.command)
    (streams : StreamState) :
    (answersTo pubsubMessages (repliesTo pubsubMessages) c streams performed).length = requests.length := by
  rw [length_answersTo, ran, List.length_map]
  rw [ran]
  intro command here
  obtain ⟨request, -, rfl⟩ := List.mem_map.1 here
  exact length_repliesTo request

end Turns

/-! ## What a snapshot makes of its reply -/

section Reading

/-- The last value of a field is the one that is handed out. -/
theorem StreamEntry.carries (entry : StreamEntry) : StreamId.Carries
    (entry.id, (Table.ofPairs entry.fields).entries.map fun f => (f.1, f.2.toUTF8)) entry.streamId := by
  refine ⟨rfl, fun k v => ?_⟩
  have map : entry.streamId.map = Table.ofPairs (entry.fields.map fun f => (f.1, Value.BulkString f.2.toUTF8)) := by
    rw [StreamEntry.streamId, StreamId.ofEntry, Table.ofPairs, List.foldl_map, List.foldl_map]
  rw [map, Table.lookup_ofPairs_map fun text : String => Value.BulkString text.toUTF8, Option.map_eq_some_iff]
  simp only [List.mem_map, Prod.mk.injEq]
  constructor
  · rintro ⟨text, found, rfl⟩
    exact ⟨_, rfl, _, Table.mem_of_lookup found, rfl, rfl⟩
  · rintro ⟨_, rfl, ⟨k, text⟩, here, rfl, rfl⟩
    exact ⟨text, Table.lookup_of_mem here, rfl⟩

variable [RedisClient] [SerdeJson] [SerdeJsonMap] [Debug ParsingError]

/-- A snapshot of any entries of the mock server succeeds. -/
theorem get_streamIds (strings : RedisClient.Strings) (faithful : SerdeJson.Faithful)
    (reads : SerdeJsonMap.ReadsObjects) (entries : List StreamEntry) :
    ∃ msgs : List MapMessage, RedisSnapshot.get (.ok (entries.map StreamEntry.streamId)) = .ok msgs ∧
      List.Forall₂ (fun fields m => MapMessage.Same m ⟨none, Table.ofPairs fields⟩)
        (entries.map StreamEntry.fields) msgs := by
  simp only [RedisSnapshot.get_eq_ok_iff]
  induction entries with
  | nil => exact ⟨[], ⟨[], .nil, rfl⟩, .nil⟩
  | cons entry entries ih =>
    obtain ⟨message, converted, same⟩ := convert_map strings faithful reads entry.carries rfl
    obtain ⟨_, ⟨vals, rest, rfl⟩, sames⟩ := ih
    exact ⟨_, ⟨message :: vals, .cons converted rest, rfl⟩, .cons same sames⟩

end Reading

/-! ## Runs -/

namespace MockServer

/-- The text of these requests was received. -/
def Serving.Received [Allocator] (sv : Serving) (requests : List Request) : Prop :=
  ∃ vs, List.Forall₂ (fun v request => TokenVec.tokens v = request.tokens) vs requests ∧ sv.received = encodeCommands vs

/-- What requests publish to a topic, in order. -/
def published (topic : String) (requests : List Request) : List (Table String String) :=
  requests.filterMap (Request.publishes topic)

theorem addsTo_command (topic : String) (request : Request) :
    request.command.addsTo topic = (request.publishes topic).map Table.pairs := by
  cases request with
  | xaddMaxlen publisher texts nonempty =>
    show ((some (Push.mk publisher.topic texts.pairs)).filter fun p => p.topic = topic).map Push.fields = _
    rw [Request.publishes]
    by_cases same : publisher.topic = topic
    · simp [same]
    · simp [same]
  | _ => rfl

/-- What the requests of a connection publish is added, in the order of the requests. -/
theorem published_sublist {c : Nat} {performed : List (Nat × Command)} {requests : List Request}
    (ran : commandsOf c performed = requests.map Request.command) (topic : String) :
    ((published topic requests).map Table.pairs).Sublist (addedTo topic performed) := by
  have own : (published topic requests).map Table.pairs =
      (commandsOf c performed).filterMap (Command.addsTo topic) := by
    rw [ran, List.filterMap_map, published, List.map_filterMap]
    exact List.filterMap_congr fun request _ => (addsTo_command topic request).symm
  rw [own, commandsOf, List.filterMap_map]
  exact (List.filter_sublist).filterMap _

section Runs

variable [Uppercase] [Allocator] [Debug String] {pubsubMessages : Table String (List String)} {s s' : State} {as : List Action}
  {c : Nat} {sv : Serving}

/-- Commands that have taken effect stay in their order. -/
theorem performed_prefix_of_exec (run : (system pubsubMessages).exec s as = some s') :
    s.performed <+: s'.performed := by
  induction as generalizing s with
  | nil =>
    cases run
    exact List.prefix_rfl
  | cons a as ih =>
    obtain ⟨t, taken, rest⟩ := Option.bind_eq_some_iff.1 run
    refine List.IsPrefix.trans ?_ (ih rest)
    cases Step.of_step taken with
    | perform => exact List.prefix_append _ _
    | _ => exact List.prefix_rfl

/-- A connection that waits has run its requests. -/
theorem commandsOf_of_received (capitals : Uppercase.KeepsCapitals) (reached : (system pubsubMessages).Reachable s)
    (open' : s.serving.lookup c = some sv) (waits : sv.waits) {requests : List Request} (sent : sv.Received requests) :
    commandsOf c s.performed = requests.map Request.command := by
  obtain ⟨vs, same, text⟩ := sent
  obtain ⟨parsed, -⟩ := ((invariant_of_reachable reached).accounted c sv open').of_waits waits
  rw [text, drain_encodeCommands] at parsed
  have commands : vs.map TokenVec.command = commandsOf c s.performed := congrArg Prod.fst (Except.ok.inj parsed)
  rw [← commands, Request.commands_of_tokens capitals same]

omit [Uppercase] [Allocator] [Debug String] in
/-- What was done before a turn, seen from an earlier state in which the turn has not come. -/
theorem performed_prefix_of_turn {before after : List (Nat × Command)} {command : Command}
    (grown : s.performed <+: s'.performed) (turn : s'.performed = before ++ (c, command) :: after)
    (soon : (commandsOf c s.performed).length ≤ (commandsOf c before).length) : s.performed <+: before := by
  rw [turn] at grown
  rcases List.prefix_or_prefix_of_prefix grown (List.prefix_append before _) with early | ⟨more, late⟩
  · exact early
  · rw [← late, List.prefix_append_right_inj] at grown
    cases more with
    | nil =>
      have same : before = s.performed := (List.append_nil before).symm.trans late
      exact same ▸ List.prefix_rfl
    | cons e more =>
      obtain ⟨rfl, -⟩ := List.cons_prefix_cons.1 grown
      have mine : commandsOf c ((c, command) :: more) = command :: commandsOf c more := by simp [commandsOf]
      rw [← late, commandsOf_append, List.length_append, mine, List.length_cons] at soon
      omega

omit [Uppercase] [Allocator] [Debug String] in
/-- Published maps among the messages that show all that was added. -/
theorem shows_published {topic : String} {performed before : List (Nat × Command)} {requests : List Request}
    {msgs : List MapMessage} (ran : commandsOf c performed = requests.map Request.command)
    (done : performed <+: before) (shown : List.Forall₂ (fun fields m =>
      MapMessage.Same m ⟨none, Table.ofPairs fields⟩) (addedTo topic before) msgs) :
    List.SublistForall₂ (fun texts m => MapMessage.Same m ⟨none, texts⟩) (published topic requests) msgs := by
  have part : ((published topic requests).map Table.pairs).Sublist (addedTo topic before) :=
    (published_sublist ran topic).trans (done.sublist.filterMap _)
  obtain ⟨own, same, within⟩ := List.sublistForall₂_iff.1 (Listener.sublistForall₂_of_sublist part shown)
  refine List.sublistForall₂_iff.2 ⟨own, ?_, within⟩
  rw [List.forall₂_map_left_iff] at same
  refine same.imp fun texts m both => ⟨both.1, fun k => ?_⟩
  rw [both.2 k]
  exact Table.lookup_ofPairs_pairs texts k

variable [RedisClient] [SerdeJson] [SerdeJsonMap] [Debug ParsingError] [StreamRangeReply]

/-- **A snapshot shows what was published.** A connection's requests are answered one by one; among them is
a snapshot that had not its turn in an earlier state. It shows the maps that were added to its topic before
this turn, in the order of all requests: it succeeds, and among its messages are, in order, those that were
published before on the same connection, and those of every other connection which had its answers in
the earlier state. -/
theorem snapshot_shows_published (capitals : Uppercase.KeepsCapitals) (strings : RedisClient.Strings)
    (faithful : SerdeJson.Faithful) (reads : SerdeJsonMap.ReadsObjects) (ranges : StreamRangeReply.Reads)
    (reached : (system pubsubMessages).Reachable s) (run : (system pubsubMessages).exec s as = some s')
    (open' : s'.serving.lookup c = some sv) (waits : sv.waits) {topic : String} {earlier later : List Request}
    (sent : sv.Received (earlier ++ .xrangeAll topic :: later))
    (soon : (commandsOf c s.performed).length ≤ earlier.length) :
    ∃ before after, s'.performed = before ++ (c, .Xrange topic) :: after ∧ s.performed <+: before ∧
      ∃ msgs : List MapMessage,
        (∃ replies reply others, Resp.ReadsAll 5 (bytes (String.join sv.written).toList) (replies ++ reply :: others) ∧
          replies.length = earlier.length ∧ others.length = later.length ∧
          RedisSnapshot.get (StreamRangeReply.ids reply) = .ok msgs) ∧
        List.Forall₂ (fun fields m => MapMessage.Same m ⟨none, Table.ofPairs fields⟩) (addedTo topic before) msgs ∧
        List.SublistForall₂ (fun texts m => MapMessage.Same m ⟨none, texts⟩) (published topic earlier) msgs ∧
        ∀ d dv requests, s.serving.lookup d = some dv → dv.waits → dv.Received requests →
          List.SublistForall₂ (fun texts m => MapMessage.Same m ⟨none, texts⟩) (published topic requests) msgs := by
  have reached' := reached.exec run
  have ran := commandsOf_of_received capitals reached' open' waits sent
  rw [List.map_append, List.map_cons] at ran
  obtain ⟨before, after, turn, own, own'⟩ := exists_turn ran
  have done : s.performed <+: before := by
    refine performed_prefix_of_turn (performed_prefix_of_exec run) turn ?_
    rwa [own, List.length_map]
  obtain ⟨msgs, got, shown⟩ := get_streamIds strings faithful reads
    ((streamsAfter pubsubMessages default before).all topic)
  rw [fields_streamsAfter] at shown
  obtain ⟨-, answered⟩ := ((invariant_of_reachable reached').accounted c sv open').of_waits waits
  have answers : Resp.ReadsAll 5 (bytes (String.join sv.written).toList)
      (answersTo pubsubMessages (repliesTo pubsubMessages) c default s'.performed) := by
    rw [answered]
    exact readsAll_answersTo 0 c default s'.performed
  rw [turn, answersTo_append, answersTo, if_pos rfl] at answers
  refine ⟨before, after, turn, done, msgs, ⟨_, _, _, answers, ?_, ?_, ?_⟩, shown, ?_, ?_⟩
  · exact length_answersTo_requests own _
  · exact length_answersTo_requests own' _
  · rw [ranges]
    exact got
  · exact shows_published own List.prefix_rfl shown
  · intro d dv requests there waits' sent'
    exact shows_published (commandsOf_of_received capitals reached there waits' sent') done shown

end Runs

/-! ## A client library -/

theorem toByteArray_bytes (text : String) : (bytes text.toList).toByteArray = text.toUTF8 := by
  rw [String.toUTF8_eq_toByteArray, ← String.utf8Encode_toList]
  rfl

/-- Fields and values, one after the other. -/
def readFields : List Resp.Reply → Fields
  | .bulk field :: .bulk value :: rest => (fromUtf8Lossy field.toByteArray, value.toByteArray) :: readFields rest
  | _ => []

def readEntry : Resp.Reply → Option (StreamId String)
  | .array [.bulk id, .array fields] => some (.ofEntry (fromUtf8Lossy id.toByteArray, readFields fields))
  | _ => none

def readEntries : List Resp.Reply → Except PubSubError (List (StreamId String))
  | [] => .ok []
  | item :: items =>
    match readEntry item, readEntries items with
    | some id, .ok ids => .ok (id :: ids)
    | _, _ => .error default

@[reducible] def rangeReply : StreamRangeReply where
  ids
    | .array items => readEntries items
    | _ => .error default

theorem readFields_flat (fields : List (String × String)) :
    readFields ((Xadd.flat fields).map bulkReply) = fields.map fun f => (f.1, f.2.toUTF8) := by
  induction fields with
  | nil => rfl
  | cons f fields ih =>
    show (fromUtf8Lossy (bytes f.1.toList).toByteArray, (bytes f.2.toList).toByteArray) ::
      readFields ((Xadd.flat fields).map bulkReply) = _
    rw [ih, toByteArray_bytes, toByteArray_bytes, fromUtf8Lossy_toUTF8]
    rfl

theorem rangeReply_reads : @StreamRangeReply.Reads rangeReply := by
  intro entries
  show readEntries (entries.map fun entry => entryReply entry.id entry.fields) = _
  induction entries with
  | nil => rfl
  | cons entry entries ih =>
    have first : readEntry (entryReply entry.id entry.fields) = some entry.streamId := by
      show some (StreamId.ofEntry (fromUtf8Lossy (bytes entry.id.toList).toByteArray, readFields _)) = _
      rw [toByteArray_bytes, fromUtf8Lossy_toUTF8, readFields_flat]
      rfl
    rw [List.map_cons, readEntries, first, ih]
    rfl

/-! ## A run -/

section Concrete

open Concrete

def publishes : TokenVec := ⟨"XADD", ["t", "MAXLEN", "~", "9", "*", "k", "b"], by decide, by decide⟩

def asksAll : TokenVec := ⟨"XRANGE", ["t", "-", "+"], by decide, by decide⟩

/-- A publisher's request, in one read. -/
def publishing : List Action :=
  [.accept, .read 0 (bytes (encodeCommand publishes)), .describe 0, .perform 0, .answer 0, .write 0]

/-- A snapshot's request on a connection of its own. -/
def snapshotting : List Action :=
  [.accept, .read 1 (bytes (encodeCommand asksAll)), .describe 1, .perform 1, .answer 1, .write 1]

theorem keepsCapitals : Uppercase.KeepsCapitals := by
  unfold Uppercase.KeepsCapitals
  decide

/-- What a connection has received, if it waits for input. -/
def State.heard (s : State) (c : Nat) : Option (List Char) :=
  (s.serving.lookup c).bind fun sv =>
    if sv.commands = [] ∧ sv.running.isNone ∧ sv.responses = [] then some sv.received else none

theorem State.exists_of_heard {s : State} {c : Nat} {text : List Char} (heard : s.heard c = some text) :
    ∃ sv, s.serving.lookup c = some sv ∧ sv.waits ∧ sv.received = text := by
  obtain ⟨sv, open', heard⟩ := Option.bind_eq_some_iff.1 heard
  obtain ⟨⟨done, idle, none⟩, received⟩ := Option.ite_none_right_eq_some.1 heard
  exact ⟨sv, open', ⟨done, Option.isNone_iff_eq_none.1 idle, none⟩, Option.some.inj received⟩

open Reference in
theorem snapshot_shows_published_afterwards : ∃ s s' sv, ∃ msgs : List MapMessage,
    (system ∅).exec init publishing = some s ∧
    (system ∅).exec s snapshotting = some s' ∧ s'.serving.lookup 1 = some sv ∧
    (∃ replies reply others, Resp.ReadsAll 5 (bytes (String.join sv.written).toList) (replies ++ reply :: others) ∧
      replies.length = 0 ∧ others.length = 0 ∧ RedisSnapshot.get (rangeReply.ids reply) = .ok msgs) ∧
    List.SublistForall₂ (fun texts m => MapMessage.Same m ⟨none, texts⟩) [Table.ofPairs [("k", "b")]] msgs := by
  have first : ((system ∅).exec init publishing).map
      (fun s => (s.heard 0, commandsOf 1 s.performed)) = some (some (encodeCommands [publishes]), []) := by
    decide +kernel
  have second : ((system ∅).exec init (publishing ++ snapshotting)).map (fun s => s.heard 1) =
      some (some (encodeCommands [asksAll])) := by decide +kernel
  obtain ⟨s, run, facts⟩ := Option.map_eq_some_iff.1 first
  obtain ⟨heard, idle⟩ := Prod.mk.inj facts
  rw [Lts.exec_append, run, Option.bind_some] at second
  obtain ⟨s', run', heard'⟩ := Option.map_eq_some_iff.1 second
  obtain ⟨dv, there, waits, received⟩ := State.exists_of_heard heard
  obtain ⟨sv, open', waits', received'⟩ := State.exists_of_heard heard'
  have published : dv.Received [.xaddMaxlen ⟨"", .Approx 9, "t"⟩ (Table.ofPairs [("k", "b")]) (by decide)] :=
    ⟨[publishes], .cons (by decide) .nil, received⟩
  have asked : sv.Received ([] ++ .xrangeAll "t" :: []) := ⟨[asksAll], .cons rfl .nil, received'⟩
  let _ := rangeReply
  have soon : (commandsOf 1 s.performed).length ≤ ([] : List Request).length := Nat.le_of_eq (congrArg List.length idle)
  obtain ⟨_, _, _, _, msgs, reply, _, _, others⟩ := snapshot_shows_published keepsCapitals strings faithful readsObjects
    rangeReply_reads ⟨publishing, run⟩ run' open' waits' asked soon
  exact ⟨s, s', sv, msgs, run, run', open', reply, others 0 dv _ there waits published⟩

end Concrete

end MockServer

end TestingUtils

end PubSub.Redis
