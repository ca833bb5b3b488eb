import PubSub.Outage
import PubSub.Reconnect

/-!
# What the reconnect loops do, from what they met before

The loops keep an `OutageState`, and the Kafka loop another one for each message stream. Without them:
what an iteration logs and how long it sleeps follows from the reports of the iterations before it, and
what the monitoring of a stream logs for an item follows from the item just before.
-/

namespace PubSub
set_option autoImplicit false
open Base

/-! ## Reports -/

namespace OutageCall

variable {K E : Type}

/-- An error was reported since the last recovery. -/
def inOutage (before : List (OutageCall K E)) : Bool := !(sinceRecovery before).isEmpty

/-- What `on_error` does: it logs the error if it is news, and waits. -/
def report [BEq K] [Debug E] (before : List (OutageCall K E)) (kind : K) (err : E) (context : String) : List Event :=
  line before kind err context ++ [.sleep (wait before)]

end OutageCall

namespace OutageState

variable {K E : Type} [BEq K] [EquivBEq K] [Debug E] {before : List (OutageCall K E)} {o : OutageState K}

theorem Sums.onError (sums : Sums before o) (kind : K) (err : E) (context : String) :
    (o.onError kind err context).1 = OutageCall.report before kind err context ∧
      Sums (before ++ [.onError kind err context]) (o.onError kind err context).2 := by
  obtain ⟨same, next⟩ := sums.call (.onError kind err context)
  exact ⟨congrArg Outcome.events same, next⟩

theorem Sums.onRecovery (sums : Sums before o) :
    o.onRecovery.1 = OutageCall.inOutage before ∧ Sums (before ++ [.onRecovery]) o.onRecovery.2 :=
  ⟨sums.inOutage, (sums.call .onRecovery).2⟩

end OutageState

/-! ## Kafka -/

namespace Kafka

/-- The report that an iteration of `start_stream` makes. -/
def Round.calls : Round → List (OutageCall Nat KafkaError)
  | .creationFailed e => [.onError e.discriminant e "Kafka consumer creation error"]
  | .subscriptionFailed e => [.onError e.discriminant e "Kafka subscription error"]
  | .monitored _ _ => [.onRecovery]

namespace Runtime

variable [Debug KafkaError] [Debug BorrowedMessage]

/-- The error among the items of a message stream. -/
def failure : Except KafkaError BorrowedMessage → Option KafkaError
  | .ok _ => none
  | .error e => some e

/-- What becomes of a message. -/
def converted (msg : BorrowedMessage) : Event :=
  match convertToMessage msg with
  | some message => .send message
  | none => .warn s!"Failed to convert message: {Debug.text msg}"

/-- What an item makes the monitoring do after the item just before it. -/
def handleAfter (previous : Option (Except KafkaError BorrowedMessage)) :
    Except KafkaError BorrowedMessage → List Event
  | .ok msg => (if (previous.bind failure).isSome then [.info "Kafka stream recovered"] else []) ++ [converted msg]
  | .error e =>
    if (previous.bind failure).map KafkaError.discriminant = some e.discriminant then []
    else [.error s!"Kafka stream error: {Debug.text e}"]

def monitorAfter : Option (Except KafkaError BorrowedMessage) → List (Except KafkaError BorrowedMessage) → List Event
  | _, [] => []
  | previous, item :: items => handleAfter previous item ++ monitorAfter (some item) items

/-- What an iteration does after these reports. -/
def traceAfter (host : String) (before : List (OutageCall Nat KafkaError)) : Round → List Event
  | .creationFailed e => .attempt :: OutageCall.report before e.discriminant e "Kafka consumer creation error"
  | .subscriptionFailed e => .attempt :: OutageCall.report before e.discriminant e "Kafka subscription error"
  | .monitored items _ =>
    .attempt :: (if OutageCall.inOutage before then [.info s!"Kafka stream reconnected to {host}"] else [])
      ++ monitorAfter none items

/-- The report that the monitoring makes of an item. -/
def itemCall : Except KafkaError BorrowedMessage → OutageCall Nat KafkaError
  | .ok _ => .onRecovery
  | .error e => .recordError e.discriminant e "Kafka stream error"

variable {before : List (Except KafkaError BorrowedMessage)} {streamOutage : OutageState Nat}

omit [Debug KafkaError] [Debug BorrowedMessage] in
theorem lastKind_itemCall (before : List (Except KafkaError BorrowedMessage)) :
    OutageCall.lastKind (before.map itemCall) = (before.getLast?.bind failure).map KafkaError.discriminant := by
  rcases List.eq_nil_or_concat' before with rfl | ⟨earlier, item, rfl⟩
  · rfl
  · rw [List.map_append, List.map_singleton, List.getLast?_concat]
    cases item with
    | ok msg =>
      rw [itemCall, OutageCall.lastKind, sinceRecovery_onRecovery]
      rfl
    | error e => exact lastKind_error rfl

omit [Debug KafkaError] [Debug BorrowedMessage] in
theorem inOutage_itemCall (before : List (Except KafkaError BorrowedMessage)) :
    OutageCall.inOutage (before.map itemCall) = (before.getLast?.bind failure).isSome := by
  rcases List.eq_nil_or_concat' before with rfl | ⟨earlier, item, rfl⟩
  · rfl
  · rw [List.map_append, List.map_singleton, List.getLast?_concat, OutageCall.inOutage]
    cases item with
    | ok msg =>
      rw [itemCall, sinceRecovery_onRecovery]
      rfl
    | error e =>
      rw [sinceRecovery_error rfl]
      simp [failure]

/-- One item, after items whose reports the state sums up. -/
theorem handle_eq (sums : OutageState.Sums (before.map itemCall) streamOutage)
    (item : Except KafkaError BorrowedMessage) :
    (handle streamOutage item).1 = handleAfter before.getLast? item ∧
      OutageState.Sums ((before ++ [item]).map itemCall) (handle streamOutage item).2 := by
  rw [List.map_append, List.map_singleton]
  cases item with
  | ok msg =>
    obtain ⟨recovered, next⟩ := sums.onRecovery
    refine ⟨?_, next⟩
    rw [inOutage_itemCall] at recovered
    rw [handleAfter, ← recovered]
    rfl
  | error e =>
    obtain ⟨same, next⟩ := sums.call (.recordError e.discriminant e "Kafka stream error")
    refine ⟨(congrArg Outcome.events same).trans ?_, next⟩
    rw [handleAfter, ← lastKind_itemCall, OutageCall.expected]
    dsimp only
    rw [OutageCall.line, OutageCall.isNews]
    cases last : OutageCall.lastKind (before.map itemCall) with
    | none =>
      rw [if_pos rfl, if_neg (Option.some_ne_none _).symm]
      rfl
    | some kind =>
      by_cases same : kind = e.discriminant
      · simp [same]
      · rw [if_pos (bne_iff_ne.2 (Ne.symm same)), if_neg (fun bad => same (Option.some.inj bad))]
        rfl

/-- The monitoring remembers nothing but the item just before. -/
theorem monitorStream_eq (items : List (Except KafkaError BorrowedMessage)) :
    monitorStream items = monitorAfter none items := by
  have walk : ∀ (items before : List (Except KafkaError BorrowedMessage)) (s : List Event × OutageState Nat),
      OutageState.Sums (before.map itemCall) s.2 →
      (items.foldl (fun (s : List Event × OutageState Nat) item =>
        (s.1 ++ (handle s.2 item).1, (handle s.2 item).2)) s).1 = s.1 ++ monitorAfter before.getLast? items := by
    intro items
    induction items with
    | nil => exact fun _ s _ => (List.append_nil s.1).symm
    | cons item items ih =>
      intro before s sums
      obtain ⟨first, next⟩ := handle_eq sums item
      rw [List.foldl_cons, ih (before ++ [item]) (s.1 ++ (handle s.2 item).1, (handle s.2 item).2) next,
        List.getLast?_concat, first, monitorAfter, List.append_assoc]
  exact walk items [] ([], default) .init

theorem round_eq (host : String) (before : List (OutageCall Nat KafkaError)) (outage : OutageState Nat) (r : Round)
    (sums : OutageState.Sums before outage) :
    (round host outage r).1 = traceAfter host before r ∧
      OutageState.Sums (before ++ r.calls) (round host outage r).2 := by
  cases r with
  | creationFailed e =>
    obtain ⟨reported, next⟩ := sums.onError e.discriminant e "Kafka consumer creation error"
    exact ⟨congrArg _ reported, next⟩
  | subscriptionFailed e =>
    obtain ⟨reported, next⟩ := sums.onError e.discriminant e "Kafka subscription error"
    exact ⟨congrArg _ reported, next⟩
  | monitored items finish =>
    obtain ⟨recovered, next⟩ := sums.onRecovery
    refine ⟨?_, next⟩
    rw [traceAfter, ← recovered, ← monitorStream_eq]
    rfl

end Runtime

end Kafka

/-! ## Redis pub/sub -/

namespace Redis

namespace PubSubRuntime

/-- The reports that an iteration of `start_stream` makes. -/
def Round.calls (host : String) : Round → List (OutageCall ErrorKind RedisError)
  | .connectFailed err => [.onError err.kind err "Redis pub/sub connection error"]
  | .drained _ .Reconnect => [.onRecovery, .onError .Io (dropErr host) "Redis pub/sub connection drop"]
  | .drained _ .Stop => [.onRecovery]

variable [RedisClient] [Debug ParsingError] [Debug RedisError]

/-- What draining a connection does after these reports. -/
def drainAfter (host : String) (before : List (OutageCall ErrorKind RedisError))
    (incoming : List (Except ParsingError Value)) : List Event :=
  (if OutageCall.inOutage before then [.info s!"Redis pub/sub recovered for {host}"] else [])
    ++ incoming.map drainMessage

/-- What an iteration does after these reports. A connection that drops is reported as if there had been
no outage before. -/
def traceAfter (host : String) (before : List (OutageCall ErrorKind RedisError)) : Round → List Event
  | .connectFailed err => .attempt :: OutageCall.report before err.kind err "Redis pub/sub connection error"
  | .drained incoming .Reconnect => .attempt :: (drainAfter host before incoming ++
      [.error s!"Redis pub/sub connection drop: {Debug.text (dropErr host)}", .sleep initialBackoff])
  | .drained incoming .Stop => .attempt :: drainAfter host before incoming

theorem round_eq (host : String) (before : List (OutageCall ErrorKind RedisError)) (outage : OutageState ErrorKind)
    (r : Round) (sums : OutageState.Sums before outage) :
    (round host outage r).1 = traceAfter host before r ∧
      OutageState.Sums (before ++ r.calls host) (round host outage r).2 := by
  cases r with
  | connectFailed err =>
    obtain ⟨reported, next⟩ := sums.onError err.kind err "Redis pub/sub connection error"
    exact ⟨congrArg _ reported, next⟩
  | drained incoming outcome =>
    obtain ⟨recovered, next⟩ := sums.onRecovery
    cases outcome with
    | Stop =>
      rw [traceAfter, drainAfter, ← recovered]
      exact ⟨rfl, next⟩
    | Reconnect =>
      obtain ⟨-, last⟩ := next.onError .Io (dropErr host) "Redis pub/sub connection drop"
      rw [List.append_assoc before] at last
      rw [traceAfter, drainAfter, ← recovered]
      exact ⟨rfl, last⟩

end PubSubRuntime

/-! ## Redis Streams -/

namespace StreamRuntime

variable {I : Type}

/-- The reports that an iteration of `start_stream` makes. -/
def Round.calls : Round I → List (OutageCall ErrorKind RedisError)
  | .connectionFailed err => [.onError err.kind err "Redis stream connection error"]
  | .monitored _ (.failed err) => [.onRecovery, .onError err.kind err "Redis stream XREAD error"]
  | .monitored _ .cancelled => [.onRecovery]

variable [RedisClient] [SerdeJson] [Debug ParsingError] [Debug (StreamId I)] [Debug RedisError]

/-- What a session does after these reports. -/
def monitorAfter (host : String) (before : List (OutageCall ErrorKind RedisError))
    (replies : List (List (StreamId I))) : List Event :=
  (if OutageCall.inOutage before then [.info s!"Redis stream recovered for {host}"] else [])
    ++ replies.flatten.map forward

/-- What an iteration does after these reports. An `XREAD` that fails is reported as if there had been no
outage before. -/
def traceAfter (host : String) (before : List (OutageCall ErrorKind RedisError)) : Round I → List Event
  | .connectionFailed err => .attempt :: OutageCall.report before err.kind err "Redis stream connection error"
  | .monitored replies (.failed err) => .attempt :: (monitorAfter host before replies ++ [.evict] ++
      [.error s!"Redis stream XREAD error: {Debug.text err}", .sleep initialBackoff])
  | .monitored replies .cancelled => .attempt :: monitorAfter host before replies

theorem round_eq (host : String) (before : List (OutageCall ErrorKind RedisError)) (outage : OutageState ErrorKind)
    (r : Round I) (sums : OutageState.Sums before outage) :
    (round host outage r).1 = traceAfter host before r ∧ OutageState.Sums (before ++ r.calls) (round host outage r).2 := by
  cases r with
  | connectionFailed err =>
    obtain ⟨reported, next⟩ := sums.onError err.kind err "Redis stream connection error"
    exact ⟨congrArg _ reported, next⟩
  | monitored replies finish =>
    obtain ⟨recovered, next⟩ := sums.onRecovery
    cases finish with
    | cancelled =>
      rw [traceAfter, monitorAfter, ← recovered]
      exact ⟨rfl, next⟩
    | failed err =>
      obtain ⟨-, last⟩ := next.onError err.kind err "Redis stream XREAD error"
      rw [List.append_assoc before] at last
      rw [traceAfter, monitorAfter, ← recovered]
      exact ⟨rfl, last⟩

end StreamRuntime

end Redis

/-! ## Whole runs -/

section Runs

open Redis

variable [RedisClient] [SerdeJson] [Debug Kafka.KafkaError] [Debug Kafka.BorrowedMessage] [Debug ParsingError]
  [Debug RedisError] {I : Type} [Debug (StreamId I)]

/-- **The history of a run decides what it does.** In each of the three loops the whole trace of an
iteration (attempt, log lines, broadcasts, sleep) follows from what it meets and from the reports of the
iterations before it; within a Kafka stream, what is done for an item from the item just before. -/
theorem startStream_eq_byHistory (host : String) (kafka : List Kafka.Round) (pubsub : List PubSubRuntime.Round)
    (stream : List (StreamRuntime.Round I)) :
    Kafka.Runtime.startStream host kafka =
        byHistory Kafka.Round.calls (Kafka.Runtime.traceAfter host) (executed Kafka.Round.stops kafka) ∧
      PubSubRuntime.startStream host pubsub = byHistory (PubSubRuntime.Round.calls host)
        (PubSubRuntime.traceAfter host) (executed PubSubRuntime.Round.stops pubsub) ∧
      StreamRuntime.startStream host stream = byHistory StreamRuntime.Round.calls
        (StreamRuntime.traceAfter host) (executed StreamRuntime.Round.stops stream) := by
  refine ⟨?_, ?_, ?_⟩
  · exact iterate_eq_byHistory (Kafka.Runtime.round_eq host) .init kafka
  · exact iterate_eq_byHistory (PubSubRuntime.round_eq host) .init pubsub
  · exact iterate_eq_byHistory (StreamRuntime.round_eq host) .init stream

end Runs

end PubSub
