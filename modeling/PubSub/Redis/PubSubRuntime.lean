import PubSub.Backoff
import PubSub.Base.Reconnect
import PubSub.Redis.Value

/-!
# The Redis pub/sub runtime

`start_stream` as a loop over what each iteration meets: the error of connecting and subscribing,
or the messages that arrive and why the draining ends.
-/

namespace PubSub.Redis.PubSubRuntime
set_option autoImplicit false
open Base

inductive DrainOutcome where
  /-- the underlying connection closed -/
  | Reconnect
  /-- the token fired -/
  | Stop
  deriving DecidableEq

/-- What one iteration of `start_stream` meets; an incoming message is its payload or the error of
decoding that. -/
inductive Round where
  | connectFailed (err : RedisError)
  | drained (incoming : List (Except ParsingError Value)) (outcome : DrainOutcome)

def Round.stops : Round → Bool
  | .drained _ .Stop => true
  | _ => false

variable [RedisClient] [Debug ParsingError] [Debug RedisError]

/-- One iteration of the loop of `drain_messages`. -/
def drainMessage : Except ParsingError Value → Event
  | .error e => .warn s!"Redis pub/sub failed to decode message payload: {Debug.text e}"
  | .ok (.BulkString b) => .send (.fromValue b)
  | .ok other =>
    match RedisClient.fromRedisValue other with
    | .ok s => .send (.fromValue s.toUTF8)
    | .error e => .warn s!"Redis pub/sub failed to convert message value: {Debug.text e}"

/-- The error that stands for a closed connection. -/
def dropErr (host : String) : RedisError where
  kind := .Io
  description := "Redis pub/sub connection closed unexpectedly"
  detail := some host

/-- One iteration of `start_stream`. -/
def round (host : String) (outage : OutageState ErrorKind) : Round → List Event × OutageState ErrorKind
  | .connectFailed err =>
    let (events, outage) := outage.onError err.kind err "Redis pub/sub connection error"
    (.attempt :: events, outage)
  | .drained incoming outcome =>
    let (recovered, outage) := outage.onRecovery
    let drained := (if recovered then [.info s!"Redis pub/sub recovered for {host}"] else [])
      ++ incoming.map drainMessage
    match outcome with
    | .Reconnect =>
      let (events, outage) := outage.onError (dropErr host).kind (dropErr host) "Redis pub/sub connection drop"
      (.attempt :: (drained ++ events), outage)
    | .Stop => (.attempt :: drained, outage)

/-- What `start_stream` does, iteration by iteration. -/
def startStream (host : String) (rounds : List Round) : List (List Event) :=
  iterate (round host) Round.stops default rounds

/-! ## Attempts and rests -/

omit [Debug RedisError] in
theorem passing_of_drainMessage {incoming : List (Except ParsingError Value)} :
    ∀ e ∈ incoming.map drainMessage, e.passing := by
  intro e here
  obtain ⟨item, -, rfl⟩ := List.mem_map.1 here
  unfold drainMessage
  split
  · trivial
  · trivial
  · split <;> trivial

theorem oneAttempt (host : String) (outage : OutageState ErrorKind) (r : Round) :
    OneAttempt (· = .attempt) (round host outage r).1 := by
  cases r with
  | connectFailed err => exact oneAttempt_of_onError [] (by simp)
  | drained incoming outcome =>
    cases outcome with
    | Reconnect =>
      show OneAttempt _ (.attempt :: (_ ++ (outage.onRecovery.2.onError .Io (dropErr host) _).1))
      exact oneAttempt_of_onError _ (passing_of_recovered passing_of_drainMessage)
    | Stop => exact oneAttempt_of_passing (passing_of_recovered passing_of_drainMessage)

/-- Every iteration but the last one rests. -/
theorem rests (host : String) (outage : OutageState ErrorKind) (r : Round) (goes : r.stops = false) :
    ∃ e ∈ (round host outage r).1.tail, e.rests := by
  cases r with
  | connectFailed err => exact rests_of_onError []
  | drained incoming outcome =>
    cases outcome with
    | Reconnect =>
      show ∃ e ∈ _ ++ (outage.onRecovery.2.onError .Io (dropErr host) _).1, e.rests
      exact rests_of_onError _
    | Stop => cases goes

theorem backsOff (host : String) (rounds : List Round) : BacksOff (startStream host rounds) :=
  spaced_iterate (oneAttempt host) (rests host) default rounds

end PubSub.Redis.PubSubRuntime
