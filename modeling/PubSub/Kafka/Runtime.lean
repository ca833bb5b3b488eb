import PubSub.Backoff
import PubSub.Base.Reconnect
import PubSub.Kafka.Snapshot

/-!
# The Kafka streaming runtime

`start_stream` as a loop over what the client library answers in each iteration: the error of
creating or subscribing a consumer, or the items of its message stream and how the monitoring
ends. An iteration that is cancelled is the last one.
-/

namespace PubSub.Kafka
set_option autoImplicit false
open Base

/-- `mem::discriminant`. -/
def KafkaError.discriminant : KafkaError → Nat
  | .MetadataFetch _ => 0
  | .MessageConsumption _ => 1
  | .Other variant _ => variant + 2

/-- How a run of `monitor_stream` ends: the message stream is over, or the token fires. -/
inductive Finish where
  | ended
  | cancelled
  deriving DecidableEq

/-- What one iteration of `start_stream` meets. -/
inductive Round where
  | creationFailed (e : KafkaError)
  | subscriptionFailed (e : KafkaError)
  | monitored (items : List (Except KafkaError BorrowedMessage)) (finish : Finish)

/-- The token fires while the stream is monitored. -/
def Round.stops : Round → Bool
  | .monitored _ .cancelled => true
  | _ => false

/-- The message stream is over, and nobody asked for it. -/
def Round.endsEarly : Round → Bool
  | .monitored _ .ended => true
  | _ => false

namespace Runtime

def convertToMessage (incoming : BorrowedMessage) : Option ByteMessage :=
  incoming.payload.map (Message.fromBytes incoming.key)

variable [Debug KafkaError] [Debug BorrowedMessage]

/-- One item of the message stream. -/
def handle (streamOutage : OutageState Nat) :
    Except KafkaError BorrowedMessage → List Event × OutageState Nat
  | .ok msg =>
    let (recovered, streamOutage) := streamOutage.onRecovery
    let converted := match convertToMessage msg with
      | some message => .send message
      | none => .warn s!"Failed to convert message: {Debug.text msg}"
    ((if recovered then [.info "Kafka stream recovered"] else []) ++ [converted], streamOutage)
  | .error e => (streamOutage.recordError e.discriminant e "Kafka stream error").2

def monitorStream (items : List (Except KafkaError BorrowedMessage)) : List Event :=
  (items.foldl (fun (s : List Event × OutageState Nat) item =>
    (s.1 ++ (handle s.2 item).1, (handle s.2 item).2)) ([], default)).1

/-- One iteration of `start_stream`. -/
def round (host : String) (outage : OutageState Nat) : Round → List Event × OutageState Nat
  | .creationFailed e =>
    let (events, outage) := outage.onError e.discriminant e "Kafka consumer creation error"
    (.attempt :: events, outage)
  | .subscriptionFailed e =>
    let (events, outage) := outage.onError e.discriminant e "Kafka subscription error"
    (.attempt :: events, outage)
  | .monitored items _ =>
    let (recovered, outage) := outage.onRecovery
    (.attempt :: (if recovered then [.info s!"Kafka stream reconnected to {host}"] else [])
      ++ monitorStream items, outage)

/-- What `start_stream` does, iteration by iteration. -/
def startStream (host : String) (rounds : List Round) : List (List Event) :=
  iterate (round host) Round.stops default rounds

/-! ## Attempts and rests -/

theorem passing_of_handle {streamOutage : OutageState Nat} {item : Except KafkaError BorrowedMessage} :
    ∀ e ∈ (handle streamOutage item).1, e.passing := by
  cases item with
  | error err =>
    intro e here
    obtain ⟨line, rfl⟩ := OutageState.mem_recordError here
    trivial
  | ok msg =>
    refine passing_of_recovered fun e here => ?_
    rw [List.mem_singleton.1 here]
    split <;> trivial

/-- Monitoring neither sleeps nor connects, however many errors there are among the items. -/
theorem passing_of_monitorStream {items : List (Except KafkaError BorrowedMessage)} :
    ∀ e ∈ monitorStream items, e.passing := by
  have walk : ∀ (items : List (Except KafkaError BorrowedMessage)) (s : List Event × OutageState Nat),
      (∀ e ∈ s.1, e.passing) → ∀ e ∈ (items.foldl (fun (s : List Event × OutageState Nat) item =>
        (s.1 ++ (handle s.2 item).1, (handle s.2 item).2)) s).1, e.passing := by
    intro items
    induction items with
    | nil => exact fun s before => before
    | cons item items ih =>
      refine fun s before => ih _ fun e here => ?_
      rcases List.mem_append.1 here with old | new
      · exact before e old
      · exact passing_of_handle e new
  exact walk items _ (by simp)

theorem oneAttempt (host : String) (outage : OutageState Nat) (r : Round) :
    OneAttempt (· = .attempt) (round host outage r).1 := by
  cases r with
  | creationFailed err => exact oneAttempt_of_onError [] (by simp)
  | subscriptionFailed err => exact oneAttempt_of_onError [] (by simp)
  | monitored items finish =>
    exact oneAttempt_of_passing (passing_of_recovered passing_of_monitorStream)

/-- An iteration that is not the last one rests, unless it sees the end of the message stream. -/
theorem rests_iff (host : String) (outage : OutageState Nat) (r : Round) (goes : r.stops = false) :
    (∃ e ∈ (round host outage r).1.tail, e.rests) ↔ r.endsEarly = false := by
  cases r with
  | creationFailed err => exact iff_of_true (rests_of_onError []) rfl
  | subscriptionFailed err => exact iff_of_true (rests_of_onError []) rfl
  | monitored items finish =>
    have passing : ∀ e ∈ (round host outage (.monitored items finish)).1.tail, e.passing :=
      passing_of_recovered passing_of_monitorStream
    cases finish with
    | cancelled => cases goes
    | ended =>
      refine iff_of_false ?_ (by simp [Round.endsEarly])
      rintro ⟨e, here, rests⟩
      exact (passing e here).not_rests rests

/-- The loop backs off exactly when no message stream ends before another consumer is created. -/
theorem backsOff_iff (host : String) (rounds : List Round) :
    BacksOff (startStream host rounds) ↔ ∀ r ∈ followed Round.stops rounds, r.endsEarly = false :=
  spaced_iterate_iff (oneAttempt host) (rests_iff host) default rounds

end Runtime

end PubSub.Kafka
