import PubSub.Kafka.Runtime
import PubSub.Redis.PubSubRuntime
import PubSub.Redis.StreamRuntime

/-!
# Reconnecting in the three backends

The three `start_stream` loops side by side. Each Redis iteration that is followed by another one
ends in an error and sleeps; a Kafka consumer whose message stream is over is replaced at once.
The Redis loops forget an outage as soon as a connection stands, before anything was received.
-/

namespace PubSub
set_option autoImplicit false
open Base Redis

/-! ## A rest between two attempts -/

section Spacing

variable [RedisClient] [SerdeJson] [Debug Kafka.KafkaError] [Debug Kafka.BorrowedMessage] [Debug ParsingError]
  [Debug RedisError] {I : Type} [Debug (StreamId I)]

/-- **No reconnect without backoff**, exactly when no Kafka message stream ends by itself before
another consumer is created. -/
theorem reconnect_backsOff_iff (host : String) (kafka : List Kafka.Round) (pubsub : List PubSubRuntime.Round)
    (stream : List (StreamRuntime.Round I)) :
    BacksOff (Kafka.Runtime.startStream host kafka) ∧ BacksOff (PubSubRuntime.startStream host pubsub) ∧
        BacksOff (StreamRuntime.startStream host stream) ↔
      ∀ r ∈ followed Kafka.Round.stops kafka, r.endsEarly = false := by
  rw [Kafka.Runtime.backsOff_iff]
  exact and_iff_left ⟨PubSubRuntime.backsOff host pubsub, StreamRuntime.backsOff host stream⟩

end Spacing

/-- Two consumers in a row whose message streams are over at once. -/
def spinning : List Kafka.Round := [.monitored [] .ended, .monitored [] .ended]

theorem spinning_not_backsOff : ¬ ∀ (_ : Debug Kafka.KafkaError) (_ : Debug Kafka.BorrowedMessage),
    BacksOff (Kafka.Runtime.startStream "localhost:9092" spinning) := by
  intro always
  have spaced := always ⟨fun _ => ""⟩ ⟨fun _ => ""⟩
  obtain ⟨_, bad, -⟩ := spaced [] [] [] .attempt .attempt rfl rfl rfl
  cases bad

/-! ## Repeated failures of fresh sessions -/

/-- One ERROR line, and waits that double up to the maximum. -/
structure Suppressed (n : Nat) (t : List Event) : Prop where
  oneLine : (errorLines t).length = 1
  waits : sleeps t = (List.range n).map fun i => min (fromSecs (2 ^ i)) maxBackoff

/-- A failure is logged, and waited for as short as possible. -/
structure Anew (t : List Event) : Prop where
  line : (errorLines t).length = 1
  wait : sleeps t = [initialBackoff]

/-- A loop that takes each failure as if it were the first suppresses nothing. -/
theorem suppressed_iterate_iff {S R : Type} {round : S → R → List Event × S} {stops : R → Bool} {rs : List R}
    (goes : ∀ r ∈ rs, stops r = false) (anew : ∀ s, ∀ r ∈ rs, Anew (round s r).1) {n : Nat}
    (count : rs.length = n) (s : S) : Suppressed n (iterate round stops s rs).flatten ↔ n = 1 := by
  have lines := map_iterate (fun t => (errorLines t).length) goes (fun s r here => (anew s r here).line) s
  have waits := map_iterate sleeps goes (fun s r here => (anew s r here).wait) s
  have total : (errorLines (iterate round stops s rs).flatten).length = n := by
    rw [errorLines, List.filterMap_flatten, List.length_flatten, List.map_map]
    refine (congrArg List.sum lines).trans ?_
    rw [List.sum_replicate_nat, count, Nat.mul_one]
  constructor
  · intro suppressed
    rw [← total]
    exact suppressed.oneLine
  · intro single
    refine ⟨total.trans single, ?_⟩
    rw [sleeps, List.filterMap_flatten]
    refine (congrArg List.flatten waits).trans ?_
    rw [count, single]
    rfl

/-- After a recovery, the first failure is taken anew. -/
theorem anew_of_recovered {K E : Type} [BEq K] [Debug E] {kind : K} {err : E} {context : String}
    {o : OutageState K} {body : List Event} (silent : errorLines body = []) (awake : sleeps body = []) :
    Anew (.attempt :: (body ++ (o.onRecovery.2.onError kind err context).1)) := by
  rw [OutageState.onRecovery_snd, OutageState.default_onError]
  constructor
  · show (errorLines (body ++ _)).length = 1
    rw [errorLines_append, silent]
    rfl
  · show sleeps (body ++ _) = _
    rw [sleeps_append, awake]
    rfl

section Failures

variable [RedisClient] [SerdeJson] [Debug ParsingError] [Debug RedisError] {I : Type} [Debug (StreamId I)]

/-- Connections that are established and close before a message arrives. -/
def drops (n : Nat) : List PubSubRuntime.Round := List.replicate n (.drained [] .Reconnect)

/-- Sessions whose first `XREAD` fails, with errors of one kind. -/
def xreadFailures (I : Type) (kind : ErrorKind) (details : List (String × Option String)) :
    List (StreamRuntime.Round I) :=
  details.map fun d => .monitored [] (.failed ⟨kind, d.1, d.2⟩)

omit [SerdeJson] in
theorem anew_drop (host : String) (outage : OutageState ErrorKind) :
    Anew (PubSubRuntime.round host outage (.drained [] .Reconnect)).1 := by
  show Anew (.attempt :: ((if outage.onRecovery.1 then [.info _] else []) ++ []
    ++ (outage.onRecovery.2.onError .Io (PubSubRuntime.dropErr host) _).1))
  apply anew_of_recovered
  · simp only [List.append_nil, errorLines_recovered]
  · simp only [List.append_nil, sleeps_recovered]

theorem anew_xreadFailure (host : String) (outage : OutageState ErrorKind) (err : RedisError) :
    Anew (StreamRuntime.round (I := I) host outage (.monitored [] (.failed err))).1 := by
  show Anew (.attempt :: ((if outage.onRecovery.1 then [.info _] else []) ++ [] ++ [.evict]
    ++ (outage.onRecovery.2.onError err.kind err _).1))
  apply anew_of_recovered
  · rw [List.append_nil, errorLines_append, errorLines_recovered]
    rfl
  · rw [List.append_nil, sleeps_append, sleeps_recovered]
    rfl

/-- **Repeated failures are logged and waited for as if each were the first.** Whatever the loop
went through before, they are suppressed only when there is one of them. -/
theorem suppressed_iff (host : String) (before : OutageState ErrorKind) :
    (∀ n, Suppressed n (iterate (PubSubRuntime.round host) PubSubRuntime.Round.stops before (drops n)).flatten ↔
        n = 1) ∧
      ∀ kind details, Suppressed details.length (iterate (StreamRuntime.round host) StreamRuntime.Round.stops before
        (xreadFailures I kind details)).flatten ↔ details.length = 1 := by
  refine ⟨fun n => ?_, fun kind details => ?_⟩
  · apply suppressed_iterate_iff
    · intro r here
      rw [List.eq_of_mem_replicate here]
      rfl
    · intro s r here
      rw [List.eq_of_mem_replicate here]
      exact anew_drop host s
    · exact List.length_replicate
  · apply suppressed_iterate_iff
    · intro r here
      obtain ⟨d, -, rfl⟩ := List.mem_map.1 here
      rfl
    · intro s r here
      obtain ⟨d, -, rfl⟩ := List.mem_map.1 here
      exact anew_xreadFailure host s _
    · exact List.length_map _

end Failures

theorem drops_not_suppressed : ¬ ∀ (_ : RedisClient) (_ : Debug ParsingError) (_ : Debug RedisError),
    Suppressed 2 (PubSubRuntime.startStream "redis://127.0.0.1/" (drops 2)).flatten := by
  intro always
  have suppressed := @always ⟨fun _ => .ok "", fun _ => .ok ""⟩ ⟨fun _ => ""⟩ ⟨fun _ => ""⟩
  exact absurd suppressed.oneLine (by decide)

end PubSub
