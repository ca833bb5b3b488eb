import PubSub.Base.Reconnect
import PubSub.Redis.Session

/-!
# The Redis Stream polling runtime

`start_stream` as a loop over what each iteration meets: the error of connecting, or the replies
of a session and how it ends.
-/

namespace PubSub.Redis
set_option autoImplicit false
open Base

namespace StreamRuntime

variable {I : Type} [RedisClient] [SerdeJson] [Debug ParsingError] [Debug (StreamId I)]

/-- How a session ends: an `XREAD` fails, or the token fires. -/
inductive Finish where
  | failed (err : RedisError)
  | cancelled

/-- What one iteration of `start_stream` meets. -/
inductive Round (I : Type) where
  | connectionFailed (err : RedisError)
  | monitored (replies : List (List (StreamId I))) (finish : Finish)

def Round.stops : Round I → Bool
  | .monitored _ .cancelled => true
  | _ => false

variable [Debug RedisError]

/-- One iteration of `start_stream`. -/
def round (host : String) (outage : OutageState ErrorKind) : Round I → List Event × OutageState ErrorKind
  | .connectionFailed err =>
    let (events, outage) := outage.onError err.kind err "Redis stream connection error"
    (.attempt :: events, outage)
  | .monitored replies finish =>
    let (recovered, outage) := outage.onRecovery
    let session := (if recovered then [.info s!"Redis stream recovered for {host}"] else [])
      ++ replies.flatten.map forward
    match finish with
    | .failed err =>
      let (events, outage) := outage.onError err.kind err "Redis stream XREAD error"
      (.attempt :: (session ++ [.evict] ++ events), outage)
    | .cancelled => (.attempt :: session, outage)

/-- What `start_stream` does, iteration by iteration. -/
def startStream (host : String) (rounds : List (Round I)) : List (List Event) :=
  iterate (round host) Round.stops default rounds

omit [Debug RedisError] in
theorem passing_of_forward (replies : List (List (StreamId I))) :
    ∀ e ∈ replies.flatten.map forward, e.passing := by
  intro e here
  obtain ⟨entry, -, rfl⟩ := List.mem_map.1 here
  unfold forward
  split <;> trivial

theorem oneAttempt (host : String) (outage : OutageState ErrorKind) (r : Round I) :
    OneAttempt (· = .attempt) (round host outage r).1 := by
  cases r with
  | connectionFailed err => exact oneAttempt_of_onError [] (by simp)
  | monitored replies finish =>
    cases finish with
    | failed err =>
      show OneAttempt _ (.attempt :: (_ ++ [.evict] ++ (outage.onRecovery.2.onError err.kind err _).1))
      refine oneAttempt_of_onError _ (List.forall_mem_append.2 ⟨?_, by simp [Event.passing]⟩)
      exact passing_of_recovered (passing_of_forward replies)
    | cancelled => exact oneAttempt_of_passing (passing_of_recovered (passing_of_forward replies))

/-- Every iteration but the last one rests. -/
theorem rests (host : String) (outage : OutageState ErrorKind) (r : Round I) (goes : r.stops = false) :
    ∃ e ∈ (round host outage r).1.tail, e.rests := by
  cases r with
  | connectionFailed err => exact rests_of_onError []
  | monitored replies finish =>
    cases finish with
    | failed err =>
      show ∃ e ∈ _ ++ (outage.onRecovery.2.onError err.kind err _).1, e.rests
      exact rests_of_onError _
    | cancelled => cases goes

theorem backsOff (host : String) (rounds : List (Round I)) : BacksOff (startStream host rounds) :=
  spaced_iterate (oneAttempt host) (rests host) default rounds

end StreamRuntime

end PubSub.Redis
