import Mathlib.Algebra.Group.Nat.Defs
import PubSub.Base.Reconnect
import PubSub.Message

/-!
# Outages: error deduplication and backoff

`OutageState` as a structure that carries the bounds of its backoff, so that every value of the
type sleeps between `initialBackoff` and `maxBackoff`. Its operations return what they emit as a
list of events, the log lines and sleeps of the loop that calls them in order.
-/

namespace PubSub
set_option autoImplicit false
open Base

/-- Maximum exponential-backoff delay applied after connection failures. -/
def maxBackoff : Nat := fromSecs 30

def initialBackoff : Nat := fromSecs 1

/-- What a streaming runtime does, as seen from outside. -/
inductive Event where
  /-- an attempt to connect -/
  | attempt
  | error (line : String)
  | info (line : String)
  | warn (line : String)
  | sleep (duration : Nat)
  | send (message : ByteMessage)
  /-- the host's cached connection is removed -/
  | evict
  deriving DecidableEq

structure OutageState (K : Type) where
  lastErrorKind : Option K
  nextBackoff : Nat
  least : initialBackoff ≤ nextBackoff
  most : nextBackoff ≤ maxBackoff

namespace OutageState

variable {K E : Type} [BEq K] [Debug E]

instance : Inhabited (OutageState K) := ⟨⟨none, initialBackoff, Nat.le_refl _, by decide⟩⟩

def isInOutage (o : OutageState K) : Bool := o.lastErrorKind.isSome

/-- Log the error unless its kind was the last one recorded; tell whether it was logged. -/
def recordError (kind : K) (err : E) (context : String) (o : OutageState K) :
    Bool × List Event × OutageState K :=
  if some kind != o.lastErrorKind then
    (true, [.error s!"{context}: {Debug.text err}"], { o with lastErrorKind := some kind })
  else (false, [], o)

/-- Log the error (deduplicated), sleep, and advance the timer. -/
def onError (kind : K) (err : E) (context : String) (o : OutageState K) : List Event × OutageState K :=
  let (_, line, o) := o.recordError kind err context
  -- sleeps also on a duplicated kind
  (line ++ [.sleep o.nextBackoff],
    { o with
      nextBackoff := min (o.nextBackoff * 2) maxBackoff
      least := by
        have := o.least
        have : initialBackoff ≤ maxBackoff := by decide
        omega
      most := Nat.min_le_right .. })

/-- Reset after a successful connection; tell whether there was an outage. -/
def onRecovery (o : OutageState K) : Bool × OutageState K :=
  (o.isInOutage, { o with
    lastErrorKind := none
    nextBackoff := initialBackoff
    least := Nat.le_refl _
    most := by decide })

variable {kind : K} {err : E} {context : String} {o : OutageState K} {e : Event}

theorem mem_recordError (here : e ∈ (o.recordError kind err context).2.1) : ∃ line, e = .error line := by
  unfold recordError at here
  split at here
  · exact ⟨_, List.mem_singleton.1 here⟩
  · cases here

theorem onError_events : (o.onError kind err context).1 =
    (o.recordError kind err context).2.1 ++ [.sleep (o.recordError kind err context).2.2.nextBackoff] := rfl

theorem recordError_nextBackoff : (o.recordError kind err context).2.2.nextBackoff = o.nextBackoff := by
  unfold recordError
  split <;> rfl

omit [BEq K] in
/-- Whatever happened before, a recovery leads back to the start. -/
theorem onRecovery_snd (o : OutageState K) : o.onRecovery.2 = default := rfl

/-- The first error after a recovery is logged, and waited for as short as possible. -/
theorem default_onError : ((default : OutageState K).onError kind err context).1 =
    [.error s!"{context}: {Debug.text err}", .sleep initialBackoff] := rfl

end OutageState

/-- A sleep of at least the initial backoff. -/
def Event.rests (e : Event) : Prop := ∃ d, e = .sleep d ∧ initialBackoff ≤ d

/-- Neither an attempt nor a sleep. -/
def Event.passing : Event → Prop
  | .attempt | .sleep _ => False
  | _ => True

theorem Event.passing.not_attempt {e : Event} (passing : e.passing) : e ≠ .attempt := by
  rintro rfl
  exact passing

theorem Event.passing.not_rests {e : Event} (passing : e.passing) : ¬ e.rests := by
  rintro ⟨d, rfl, -⟩
  exact passing

/-- Between two attempts a loop sleeps, for at least the initial backoff. -/
def BacksOff (rounds : List (List Event)) : Prop := Spaced (· = .attempt) Event.rests rounds.flatten

/-- The ERROR lines of a trace. -/
def errorLines (t : List Event) : List String :=
  t.filterMap fun | .error line => some line | _ => none

/-- The sleeps of a trace. -/
def sleeps (t : List Event) : List Nat :=
  t.filterMap fun | .sleep d => some d | _ => none

/-- The messages that a trace broadcasts. -/
def sends (t : List Event) : List ByteMessage :=
  t.filterMap fun | .send message => some message | _ => none

/-- A recovery is at most told, before what follows it. -/
theorem passing_of_recovered {recovered : Bool} {line : String} {rest : List Event}
    (passing : ∀ e ∈ rest, e.passing) : ∀ e ∈ (if recovered then [.info line] else []) ++ rest, e.passing := by
  intro e here
  rcases List.mem_append.1 here with info | later
  · split at info
    · rw [List.mem_singleton.1 info]
      trivial
    · cases info
  · exact passing e later

@[simp] theorem errorLines_append (t u : List Event) : errorLines (t ++ u) = errorLines t ++ errorLines u :=
  List.filterMap_append

@[simp] theorem sleeps_append (t u : List Event) : sleeps (t ++ u) = sleeps t ++ sleeps u :=
  List.filterMap_append

@[simp] theorem sends_append (t u : List Event) : sends (t ++ u) = sends t ++ sends u :=
  List.filterMap_append

@[simp] theorem errorLines_recovered {recovered : Bool} {line : String} :
    errorLines (if recovered then [.info line] else []) = [] := by
  cases recovered <;> rfl

@[simp] theorem sleeps_recovered {recovered : Bool} {line : String} :
    sleeps (if recovered then [.info line] else []) = [] := by
  cases recovered <;> rfl

@[simp] theorem sends_recovered {recovered : Bool} {line : String} :
    sends (if recovered then [.info line] else []) = [] := by
  cases recovered <;> rfl

section Reporting

variable {K E : Type} [BEq K] [Debug E] {kind : K} {err : E} {context : String} {o : OutageState K}

/-- An iteration that connects and then only passes things on. -/
theorem oneAttempt_of_passing {body : List Event} (passing : ∀ e ∈ body, e.passing) :
    OneAttempt (· = .attempt) (.attempt :: body) :=
  ⟨_, _, rfl, rfl, fun e here => (passing e here).not_attempt⟩

/-- An iteration that ends by reporting an error. -/
theorem oneAttempt_of_onError (body : List Event) (passing : ∀ e ∈ body, e.passing) :
    OneAttempt (· = .attempt) (.attempt :: (body ++ (o.onError kind err context).1)) := by
  refine ⟨_, _, rfl, rfl, fun e here bad => ?_⟩
  subst bad
  rw [OutageState.onError_events, List.mem_append, List.mem_append, List.mem_singleton] at here
  rcases here with early | line | sleep
  · exact (passing _ early).not_attempt rfl
  · obtain ⟨_, bad⟩ := OutageState.mem_recordError line
    cases bad
  · cases sleep

/-- Reporting an error broadcasts nothing. -/
theorem sends_recordError : sends (o.recordError kind err context).2.1 = [] := by
  rw [sends, List.filterMap_eq_nil_iff]
  intro e here
  obtain ⟨line, rfl⟩ := OutageState.mem_recordError here
  rfl

theorem sends_onError : sends (o.onError kind err context).1 = [] := by
  rw [OutageState.onError_events, sends_append, sends_recordError]
  rfl

theorem rests_of_onError (body : List Event) : ∃ e ∈ body ++ (o.onError kind err context).1, e.rests := by
  refine ⟨.sleep o.nextBackoff, List.mem_append_right _ ?_, o.nextBackoff, rfl, o.least⟩
  rw [OutageState.onError_events, OutageState.recordError_nextBackoff]
  exact List.mem_append_right _ (List.mem_singleton.2 rfl)

end Reporting

end PubSub
