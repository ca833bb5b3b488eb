import Mathlib.Data.List.DropRight
import Mathlib.Data.List.Induction
import PubSub.Backoff

/-!
# Outages over whole traces

A loop calls `record_error`, `on_error` and `on_recovery` in any mixture. What each call does depends
on the errors since the last recovery only: how many of them were waited for, and of which kind the
last one was. `expected` says so as a function of the calls before, without any state, and
`outcomes_eq` shows that the state of `OutageState` is just a summary of it.
-/

namespace PubSub
set_option autoImplicit false

/-- A call on an `OutageState`. -/
inductive OutageCall (K E : Type) where
  | recordError (kind : K) (err : E) (context : String)
  | onError (kind : K) (err : E) (context : String)
  | onRecovery

/-- What a call returns, if it returns anything, and what it emits. -/
structure Outcome where
  returned : Option Bool
  events : List Event
  deriving DecidableEq

/-- A duration has a number of whole seconds of 64 bits. -/
def durationBound : Nat := fromSecs (2 ^ 64)

namespace OutageCall

variable {K E : Type}

/-- The kind of the error that is reported. -/
def kind : OutageCall K E → Option K
  | recordError kind _ _ => some kind
  | onError kind _ _ => some kind
  | onRecovery => none

def isError : OutageCall K E → Bool
  | recordError .. | onError .. => true
  | onRecovery => false

def isOnError : OutageCall K E → Bool
  | onError .. => true
  | recordError .. | onRecovery => false

/-- The calls since the last recovery. -/
def sinceRecovery (before : List (OutageCall K E)) : List (OutageCall K E) := before.rtakeWhile isError

/-- How many errors since the last recovery were waited for. -/
def waits (before : List (OutageCall K E)) : Nat := (sinceRecovery before).countP isOnError

/-- The kind of the last error, if there was one since the last recovery. -/
def lastKind (before : List (OutageCall K E)) : Option K := (sinceRecovery before).getLast?.bind kind

/-- An error of this kind is the first since the last recovery, or of another kind than the one before. -/
def isNews [BEq K] (before : List (OutageCall K E)) (kind : K) : Bool :=
  match lastKind before with
  | none => true
  | some last => kind != last

/-- How long the next `on_error` waits. -/
def wait (before : List (OutageCall K E)) : Nat := fromSecs (min (2 ^ waits before) 30)

variable [BEq K] [Debug E]

/-- The ERROR line of an error, if it is news. -/
def line (before : List (OutageCall K E)) (kind : K) (err : E) (context : String) : List Event :=
  if isNews before kind then [.error s!"{context}: {Debug.text err}"] else []

/-- What a call does after the calls `before`. -/
def expected (before : List (OutageCall K E)) : OutageCall K E → Outcome
  | recordError kind err context => ⟨some (isNews before kind), line before kind err context⟩
  | onError kind err context => ⟨none, line before kind err context ++ [.sleep (wait before)]⟩
  | onRecovery => ⟨some !(sinceRecovery before).isEmpty, []⟩

end OutageCall

namespace OutageState

variable {K E : Type} [BEq K] [Debug E]

def call (o : OutageState K) : OutageCall K E → Outcome × OutageState K
  | .recordError kind err context =>
    let (logged, events, o) := o.recordError kind err context
    (⟨some logged, events⟩, o)
  | .onError kind err context =>
    let (events, o) := o.onError kind err context
    (⟨none, events⟩, o)
  | .onRecovery =>
    let (recovered, o) := o.onRecovery
    (⟨some recovered, []⟩, o)

/-- What the calls of a trace do, one after the other. -/
def outcomes : OutageState K → List (OutageCall K E) → List Outcome
  | _, [] => []
  | o, c :: calls => (o.call c).1 :: outcomes (o.call c).2 calls

/-- The state after the calls of a trace. -/
def after (calls : List (OutageCall K E)) : OutageState K := calls.foldl (fun o c => (o.call c).2) default

/-- The state sums the calls `before` up. The kind it keeps is the one that was logged, which may be
another value than the last one, but compares like it. -/
structure Sums (before : List (OutageCall K E)) (o : OutageState K) : Prop where
  kind : Option.Rel (fun kept last => (kept == last) = true) o.lastErrorKind (OutageCall.lastKind before)
  inOutage : o.isInOutage = !(OutageCall.sinceRecovery before).isEmpty
  nextBackoff : o.nextBackoff = OutageCall.wait before

end OutageState

section Snoc

variable {K E : Type} {before : List (OutageCall K E)} {c : OutageCall K E}

theorem sinceRecovery_error (error : c.isError = true) :
    OutageCall.sinceRecovery (before ++ [c]) = OutageCall.sinceRecovery before ++ [c] :=
  List.rtakeWhile_concat_pos _ _ _ error

theorem sinceRecovery_onRecovery : OutageCall.sinceRecovery (before ++ [(.onRecovery : OutageCall K E)]) = [] :=
  List.rtakeWhile_concat_neg _ _ _ (by simp [OutageCall.isError])

theorem lastKind_error (error : c.isError = true) : OutageCall.lastKind (before ++ [c]) = c.kind := by
  rw [OutageCall.lastKind, sinceRecovery_error error, List.getLast?_concat]
  rfl

/-- The wait doubles up to the maximum. -/
theorem wait_onError (error : c.isOnError = true) :
    min (OutageCall.wait before * 2) maxBackoff = OutageCall.wait (before ++ [c]) := by
  have counted : OutageCall.waits (before ++ [c]) = OutageCall.waits before + 1 := by
    have isError : c.isError = true := by cases c <;> first | rfl | cases error
    rw [OutageCall.waits, sinceRecovery_error isError, List.countP_append, List.countP_singleton, if_pos error]
    rfl
  rw [OutageCall.wait, OutageCall.wait, counted, Nat.pow_succ]
  generalize 2 ^ OutageCall.waits before = n
  simp only [fromSecs, maxBackoff]
  omega

theorem wait_recordError (error : c.isError = true) (quiet : c.isOnError = false) :
    OutageCall.wait (before ++ [c]) = OutageCall.wait before := by
  rw [OutageCall.wait, OutageCall.waits, sinceRecovery_error error, List.countP_append, List.countP_singleton, quiet]
  rfl

end Snoc

namespace OutageState

section Kinds

variable {K E : Type} [BEq K] {before : List (OutageCall K E)} {o : OutageState K}

theorem Sums.init : Sums ([] : List (OutageCall K E)) default := ⟨.none, rfl, rfl⟩

/-- An error is logged exactly if it is news. -/
theorem Sums.isNews [EquivBEq K] (sums : Sums before o) (kind : K) :
    (some kind != o.lastErrorKind) = OutageCall.isNews before kind := by
  have same := sums.kind
  unfold OutageCall.isNews
  cases kept : o.lastErrorKind with
  | none =>
    rw [kept] at same
    cases last : OutageCall.lastKind before with
    | none => rfl
    | some k =>
      rw [last] at same
      cases same
  | some k =>
    rw [kept] at same
    cases last : OutageCall.lastKind before with
    | none =>
      rw [last] at same
      cases same
    | some k' =>
      rw [last] at same
      obtain ⟨alike⟩ := same
      show (!(kind == k)) = !(kind == k')
      rw [BEq.congr_right alike]

end Kinds

variable {K E : Type} [BEq K] [EquivBEq K] [Debug E] {before : List (OutageCall K E)} {o : OutageState K}

/-- Recording an error: whatever kind is kept compares like the error's. -/
theorem Sums.recordError (sums : Sums before o) (kind : K) (err : E) (context : String) :
    (o.recordError kind err context).1 = OutageCall.isNews before kind ∧
      (o.recordError kind err context).2.1 = OutageCall.line before kind err context ∧
      ∃ kept, (o.recordError kind err context).2.2.lastErrorKind = some kept ∧ (kept == kind) = true := by
  have news := sums.isNews kind
  rw [OutageCall.line, ← news]
  by_cases changed : some kind != o.lastErrorKind
  · rw [OutageState.recordError, if_pos changed, if_pos changed]
    exact ⟨changed.symm, rfl, kind, rfl, BEq.rfl⟩
  · rw [OutageState.recordError, if_neg changed, if_neg changed]
    refine ⟨(eq_false_of_ne_true changed).symm, rfl, ?_⟩
    have same : (some kind == o.lastErrorKind) = true := by
      simpa only [bne, Bool.not_eq_true', Bool.not_eq_false] using changed
    cases kept : o.lastErrorKind with
    | none =>
      rw [kept] at same
      cases same
    | some k =>
      rw [kept] at same
      exact ⟨k, rfl, BEq.symm same⟩

/-- One call does what is expected of it, and the state goes on summing up the trace. -/
theorem Sums.call (sums : Sums before o) (c : OutageCall K E) :
    (o.call c).1 = OutageCall.expected before c ∧ Sums (before ++ [c]) (o.call c).2 := by
  have reported : ∀ {o' : OutageState K} {kept kind : K}, c.isError = true → c.kind = some kind →
      o'.lastErrorKind = some kept → (kept == kind) = true → o'.nextBackoff = OutageCall.wait (before ++ [c]) →
      Sums (before ++ [c]) o' := by
    intro o' kept kind error named stored alike timer
    refine ⟨?_, ?_, timer⟩
    · rw [stored, lastKind_error error, named]
      exact .some alike
    · rw [isInOutage, stored, sinceRecovery_error error]
      simp
  cases c with
  | recordError kind err context =>
    obtain ⟨logged, line, kept, stored, alike⟩ := sums.recordError kind err context
    refine ⟨?_, reported rfl rfl stored alike ?_⟩
    · simp only [OutageState.call, OutageCall.expected, logged, line]
    · exact recordError_nextBackoff.trans (sums.nextBackoff.trans (wait_recordError rfl rfl).symm)
  | onError kind err context =>
    obtain ⟨-, line, kept, stored, alike⟩ := sums.recordError kind err context
    refine ⟨?_, reported rfl rfl stored alike ?_⟩
    · simp only [OutageState.call, OutageCall.expected, onError_events, line, recordError_nextBackoff,
        sums.nextBackoff]
    · rw [← wait_onError rfl, ← sums.nextBackoff]
      exact congrArg (fun timer => min (timer * 2) maxBackoff) recordError_nextBackoff
  | onRecovery =>
    refine ⟨?_, ?_, ?_, ?_⟩
    · simp only [OutageState.call, onRecovery, OutageCall.expected, sums.inOutage]
    · rw [OutageCall.lastKind, sinceRecovery_onRecovery]
      exact .none
    · rw [sinceRecovery_onRecovery]
      rfl
    · rw [OutageCall.wait, OutageCall.waits, sinceRecovery_onRecovery]
      rfl

omit [EquivBEq K] in
theorem after_snoc (before : List (OutageCall K E)) (c : OutageCall K E) :
    after (before ++ [c]) = ((after before).call c).2 := by
  rw [after, List.foldl_append]
  rfl

theorem sums_after (before : List (OutageCall K E)) : Sums before (after before) := by
  induction before using List.reverseRecOn with
  | nil => exact .init
  | append_singleton before c ih =>
    rw [after_snoc]
    exact (ih.call c).2

/-- From a state that sums the calls before up, a trace does what is expected of each of its calls. -/
theorem Sums.outcomes (sums : Sums before o) (calls : List (OutageCall K E)) :
    o.outcomes calls = calls.mapIdx fun i c => OutageCall.expected (before ++ calls.take i) c := by
  induction calls generalizing before o with
  | nil => rfl
  | cons c calls ih =>
    obtain ⟨first, next⟩ := sums.call c
    rw [OutageState.outcomes, first, ih next, List.mapIdx_cons]
    simp

/-- What a state between two calls of a trace is like. -/
structure Conforms (before : List (OutageCall K E)) (o : OutageState K) : Prop where
  nextBackoff : o.nextBackoff = OutageCall.wait before
  bounded : initialBackoff ≤ o.nextBackoff ∧ o.nextBackoff ≤ maxBackoff
  noOverflow : o.nextBackoff * 2 < durationBound
  isInOutage : o.isInOutage = !(OutageCall.sinceRecovery before).isEmpty
  recovered : ∀ earlier, before = earlier ++ [.onRecovery] → o = default

/-- **Whole traces.** Every call of a trace does what is expected after the calls before it, and every
state on the way is as it should be. -/
theorem over_traces (calls : List (OutageCall K E)) :
    (default : OutageState K).outcomes calls = calls.mapIdx (fun i c => OutageCall.expected (calls.take i) c) ∧
      ∀ before later, calls = before ++ later → Conforms before (after before) := by
  refine ⟨Sums.init.outcomes calls, fun before later _ => ?_⟩
  have sums := sums_after before
  refine ⟨sums.nextBackoff, ⟨(after before).least, (after before).most⟩, ?_, sums.inOutage, fun earlier last => ?_⟩
  · have most := (after before).most
    have room : maxBackoff * 2 < durationBound := by decide
    omega
  · rw [last, after_snoc]
    exact onRecovery_snd (after earlier)

end OutageState

/-- Errors of two kinds, reported in both ways, and a recovery between them. -/
def mixedTrace : List (OutageCall Nat String) :=
  [.onError 1 "a" "c", .recordError 1 "b" "c", .onError 1 "b" "c", .onError 2 "d" "c", .onRecovery, .recordError 2 "d" "c",
    .onError 2 "d" "c"]

theorem over_traces_mixedTrace :
    @OutageState.outcomes Nat String _ ⟨id⟩ default mixedTrace =
      [⟨none, [.error "c: a", .sleep (fromSecs 1)]⟩, ⟨some false, []⟩, ⟨none, [.sleep (fromSecs 2)]⟩,
        ⟨none, [.error "c: d", .sleep (fromSecs 4)]⟩, ⟨some true, []⟩, ⟨some true, [.error "c: d"]⟩,
        ⟨none, [.sleep (fromSecs 1)]⟩] := by
  let _ : Debug String := ⟨id⟩
  exact (OutageState.over_traces mixedTrace).1.trans (by decide)

end PubSub
