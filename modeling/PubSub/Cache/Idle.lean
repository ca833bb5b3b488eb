import PubSub.Cache.Grace

/-!
# Idle runtimes are evicted

The time stamp of a runtime without a listener is not later than the moment its last listener left: a
pass stamps with a sample from the past, and only while there is a listener. So the first pass sampled
`evictAfterIdle` after that moment finds the entry old enough, whatever happened before.
-/

namespace PubSub.Cache
set_option autoImplicit false
open Base

/-- A time stamp that is not ahead of the clock, and not later than the moment since which the runtime has
had no listener, if it has none. -/
structure Runtime.Timely (clock : Nat) (rt : Runtime) : Prop where
  seen : rt.seenAt ≤ clock
  idle : rt.channel.receiverCount = 0 → rt.seenAt ≤ rt.idleSince

/-- A pass that waits for the lock has sampled the clock before, and every time stamp is in order. -/
structure Timely (s : State) : Prop where
  sample : ∀ now, s.reaper = .waiting now → now ≤ s.clock
  runtime : ∀ r rt, s.runtimes.lookup r = some rt → rt.Timely s.clock

/-- A pass evicts each live runtime that had been without a listener for `evictAfterIdle` when it sampled
the clock: it cancels the token, and no entry names the runtime any more. -/
def EvictsStale (ring : Ring) (s : State) : Action → Prop
  | .reap => ∀ s' now, step ring s .reap = some s' → s.reaper = .waiting now → ∀ r rt,
      s.runtimes.lookup r = some rt → rt.cancelled = false → rt.channel.receiverCount = 0 →
        rt.idleSince + evictAfterIdle ≤ now →
          (∃ rt', s'.runtimes.lookup r = some rt' ∧ rt'.cancelled = true) ∧
            ∀ key entry, s'.map.lookup key = some entry → entry.runtime ≠ r
  | _ => True

section Runtimes

variable {clock now n : Nat} {rt : Runtime} (timely : rt.Timely clock)
include timely

/-- As long as nothing but the channel changes, and it does not lose its last receiver. -/
theorem Runtime.Timely.channel {rt' : Runtime} (seen : rt'.seenAt = rt.seenAt)
    (since : rt'.idleSince = rt.idleSince)
    (alone : rt'.channel.receiverCount = 0 → rt.channel.receiverCount = 0) : rt'.Timely clock := by
  refine ⟨seen ▸ timely.seen, fun none => ?_⟩
  rw [seen, since]
  exact timely.idle (alone none)

theorem Runtime.Timely.subscribe : (rt.subscribe n).Timely clock := by
  refine ⟨timely.seen, fun none => ?_⟩
  have positive : 0 < (rt.subscribe n).channel.receiverCount :=
    Broadcast.receiverCount_pos_iff.2 ⟨n, rt.channel.log.length, by simp [Runtime.subscribe]⟩
  omega

/-- When the last receiver leaves, the clock is not behind the time stamp. -/
theorem Runtime.Timely.unsubscribe : (rt.unsubscribe clock n).Timely clock := by
  refine ⟨timely.seen, fun none => ?_⟩
  have gone : (rt.channel.unsubscribe n).receiverCount = 0 := none
  simp only [Runtime.unsubscribe, gone, if_true]
  exact timely.seen

theorem Runtime.Timely.send (m : ByteMessage) (early : Bool) : (rt.send m early).Timely clock := by
  refine timely.channel rfl rfl fun none => ?_
  rwa [Broadcast.receiverCount, Runtime.cursors_send] at none

theorem Runtime.Timely.poll {out : Broadcast.Recv ByteMessage} {channel : Broadcast ByteMessage}
    (read : rt.channel.recv n = some (out, channel)) : Runtime.Timely clock { rt with channel := channel } := by
  refine timely.channel rfl rfl fun none => ?_
  by_contra some
  obtain ⟨m, p, cursor⟩ := Broadcast.receiverCount_pos_iff.1 (Nat.pos_of_ne_zero some)
  have still := ((Broadcast.recv_frame read).2.2 m).1
  rw [cursor] at still
  obtain ⟨q, there⟩ := Option.isSome_iff_exists.1 still
  have positive := Broadcast.receiverCount_pos_iff.2 ⟨m, q, there⟩
  dsimp only at none
  omega

/-- A pass stamps with its sample what has a listener, and nothing else. -/
theorem Runtime.Timely.passed (past : now ≤ clock) (gone : Bool) :
    ((if gone then rt.dropEntry else rt).passed now).Timely clock := by
  have count : (if gone then rt.dropEntry else rt).channel.receiverCount = rt.channel.receiverCount := by
    cases gone <;> rfl
  have dropped : (if gone then rt.dropEntry else rt).Timely clock := by
    cases gone
    · exact timely
    · exact timely.channel rfl rfl id
  by_cases heard : rt.channel.receiverCount > 0
  · refine ⟨?_, fun none => ?_⟩
    · simp only [Runtime.passed, count, if_pos heard]
      exact past
    · simp only [Runtime.passed, count] at none
      omega
  · refine dropped.channel ?_ rfl id
    simp only [Runtime.passed, count, if_neg heard]

end Runtimes

variable {ring : Ring} {s s' : State} {a : Action}

theorem Timely.init : Timely init where
  sample := by simp [Cache.init]
  runtime := by simp [Cache.init]

theorem Runtime.Timely.moves {rt rt' : Runtime} (timely : rt.Timely s.clock)
    (sample : ∀ now, s.reaper = .waiting now → now ≤ s.clock) (moves : rt.Moves s a rt') : rt'.Timely s.clock := by
  cases moves with
  | same => exact timely
  | subscribe n => exact timely.subscribe
  | poll read => exact timely.poll read
  | unsubscribe n => exact timely.unsubscribe
  | send m early => exact timely.send m early
  | exit => exact timely.channel rfl rfl id
  | passed pass waiting gone => exact timely.passed (sample _ waiting) gone

theorem Step.clock_le (taken : Step ring s a s') : s.clock ≤ s'.clock := by
  cases taken with
  | tick d => exact Nat.le_add_right _ _
  | _ => exact Nat.le_refl _

/-- Every step keeps the time stamps in order. -/
theorem Timely.step (timely : Timely s) (taken : Step ring s a s') : Timely s' := by
  have later := taken.clock_le
  constructor
  · intro now waiting
    have past : s.reaper = .waiting now ∨ now = s.clock := by
      cases taken with
      | create free absent =>
        simp only [State.create] at waiting
        split at waiting
        · cases waiting
        · exact .inl waiting
      | wake asleep due =>
        cases waiting
        exact .inr rfl
      | reap free sampled => cases waiting
      | _ => exact .inl waiting
    rcases past with before | rfl
    · have := timely.sample now before
      omega
    · exact later
  · intro r rt' found
    obtain ⟨-, key, rfl⟩ | ⟨rt, before, moves⟩ := taken.runtime_cases found
    · exact ⟨later, fun _ => Nat.le_refl _⟩
    · have kept := (timely.runtime r rt before).moves timely.sample moves
      exact ⟨Nat.le_trans kept.seen later, kept.idle⟩

theorem timely_of_reachable : (system ring).Reachable s → Timely s :=
  Lts.Reachable.invariant .init (fun _ _ _ _ timely taken => timely.step (.of_step taken)) s

/-- One pass from a reachable state. -/
theorem evictsStale (reached : (system ring).Reachable s) (taken : step ring s a = some s') :
    EvictsStale ring s a := by
  have reg := (consistent_of_reachable reached).registry
  cases Step.of_step taken with
  | @reap now free waiting =>
    intro s' now' taken' waiting' r rt runtime alive unheard since
    cases taken.symm.trans taken'
    cases waiting.symm.trans waiting'
    have idle := (timely_of_reachable reached).runtime r rt runtime
    have late : rt.seenAt + evictAfterIdle ≤ now := by
      have := idle.idle unheard
      omega
    have dropped : ∀ key entry, s.map.lookup key = some entry → entry.runtime = r →
        (s.reap now).map.lookup key = none := by
      intro key entry stored same
      exact (reap_lookup_eq_none_iff (stamped_of_reachable reached) stored (same ▸ runtime) now).2 ⟨unheard, late⟩
    -- the entry that owns a live runtime is stored, and the pass does not retain it
    have evicts : s.evicts now r = true := by
      obtain ⟨entry, stored, owns⟩ | ⟨key, entry, built, -⟩ :=
        reg.live r rt.handle (by simp [State.handleOf, runtime]) alive
      · have gone := dropped _ entry stored owns
        simp only [State.reap, Table.lookup_retain, stored, Option.bind_some] at gone
        exact evicts_iff.2 ⟨_, entry, stored, owns, gone⟩
      · simp [State.building, free] at built
    refine ⟨⟨(rt.dropEntry).passed now, ?_, rfl⟩, fun key kept found same => ?_⟩
    · simp only [State.reap, Table.lookup_retain, runtime, Option.bind_some, evicts, if_true]
    · have retained := found
      simp only [State.reap, Table.lookup_retain] at retained
      obtain ⟨entry, stored, keep⟩ := Option.bind_eq_some_iff.1 retained
      have owns : entry.runtime = r := by rw [← CachedRuntime.retained_runtime keep, same]
      rw [dropped key entry stored owns] at found
      cases found
  | _ => trivial

end PubSub.Cache
