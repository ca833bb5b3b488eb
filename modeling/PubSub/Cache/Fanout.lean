import PubSub.Base.Listener
import PubSub.Cache.Invariants

/-!
# Fan-out

What each listener of a runtime is given. The cache changes a receiver's view of its channel
(`Ear`) in two ways only: the runtime's task sends, or the receiver reads itself. So from its
subscription on a receiver follows a `Listener` that is fed these two signals (`Follows`), whatever
the other listeners, calls and passes do in between.
-/

namespace PubSub.Cache
set_option autoImplicit false
open Base

/-- What a receiver sees of its channel. -/
structure Ear where
  retained : Nat
  log : List ByteMessage
  cursor : Nat

/-- The position of the oldest message in the ring. -/
def Ear.oldest (e : Ear) : Nat := e.log.length - e.retained

def Runtime.ear (n : Nat) (rt : Runtime) : Option Ear :=
  (rt.channel.cursors.lookup n).map fun p => ⟨rt.channel.retained, rt.channel.log, p⟩

/-- The view of receiver `n` on the channel of runtime `r`. -/
def State.ear (s : State) (r n : Nat) : Option Ear := (s.runtimes.lookup r).bind (Runtime.ear n)

/-- How many messages the receiver has not read, overwritten ones included. -/
def State.behind (s : State) (r n : Nat) : Nat :=
  match s.ear r n with
  | some e => e.log.length - e.cursor
  | none => 0

/-- The message at position `q` of the log has left the ring, and the receiver has not read it. -/
def State.overwritten (s : State) (r n q : Nat) : Prop :=
  ∃ e, s.ear r n = some e ∧ e.cursor ≤ q ∧ q < e.oldest

/-- The message at position `q` of the log is in the ring, and the receiver has not read it. -/
def State.waits (s : State) (r n q : Nat) : Prop :=
  ∃ e, s.ear r n = some e ∧ e.cursor ≤ q ∧ e.oldest ≤ q

/-- What the receiver has not read, overwritten messages included. -/
def State.unread (s : State) (r n : Nat) : List ByteMessage :=
  match s.ear r n with
  | some e => e.log.drop e.cursor
  | none => []

/-- What `get_stream` makes of an incoming item; a lag is warned about and filtered out. -/
def getStream (M : Type) [Message M] : Broadcast.Recv ByteMessage → Option M
  | .ok msg => some (Message.ofByteMessage msg)
  | .lagged _ => none
  | .empty | .closed => none

/-- What a step reads for stream `n`. -/
def State.readBy (n : Nat) (s : State) : Action → Option (Broadcast.Recv ByteMessage)
  | .poll m =>
    if m = n then
      (s.streams.lookup n).bind fun st =>
        (s.runtimes.lookup st.runtime).bind fun rt => (rt.channel.recv n).map Prod.fst
    else none
  | _ => none

/-- What stream `n` reads in a run. -/
def reads (ring : Ring) (n : Nat) (s : State) (as : List Action) : List (Broadcast.Recv ByteMessage) :=
  (system ring).outputs (State.readBy n) s as

/-- The items that stream `n` yields in a run. -/
def yielded (ring : Ring) (M : Type) [Message M] (n : Nat) (s : State) (as : List Action) : List M :=
  (reads ring n s as).filterMap (getStream M)

/-- What a step means to receiver `n` of runtime `r`. -/
def signal (r n : Nat) : Action → Option (Signal ByteMessage)
  | .send r' m => if r' = r then some (.sent m) else none
  | .poll m => if m = n then some .read else none
  | _ => none

def signals (r n : Nat) (as : List Action) : List (Signal ByteMessage) := as.filterMap (signal r n)

/-- The messages that the task of `r` sends in a run. -/
def sentBy (r : Nat) (as : List Action) : List ByteMessage :=
  as.filterMap fun | .send r' m => if r' = r then some m else none | _ => none

/-- What stream `n` of runtime `r` yields in the run of `as` from `s`, where it subscribed at
position `base` of the log, to `s'`. -/
structure FanOut (ring : Ring) (M : Type) [Message M] (r n base : Nat) (s : State) (as : List Action)
    (s' : State) : Prop where
  /-- The items are messages sent since the subscription, in order; of the others, those that are not
  waiting to be read were overwritten unread. -/
  inOrder : ∃ got : List Nat, got.Pairwise (· < ·) ∧ (∀ p ∈ got, p < (sentBy r as).length) ∧
    yielded ring M n s as = got.filterMap (fun p => ((sentBy r as)[p]?).map Message.ofByteMessage) ∧
    ∀ p < (sentBy r as).length, p ∉ got ∧ ¬ s'.waits r n (base + p) ↔
      ∃ mid rest t, as = mid ++ rest ∧ (system ring).exec s mid = some t ∧ t.overwritten r n (base + p)
  /-- A stream that is never far behind misses nothing. -/
  close : (∀ mid rest t, as = mid ++ rest → (system ring).exec s mid = some t →
      t.behind r n ≤ defaultChannelCapacity) →
    yielded ring M n s as ++ (s'.unread r n).map Message.ofByteMessage = (sentBy r as).map Message.ofByteMessage
  /-- The items are a function of the runtime's sends and the stream's own reads. -/
  own : yielded ring M n s as =
    (Listener.listen (ring.size defaultChannelCapacity) (signals r n as)).received.map Message.ofByteMessage
  /-- The stream does not end. -/
  lasts : ∀ out ∈ reads ring n s as, out ≠ .closed

/-- Receiver `n` of runtime `r`, which subscribed when the log was `base`, is at the point of `l`. -/
structure Follows (ring : Ring) (base : List ByteMessage) (r n : Nat) (s : State)
    (l : Listener ByteMessage) : Prop where
  ear : s.ear r n = some ⟨ring.size defaultChannelCapacity, base ++ l.sent, base.length + l.cursor⟩
  old : n < s.nextStream
  stream : ∀ st, s.streams.lookup n = some st → st.runtime = r
  pending : ∀ c, s.creating = some c → c.stream = some n → c.entry.runtime = r

/-- Stream `n` was dropped. -/
structure Gone (n : Nat) (s : State) : Prop where
  old : n < s.nextStream
  stream : s.streams.lookup n = none
  pending : ∀ c, s.creating = some c → c.stream ≠ some n

section Ears

variable {s : State} {r r' n : Nat} {rt : Runtime}

theorem ear_modify (f : Runtime → Runtime) :
    ((s.runtimes.modify r' f).lookup r).bind (Runtime.ear n) =
      if r = r' then (s.runtimes.lookup r).bind fun rt => (f rt).ear n else s.ear r n := by
  rw [Table.lookup_modify, State.ear]
  cases s.runtimes.lookup r with
  | none => simp
  | some rt => by_cases same : r = r' <;> simp [same]

theorem ear_modify_same (f : Runtime → Runtime) (same : ∀ rt, (f rt).ear n = rt.ear n) :
    ((s.runtimes.modify r' f).lookup r).bind (Runtime.ear n) = s.ear r n := by
  rw [ear_modify]
  split
  · exact congrArg _ (funext same)
  · rfl

theorem ear_subscribe {m : Nat} (other : n ≠ m) (rt : Runtime) : (rt.subscribe m).ear n = rt.ear n := by
  simp [Runtime.ear, Runtime.subscribe, Broadcast.subscribe, other]

theorem ear_unsubscribe {m : Nat} (other : n ≠ m) (now : Nat) (rt : Runtime) :
    (rt.unsubscribe now m).ear n = rt.ear n := by
  simp [Runtime.ear, Runtime.unsubscribe, Broadcast.unsubscribe, other]

/-- A receiver hears what its runtime sends. -/
theorem ear_send {e : Ear} (hears : rt.ear n = some e) (m : ByteMessage) (early : Bool) :
    (rt.send m early).ear n = some { e with log := e.log ++ [m] } := by
  obtain ⟨p, cursor, rfl⟩ := Option.map_eq_some_iff.1 hears
  cases sent : rt.channel.send m with
  | none =>
    have positive : 0 < rt.channel.receiverCount := Broadcast.receiverCount_pos_iff.2 ⟨n, p, cursor⟩
    have := Broadcast.send_eq_none_iff.1 sent
    omega
  | some c =>
    obtain ⟨-, log, cursors, -, retained⟩ := Broadcast.send_eq_some sent
    simp [Runtime.ear, Runtime.send, sent, log, cursors, cursor, retained]

/-- A receiver does not notice the reads of the others. -/
theorem ear_recv {m : Nat} {out : Broadcast.Recv ByteMessage} {channel : Broadcast ByteMessage}
    (read : rt.channel.recv m = some (out, channel)) (other : n ≠ m) :
    Runtime.ear n { rt with channel := channel } = rt.ear n := by
  obtain ⟨log, -, cursors⟩ := Broadcast.recv_frame read
  simp [Runtime.ear, log, (cursors n).2 other, Broadcast.recv_retained read]

end Ears

variable {ring : Ring} {s s' : State} {a : Action} {as : List Action} {r n : Nat} {base : List ByteMessage}
  {l : Listener ByteMessage}

theorem Follows.frame (follows : Follows ring base r n s l) {t : State} (ear : t.ear r n = s.ear r n)
    (next : s.nextStream ≤ t.nextStream)
    (streams : ∀ st, t.streams.lookup n = some st → s.streams.lookup n = some st ∨ st.runtime = r)
    (pending : ∀ c, t.creating = some c → c.stream = some n → c.entry.runtime = r) :
    Follows ring base r n t l where
  ear := ear.trans follows.ear
  old := Nat.lt_of_lt_of_le follows.old next
  stream st found := (streams st found).elim (follows.stream st) id
  pending := pending

/-- Somebody else subscribes. -/
theorem Follows.share (follows : Follows ring base r n s l) (key : CacheKey) (entry : CachedRuntime) :
    Follows ring base r n (s.share key entry) l := by
  have other : n ≠ s.nextStream := Nat.ne_of_lt follows.old
  refine follows.frame ?_ (Nat.le_succ _) (fun st found => .inl ?_) follows.pending
  · exact ear_modify_same _ (ear_subscribe other)
  · simpa [State.share, State.hand, State.getStream, Table.lookup_insert_eq_ite, other] using found

/-- The receiver reads: the channel returns what the listener hears. -/
theorem Follows.poll (follows : Follows ring base r n s l) {st : Stream} {rt : Runtime}
    {out : Broadcast.Recv ByteMessage} {channel : Broadcast ByteMessage}
    (held : s.streams.lookup n = some st) (runtime : s.runtimes.lookup st.runtime = some rt)
    (read : rt.channel.recv n = some (out, channel)) :
    Follows ring base r n (s.poll n st rt (out, channel)) (l.observe (ring.size defaultChannelCapacity) .read) ∧
      out.message = l.heard (ring.size defaultChannelCapacity) := by
  obtain rfl := follows.stream st held
  have ear := follows.ear
  simp only [State.ear, runtime, Option.bind_some] at ear
  obtain ⟨p, cursor, seen⟩ := Option.map_eq_some_iff.1 ear
  obtain ⟨retained, log, rfl⟩ := Ear.mk.inj seen
  obtain ⟨heard, moved⟩ := Broadcast.recv_listener log cursor read
  rw [retained] at heard moved
  refine ⟨⟨?_, follows.old, fun st' found => ?_, follows.pending⟩, heard⟩
  · simp only [State.ear, State.poll, Table.lookup_insert_eq_ite, if_true, Option.bind_some, Runtime.ear, moved,
      Option.map_some, Broadcast.recv_retained read, retained, (Broadcast.recv_frame read).1, log,
      (l.observe_read _).1]
  · simp only [State.poll, Table.lookup_insert_eq_ite, if_true, Option.some.injEq] at found
    rw [← found]
    exact (st.next_frame out).2.1

/-- Somebody else reads. -/
theorem Follows.other (follows : Follows ring base r n s l) {m : Nat} {st : Stream} {rt : Runtime}
    {out : Broadcast.Recv ByteMessage} {channel : Broadcast ByteMessage} (other : n ≠ m)
    (runtime : s.runtimes.lookup st.runtime = some rt) (read : rt.channel.recv m = some (out, channel)) :
    Follows ring base r n (s.poll m st rt (out, channel)) l := by
  refine follows.frame ?_ (Nat.le_refl _) (fun st' found => .inl ?_) follows.pending
  · simp only [State.ear, State.poll, Table.lookup_insert_eq_ite]
    split
    · subst_vars
      rw [Option.bind_some, runtime, Option.bind_some, ear_recv read other]
    · rfl
  · simpa [State.poll, Table.lookup_insert_eq_ite, other] using found

/-- One step: the receiver goes on following, unless its stream is dropped. -/
theorem Follows.step (follows : Follows ring base r n s l) (reg : Registry s) (lis : Listening s)
    (taken : Step ring s a s') :
    Follows ring base r n s' ((signal r n a).elim l (l.observe (ring.size defaultChannelCapacity))) ∨ Gone n s' := by
  have same : ∀ st, s.streams.lookup n = some st → s.streams.lookup n = some st ∨ st.runtime = r := fun _ => .inl
  have le : s.nextStream ≤ s.nextStream := Nat.le_refl _
  cases taken with
  | tick d => exact .inl (follows.frame rfl le same follows.pending)
  | readHit free found => exact .inl (follows.share _ _)
  | readMiss free absent => exact .inl (follows.frame rfl le same follows.pending)
  | @writeHit key entry free found =>
    have missed : Follows ring base r n { s with missed := s.missed.erase key } l :=
      follows.frame rfl le same follows.pending
    exact .inl (missed.share _ _)
  | create free absent =>
    refine .inl (follows.frame ?_ le same fun c opened after => ?_)
    · obtain ⟨rt, runtime, -⟩ := Option.bind_eq_some_iff.1 follows.ear
      have old := reg.fresh r rt.handle (by simp [State.handleOf, runtime])
      simp only [State.ear, State.create, Table.lookup_insert_eq_ite, Nat.ne_of_lt old, if_false]
    · cases opened
      cases after
  | subscribe open' =>
    have other : n ≠ s.nextStream := Nat.ne_of_lt follows.old
    refine .inl (follows.frame ?_ (Nat.le_succ _) same fun c opened after => ?_)
    · exact ear_modify_same _ (ear_subscribe other)
    · cases opened
      exact absurd (Option.some.inj after).symm other
  | @insert key entry m open' =>
    refine .inl (follows.frame rfl le (fun st found => ?_) fun c opened => ?_)
    · simp only [State.hand, Table.lookup_insert_eq_ite] at found
      split at found
      · cases found
        subst_vars
        exact .inr (follows.pending _ open' rfl)
      · exact .inl found
    · cases opened
  | abandon key => exact .inl (follows.frame rfl le same follows.pending)
  | @poll m st rt out channel held runtime read =>
    by_cases mine : m = n
    · subst mine
      simp only [signal, if_true, Option.elim_some]
      exact .inl (follows.poll held runtime read).1
    · simp only [signal, mine, if_false, Option.elim_none]
      exact .inl (follows.other (Ne.symm mine) runtime read)
  | @drop m st held =>
    by_cases mine : m = n
    · subst mine
      refine .inr ⟨follows.old, ?_, fun c opened after => ?_⟩
      · simp
      · rw [(lis.creator c _ opened after).1] at held
        cases held
    · refine .inl (follows.frame ?_ le (fun st' found => .inl ?_) follows.pending)
      · exact ear_modify_same _ (ear_unsubscribe (Ne.symm mine) _)
      · simp only [Table.lookup_erase_eq_ite] at found
        split at found
        · cases found
        · exact found
  | @send r' rt m runtime running =>
    by_cases mine : r' = r
    · subst mine
      simp only [signal, if_true, Option.elim_some]
      refine .inl ⟨?_, follows.old, follows.stream, follows.pending⟩
      have ear := follows.ear
      simp only [State.ear, runtime, Option.bind_some] at ear
      simp only [State.ear, Table.lookup_modify, if_true, runtime, Option.map_some, Option.bind_some]
      rw [ear_send ear, List.append_assoc]
      rfl
    · simp only [signal, mine, if_false, Option.elim_none]
      refine .inl (follows.frame ?_ le same follows.pending)
      rw [State.ear, ear_modify, if_neg (Ne.symm mine)]
  | exit runtime running cancelled =>
    exact .inl (follows.frame (ear_modify_same _ fun _ => rfl) le same follows.pending)
  | wake asleep due => exact .inl (follows.frame rfl le same follows.pending)
  | @reap now free waiting =>
    refine .inl (follows.frame ?_ le same follows.pending)
    simp only [State.ear, State.reap, Table.lookup_retain]
    cases s.runtimes.lookup r with
    | none => rfl
    | some rt =>
      simp only [Option.bind_some]
      split <;> rfl

/-- A step hands out one receiver at most. -/
theorem Step.nextStream_le (taken : Step ring s a s') :
    s.nextStream ≤ s'.nextStream ∧ s'.nextStream ≤ s.nextStream + 1 := by
  cases taken <;> first | exact ⟨Nat.le_refl _, Nat.le_succ _⟩ | exact ⟨Nat.le_succ _, Nat.le_refl _⟩

/-- A stream that was dropped does not come back. -/
theorem Gone.step (gone : Gone n s) (taken : Step ring s a s') : Gone n s' := by
  refine ⟨Nat.lt_of_lt_of_le gone.old taken.nextStream_le.1, ?_, fun c opened => ?_⟩
  · rw [Option.eq_none_iff_forall_ne_some]
    intro st held
    obtain ⟨-, fresh | ⟨c, opened, same⟩⟩ | there | ⟨st₀, rt, out, channel, there, -⟩ := taken.stream_cases held
    · exact absurd fresh (Nat.ne_of_lt gone.old)
    · exact gone.pending c opened same
    · rw [gone.stream] at there
      cases there
    · rw [gone.stream] at there
      cases there
  · cases taken with
    | create free absent =>
      cases opened
      simp
    | subscribe open' =>
      cases opened
      simpa using Nat.ne_of_gt gone.old
    | insert open' => cases opened
    | _ => exact gone.pending c opened

theorem Gone.exec (gone : Gone n s) (run : (system ring).exec s as = some s') : Gone n s' :=
  Lts.exec_invariant (M := system ring) (fun _ _ _ before taken => before.step (.of_step taken)) gone run

/-- What the listener is given by one step is what the stream reads in it. -/
theorem Follows.received_step (follows : Follows ring base r n s l) (taken : Step ring s a s') :
    ((signal r n a).elim l (l.observe (ring.size defaultChannelCapacity))).received =
      l.received ++ (s.readBy n a).toList.filterMap Broadcast.Recv.message := by
  cases taken with
  | @poll m st rt out channel held runtime read =>
    by_cases mine : m = n
    · subst mine
      have heard := (follows.poll held runtime read).2
      have seen : s.readBy m (.poll m) = some out := by simp [State.readBy, held, runtime, read]
      simp only [signal, if_true, Option.elim_some, seen]
      rw [Listener.received_observe_read, ← heard]
      cases out <;> rfl
    · simp [signal, State.readBy, mine]
  | @send r' rt m runtime running =>
    by_cases mine : r' = r
    · simp only [signal, mine, if_true, Option.elim_some, Listener.received_observe_sent]
      exact (List.append_nil _).symm
    · simp [signal, State.readBy, mine]
  | _ => simp [signal, State.readBy]

/-- A run: the receiver follows the listener to its end, if its stream is not dropped. -/
theorem Follows.exec (follows : Follows ring base r n s l) (reached : (system ring).Reachable s)
    (run : (system ring).exec s as = some s') (held : ¬ Gone n s') :
    Follows ring base r n s' ((signals r n as).foldl (Listener.observe (ring.size defaultChannelCapacity)) l) ∧
      ((signals r n as).foldl (Listener.observe (ring.size defaultChannelCapacity)) l).received =
        l.received ++ (reads ring n s as).filterMap Broadcast.Recv.message := by
  induction as generalizing s l with
  | nil =>
    cases run
    exact ⟨follows, (List.append_nil _).symm⟩
  | cons a as ih =>
    obtain ⟨t, taken, rest⟩ := Option.bind_eq_some_iff.1 run
    have con := consistent_of_reachable reached
    rcases follows.step con.registry con.listening (.of_step taken) with next | gone
    · obtain ⟨last, received⟩ := ih next (reached.step taken) rest
      have split : signals r n (a :: as) = (signal r n a).toList ++ signals r n as := by
        simp only [signals, List.filterMap_cons]
        cases signal r n a <;> rfl
      have fed : (signals r n (a :: as)).foldl (Listener.observe (ring.size defaultChannelCapacity)) l =
          (signals r n as).foldl (Listener.observe (ring.size defaultChannelCapacity))
            ((signal r n a).elim l (l.observe (ring.size defaultChannelCapacity))) := by
        rw [split, List.foldl_append]
        cases signal r n a <;> rfl
      rw [fed]
      refine ⟨last, ?_⟩
      rw [received, follows.received_step (.of_step taken), reads, reads, Lts.outputs_cons _ taken,
        List.filterMap_append, List.append_assoc]
    · exact absurd (gone.exec rest) held

/-- Every channel has the ring it was created with. -/
def Ringed (ring : Ring) (s : State) : Prop :=
  ∀ r rt, s.runtimes.lookup r = some rt → rt.channel.retained = ring.size defaultChannelCapacity

theorem Ringed.step (ringed : Ringed ring s) (taken : Step ring s a s') : Ringed ring s' := by
  intro r rt' found
  obtain ⟨-, key, rfl⟩ | ⟨rt, before, moves⟩ := taken.runtime_cases found
  · rfl
  · have kept : rt'.channel.retained = rt.channel.retained := by
      cases moves with
      | poll read => exact Broadcast.recv_retained read
      | send m early =>
        cases sent : rt.channel.send m with
        | none => simp [Runtime.send, sent]
        | some c => simp [Runtime.send, sent, (Broadcast.send_eq_some sent).2.2.2.2]
      | passed pass waiting gone => cases gone <;> rfl
      | _ => rfl
    exact kept.trans (ringed r rt before)

theorem ringed_of_reachable : (system ring).Reachable s → Ringed ring s :=
  Lts.Reachable.invariant (by simp [Ringed, system, Cache.init])
    (fun _ _ _ _ ringed taken => ringed.step (.of_step taken)) s

/-- A subscription to a stored entry, or to the one under construction. -/
theorem ear_getStream (ringed : Ringed ring s) {entry : CachedRuntime} {h : Handle}
    (handle : s.handleOf entry.runtime = some h) :
    ∃ log, (s.getStream entry).ear entry.runtime s.nextStream =
      some ⟨ring.size defaultChannelCapacity, log, log.length⟩ := by
  obtain ⟨rt, runtime, -⟩ := Option.map_eq_some_iff.1 handle
  refine ⟨rt.channel.log, ?_⟩
  rw [State.ear, State.getStream, ear_modify, if_pos rfl, runtime, Option.bind_some, ← ringed _ _ runtime]
  simp [Runtime.ear, Runtime.subscribe, Broadcast.subscribe]

/-- The step that hands out receiver `n` subscribes it at the end of some runtime's log. -/
theorem follows_of_subscribed (reached : (system ring).Reachable s) (taken : Step ring s a s')
    (before : ¬ n < s.nextStream) (after : n < s'.nextStream) :
    ∃ r log, Follows ring log r n s' .start := by
  have con := consistent_of_reachable reached
  have ringed := ringed_of_reachable reached
  have shared : ∀ {t : State} {key : CacheKey} {entry : CachedRuntime}, Ringed ring t → t.creating = none →
      (∃ h, t.handleOf entry.runtime = some h) → ¬ n < t.nextStream → n < (t.share key entry).nextStream →
      ∃ r log, Follows ring log r n (t.share key entry) .start := by
    intro t key entry ringed free ⟨h, handle⟩ before after
    obtain rfl : n = t.nextStream := Nat.le_antisymm (Nat.le_of_lt_succ after) (Nat.le_of_not_lt before)
    obtain ⟨log, ear⟩ := ear_getStream ringed handle
    refine ⟨entry.runtime, log, ?_, after, fun st found => ?_, fun c opened => ?_⟩
    · rw [Listener.start, List.append_nil]
      exact ear
    · simp only [State.share, State.hand, Table.lookup_insert_eq_ite, if_true, Option.some.injEq] at found
      rw [← found]
    · rw [show (t.share key entry).creating = t.creating from rfl, free] at opened
      cases opened
  cases taken with
  | @readHit key entry free found =>
    obtain ⟨h, handle, -⟩ := con.registry.entry key entry found
    exact shared ringed free ⟨h, handle⟩ before after
  | @writeHit key entry free found =>
    obtain ⟨h, handle, -⟩ := con.registry.entry key entry found
    exact shared (t := { s with missed := s.missed.erase key }) ringed free ⟨h, handle⟩ before after
  | @subscribe key entry open' =>
    obtain rfl : n = s.nextStream := Nat.le_antisymm (Nat.le_of_lt_succ after) (Nat.le_of_not_lt before)
    obtain ⟨-, h, handle, -⟩ := con.registry.building key entry (by simp [State.building, open'])
    obtain ⟨log, ear⟩ := ear_getStream ringed handle
    refine ⟨entry.runtime, log, ?_, after, fun st found => ?_, fun c opened _ => ?_⟩
    · rw [Listener.start, List.append_nil]
      exact ear
    · exact absurd (con.listening.next.symm.trans found) (by simp)
    · cases opened
      rfl
  | _ => exact absurd after before

section Moments

variable (follows : Follows ring base r n s l) {p : Nat}
include follows

theorem Follows.overwritten_iff : s.overwritten r n (base.length + p) ↔
    l.Overwritten (ring.size defaultChannelCapacity) p := by
  unfold State.overwritten Listener.Overwritten
  rw [follows.ear]
  constructor
  · rintro ⟨e, ⟨⟩, unread, gone⟩
    simp only [Ear.oldest, List.length_append, Listener.oldest] at unread gone ⊢
    omega
  · rintro ⟨unread, gone⟩
    refine ⟨_, rfl, ?_⟩
    simp only [Ear.oldest, List.length_append, Listener.oldest] at unread gone ⊢
    omega

theorem Follows.missed_iff : p ∉ l.got ∧ ¬ s.waits r n (base.length + p) ↔
    l.Missed (ring.size defaultChannelCapacity) p := by
  refine and_congr_right fun _ => ?_
  unfold State.waits
  rw [follows.ear]
  constructor
  · intro past
    by_contra ahead
    refine past ⟨_, rfl, ?_⟩
    simp only [Ear.oldest, List.length_append, Listener.oldest] at ahead ⊢
    omega
  · rintro past ⟨e, ⟨⟩, unread, there⟩
    simp only [Ear.oldest, List.length_append, Listener.oldest] at past unread there
    omega

theorem Follows.behind_eq : s.behind r n = l.behind := by
  simp only [State.behind, follows.ear, Listener.behind, List.length_append]
  omega

theorem Follows.unread_eq : s.unread r n = l.sent.drop l.cursor := by
  simp only [State.unread, follows.ear]
  rw [List.drop_append, List.drop_eq_nil_of_le (by omega), List.nil_append, Nat.add_sub_cancel_left]

end Moments

theorem getStream_eq (M : Type) [Message M] (out : Broadcast.Recv ByteMessage) :
    getStream M out = out.message.map Message.ofByteMessage := by
  cases out <;> rfl

theorem sentBy_eq (ring : Ring) (r n : Nat) (as : List Action) :
    sentBy r as = (Listener.listen (ring.size defaultChannelCapacity) (signals r n as)).sent := by
  rw [Listener.sent_listen, messages, signals, List.filterMap_filterMap]
  apply List.filterMap_congr
  intro a _
  cases a with
  | send r' m => by_cases mine : r' = r <;> simp [signal, mine]
  | poll m => by_cases mine : m = n <;> simp [signal, mine]
  | _ => rfl

/-- A stream that is held reads of a channel that has a sender. -/
theorem readBy_ne_closed (con : Consistent s) {out : Broadcast.Recv ByteMessage} (read : s.readBy n a = some out) :
    out ≠ .closed := by
  rintro rfl
  cases a with
  | poll m =>
    simp only [State.readBy] at read
    split at read
    · obtain ⟨st, held, read⟩ := Option.bind_eq_some_iff.1 read
      obtain ⟨rt, runtime, read⟩ := Option.bind_eq_some_iff.1 read
      obtain ⟨⟨_, channel⟩, read, rfl⟩ := Option.map_eq_some_iff.1 read
      have none := Broadcast.senders_of_recv_closed read
      obtain ⟨⟨entry, stored, same⟩, -⟩ := con.listening.attached n st held
      obtain ⟨h, handle, -, alive⟩ := con.registry.entry _ entry stored
      have senders := con.registry.senders _ h handle
      rw [same, State.handleOf, runtime] at handle
      cases handle
      simp only [Runtime.handle, none] at senders alive
      rw [alive] at senders
      simp only [Bool.false_eq_true, if_false] at senders
      omega
    · cases read
  | _ => cases read

theorem reads_ne_closed (reached : (system ring).Reachable s) : ∀ out ∈ reads ring n s as, out ≠ .closed := by
  induction as generalizing s with
  | nil => simp [reads, Lts.outputs]
  | cons a as ih =>
    intro out here
    rw [reads, Lts.outputs] at here
    rcases List.mem_append.1 here with first | later
    · exact readBy_ne_closed (consistent_of_reachable reached) (Option.mem_toList.1 first)
    · cases taken : step ring s a with
      | none => simp [system, taken] at later
      | some t =>
        simp only [system, taken, Option.elim_some] at later
        exact ih (reached.step taken) out later

/-- A receiver that follows the listener from the start is fanned out to. -/
theorem Follows.fanOut (follows : Follows ring base r n s .start) (reached : (system ring).Reachable s)
    (run : (system ring).exec s as = some s') (held : ¬ Gone n s') (M : Type) [Message M] :
    FanOut ring M r n base.length s as s' := by
  have moment : ∀ {mid rest t}, as = mid ++ rest → (system ring).exec s mid = some t →
      Follows ring base r n t (Listener.listen (ring.size defaultChannelCapacity) (signals r n mid)) := by
    intro mid rest t split part
    rw [split, Lts.exec_append, part] at run
    exact (follows.exec reached part fun gone => held (gone.exec run)).1
  have split_of : ∀ {early late}, signals r n as = early ++ late → ∃ mid rest t, as = mid ++ rest ∧
      (system ring).exec s mid = some t ∧ signals r n mid = early := by
    intro early late split
    obtain ⟨mid, rest, rfl, first, -⟩ := List.filterMap_eq_append_iff.1 split
    rw [Lts.exec_append] at run
    obtain ⟨t, part, -⟩ := Option.bind_eq_some_iff.1 run
    exact ⟨mid, rest, t, rfl, part, first⟩
  obtain ⟨last, received⟩ :
      Follows ring base r n s' (Listener.listen (ring.size defaultChannelCapacity) (signals r n as)) ∧
      (Listener.listen (ring.size defaultChannelCapacity) (signals r n as)).received =
        Listener.start.received ++ (reads ring n s as).filterMap Broadcast.Recv.message := follows.exec reached run held
  have own : yielded ring M n s as =
      (Listener.listen (ring.size defaultChannelCapacity) (signals r n as)).received.map Message.ofByteMessage := by
    rw [received, yielded, funext (getStream_eq M), List.map_append, List.map_filterMap]
    rfl
  constructor
  · refine ⟨_, (Listener.listen (ring.size defaultChannelCapacity) (signals r n as)).sorted, fun p here => ?_, ?_,
      fun p _ => ?_⟩
    · rw [sentBy_eq ring r n]
      exact Nat.lt_of_lt_of_le (Listener.below _ p here) (Listener.within _)
    · rw [own, Listener.received, List.map_filterMap, ← sentBy_eq]
    · rw [last.missed_iff, Listener.missed_iff]
      constructor
      · rintro ⟨early, late, split, overwritten⟩
        obtain ⟨mid, rest, t, run', part, rfl⟩ := split_of split
        exact ⟨mid, rest, t, run', part, (moment run' part).overwritten_iff.2 overwritten⟩
      · rintro ⟨mid, rest, t, split, part, overwritten⟩
        refine ⟨signals r n mid, signals r n rest, ?_, (moment split part).overwritten_iff.1 overwritten⟩
        rw [split, signals, List.filterMap_append]
        rfl
  · intro close
    rw [own, Listener.received_of_behind_le, last.unread_eq, ← List.map_append]
    · rw [sentBy_eq ring r n]
      exact congrArg _ (List.take_append_drop _ _)
    · intro early late split
      obtain ⟨mid, rest, t, run', part, rfl⟩ := split_of split
      have near := close mid rest t run' part
      rw [(moment run' part).behind_eq] at near
      exact Nat.le_trans near (ring.le _)
  · exact own
  · exact reads_ne_closed reached

/-- **Fan-out.** Every held stream of a run was subscribed by one of its steps, and has been fanned
out to since then. -/
theorem fan_out {st : Stream} (ran : (system ring).exec init as = some s) (held : s.streams.lookup n = some st)
    (M : Type) [Message M] :
    ∃ before a after s₀ s₁ log, as = before ++ a :: after ∧ (system ring).exec init before = some s₀ ∧
      step ring s₀ a = some s₁ ∧ s₀.nextStream = n ∧
      s₁.ear st.runtime n = some ⟨ring.size defaultChannelCapacity, log, log.length⟩ ∧
      FanOut ring M st.runtime n log.length s₁ after s := by
  have reached : (system ring).Reachable s := ⟨as, ran⟩
  have listening := (consistent_of_reachable reached).listening
  have old : n < s.nextStream := listening.fresh _ n (listening.attached n st held).2
  obtain ⟨before, a, after, s₀, s₁, rfl, first, unborn, taken, born, rest⟩ :=
    Lts.exists_crossing (P := fun s => n < s.nextStream) ran (Nat.not_lt_zero n) old
  have reached₀ : (system ring).Reachable s₀ := ⟨before, first⟩
  have reached₁ := reached₀.step taken
  obtain ⟨r, log, follows⟩ := follows_of_subscribed reached₀ (.of_step taken) unborn born
  have here : ¬ Gone n s := fun gone => by
    rw [gone.stream] at held
    cases held
  obtain rfl := (follows.exec reached₁ rest here).1.stream st held
  have ear := follows.ear
  rw [Listener.start, List.append_nil] at ear
  have number : s₀.nextStream = n := by
    have := (Step.of_step taken).nextStream_le.2
    omega
  exact ⟨before, a, after, s₀, s₁, log, rfl, first, taken, number, ear, follows.fanOut reached₁ rest here M⟩

/-- Two streams of one runtime: the first reads once while the second waits and leaves. -/
def twoListeners : List Action :=
  let key : CacheKey := ⟨"localhost", "topic", .Kafka⟩
  [.read key, .write key, .subscribe, .insert, .read key, .send 0 ⟨none, ⟨#[97]⟩⟩, .poll 0, .send 0 ⟨none, ⟨#[98]⟩⟩, .drop 1]

theorem fan_out_twoListeners : ∃ s st, (system powerOfTwo).exec init twoListeners = some s ∧
    s.streams.lookup 0 = some st ∧ ∃ before a after s₀ s₁ log, twoListeners = before ++ a :: after ∧
      (system powerOfTwo).exec init before = some s₀ ∧ step powerOfTwo s₀ a = some s₁ ∧ s₀.nextStream = 0 ∧
      s₁.ear st.runtime 0 = some ⟨powerOfTwo.size defaultChannelCapacity, log, log.length⟩ ∧
      FanOut powerOfTwo StringMessage st.runtime 0 log.length s₁ after s := by
  have ran : ((system powerOfTwo).exec init twoListeners).isSome = true := by decide
  obtain ⟨s, ran⟩ := Option.isSome_iff_exists.1 ran
  have held : (((system powerOfTwo).exec init twoListeners).bind fun s => s.streams.lookup 0).isSome = true := by decide
  rw [ran, Option.bind_some] at held
  obtain ⟨st, held⟩ := Option.isSome_iff_exists.1 held
  exact ⟨s, st, ran, held, fan_out ran held StringMessage⟩

end PubSub.Cache
