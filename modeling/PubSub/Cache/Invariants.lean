import Mathlib.Data.Set.Function
import PubSub.Cache.Runtimes

/-!
# One live runtime for each key, and every stream on it

Two invariants of the cache, each a predicate on the part of the state it speaks about, so that
a step that leaves the part alone preserves it by rewriting:

* `Registered`: the runtimes whose token is not cancelled are the ones the map names, each under
  the key its task was spawned for, and the one under construction;
* `Listening`: every undropped stream has a receiver in the channel of the runtime that the map
  names under the stream's own key.

A pass keeps both because an entry with a receiver is never dropped. The rest of the module is
what a channel holds (`Delivered`) and the theorem about the system with atomic sections.
-/

namespace PubSub.Cache
set_option autoImplicit false
open Base

/-- What the registry sees of a runtime. -/
structure Handle where
  key : CacheKey
  cancelled : Bool
  running : Bool
  senders : Nat

def Runtime.handle (rt : Runtime) : Handle := ⟨rt.key, rt.cancelled, rt.running, rt.channel.senders⟩

def State.handleOf (s : State) (r : Nat) : Option Handle := (s.runtimes.lookup r).map Runtime.handle

/-- The cursor of receiver `n` in the channel of runtime `r`. -/
def State.cursorOf (s : State) (r n : Nat) : Option Nat :=
  (s.runtimes.lookup r).bind fun rt => rt.channel.cursors.lookup n

/-- The entry under construction. -/
def State.building (s : State) : Option (CacheKey × CachedRuntime) :=
  s.creating.map fun c => (c.key, c.entry)

/-- The map and the entry under construction name exactly the runtimes that are not cancelled. -/
structure Registered (map : Table CacheKey CachedRuntime) (building : Option (CacheKey × CachedRuntime))
    (handleOf : Nat → Option Handle) (next : Nat) : Prop where
  entry : ∀ key e, map.lookup key = some e →
    ∃ h, handleOf e.runtime = some h ∧ h.key = key ∧ h.cancelled = false
  live : ∀ r h, handleOf r = some h → h.cancelled = false →
    (∃ e, map.lookup h.key = some e ∧ e.runtime = r) ∨ ∃ key e, building = some (key, e) ∧ e.runtime = r
  building : ∀ key e, building = some (key, e) → map.lookup key = none ∧
    ∃ h, handleOf e.runtime = some h ∧ h.key = key ∧ h.cancelled = false
  running : ∀ r h, handleOf r = some h → h.cancelled = false → h.running = true
  senders : ∀ r h, handleOf r = some h →
    h.senders = (if h.cancelled then 0 else 1) + (if h.running then 1 else 0)
  fresh : ∀ r h, handleOf r = some h → r < next

abbrev Registry (s : State) : Prop := Registered s.map s.building s.handleOf s.nextRuntime

/-- Every undropped stream listens to the runtime stored under its own key. -/
structure Listening (s : State) : Prop where
  attached : ∀ n st, s.streams.lookup n = some st →
    (∃ e, s.map.lookup st.key = some e ∧ e.runtime = st.runtime) ∧ (s.cursorOf st.runtime n).isSome
  creator : ∀ c n, s.creating = some c → c.stream = some n →
    s.streams.lookup n = none ∧ n < s.nextStream ∧ (s.cursorOf c.entry.runtime n).isSome
  fresh : ∀ r n, (s.cursorOf r n).isSome → n < s.nextStream

section Views

variable {s : State} {r r' n : Nat} {rt : Runtime}

theorem handleOf_modify (f : Runtime → Runtime) (same : ∀ rt, (f rt).handle = rt.handle) :
    ((s.runtimes.modify r f).lookup r').map Runtime.handle = s.handleOf r' :=
  Table.map_lookup_modify same s.runtimes r'

theorem handleOf_insert (rt' : Runtime) (found : s.runtimes.lookup r = some rt)
    (same : rt'.handle = rt.handle) :
    ((s.runtimes.insert r rt').lookup r').map Runtime.handle = s.handleOf r' := by
  rw [Table.lookup_insert_eq_ite, State.handleOf]
  split
  · subst_vars; simp [found, same]
  · rfl

theorem cursorOf_modify (f : Runtime → Runtime) :
    ((s.runtimes.modify r f).lookup r').bind (fun rt => rt.channel.cursors.lookup n) =
      if r' = r then (s.runtimes.lookup r).bind fun rt => (f rt).channel.cursors.lookup n
      else s.cursorOf r' n := by
  rw [Table.lookup_modify, State.cursorOf]
  by_cases same : r' = r
  · subst same
    simp only [if_true]
    cases s.runtimes.lookup r' <;> rfl
  · simp only [same, if_false]
    cases s.runtimes.lookup r' <;> rfl

theorem Runtime.handle_subscribe (n : Nat) (rt : Runtime) : (rt.subscribe n).handle = rt.handle := rfl

theorem Runtime.handle_unsubscribe (now n : Nat) (rt : Runtime) :
    (rt.unsubscribe now n).handle = rt.handle := rfl

theorem Runtime.handle_send (m : ByteMessage) (early : Bool) (rt : Runtime) :
    (rt.send m early).handle = rt.handle := by
  cases sent : rt.channel.send m with
  | none => simp [Runtime.send, Runtime.handle, sent]
  | some c => simp [Runtime.send, Runtime.handle, sent, (Broadcast.send_eq_some sent).2.2.2.1]

theorem Runtime.cursors_send (m : ByteMessage) (early : Bool) (rt : Runtime) :
    (rt.send m early).channel.cursors = rt.channel.cursors := by
  cases sent : rt.channel.send m with
  | none => simp [Runtime.send, sent]
  | some c => simp [Runtime.send, sent, (Broadcast.send_eq_some sent).2.2.1]

theorem Runtime.handle_read {out : Broadcast.Recv ByteMessage} {channel : Broadcast ByteMessage}
    (read : rt.channel.recv n = some (out, channel)) :
    Runtime.handle { rt with channel := channel } = rt.handle := by
  simp [Runtime.handle, (Broadcast.recv_frame read).2.1]

/-- A subscription adds one cursor, at the next stream number. -/
theorem cursorOf_getStream (entry : CachedRuntime) :
    ((s.getStream entry).cursorOf r n).isSome ↔
      (s.cursorOf r n).isSome ∨ (n = s.nextStream ∧ r = entry.runtime ∧ (s.handleOf r).isSome) := by
  simp only [State.cursorOf, State.getStream, State.handleOf]
  rw [cursorOf_modify]
  split
  · subst_vars
    cases s.runtimes.lookup entry.runtime with
    | none => simp
    | some rt =>
      simp only [Option.bind_some, Runtime.subscribe, Broadcast.subscribe_cursors,
        Table.lookup_insert_eq_ite]
      split <;> simp_all
  · simp_all [State.cursorOf]

end Views

section Registered

variable {ring : Ring} {s s' : State} {a : Action}

theorem Registered.init : Registry init where
  entry := by simp [Cache.init]
  live := by simp [State.handleOf, Cache.init]
  building := by simp [State.building, Cache.init]
  running := by simp [State.handleOf, Cache.init]
  senders := by simp [State.handleOf, Cache.init]
  fresh := by simp [State.handleOf, Cache.init]

/-- Two keys never name the same runtime. -/
theorem Registered.inj (reg : Registry s) {key key' : CacheKey} {e e' : CachedRuntime}
    (found : s.map.lookup key = some e) (found' : s.map.lookup key' = some e')
    (same : e.runtime = e'.runtime) : key = key' := by
  obtain ⟨h, handle, rfl, -⟩ := reg.entry key e found
  obtain ⟨h', handle', rfl, -⟩ := reg.entry key' e' found'
  rw [same, handle'] at handle
  cases handle
  rfl

/-- No entry names the number the next runtime gets. -/
theorem Registered.old (reg : Registry s) {key : CacheKey} {e : CachedRuntime}
    (found : s.map.lookup key = some e) : e.runtime ≠ s.nextRuntime := by
  obtain ⟨h, handle, -, -⟩ := reg.entry key e found
  have := reg.fresh _ _ handle
  omega

/-- The create branch: the new runtime is the entry under construction. -/
theorem Registered.create (reg : Registry s) (free : s.creating = none) {key : CacheKey}
    (absent : s.map.lookup key = none) : Registry (s.create ring key) := by
  have none_building : s.building = none := by simp [State.building, free]
  have view : ∀ r, (s.create ring key).handleOf r =
      if r = s.nextRuntime then some ⟨key, false, true, 2⟩ else s.handleOf r := by
    intro r
    simp only [State.handleOf, State.create, Table.lookup_insert_eq_ite]
    split <;> simp [Runtime.handle, Runtime.new]
  have old : ∀ {r h}, s.handleOf r = some h → r ≠ s.nextRuntime := fun found same =>
    absurd (reg.fresh _ _ found) (by omega)
  constructor
  · intro key' e found
    obtain ⟨h, handle, eq, alive⟩ := reg.entry key' e found
    exact ⟨h, by rw [view, if_neg (old handle), handle], eq, alive⟩
  · intro r h handle alive
    rw [view] at handle
    split at handle
    · subst_vars
      exact .inr ⟨key, _, rfl, rfl⟩
    · rcases reg.live r h handle alive with stored | ⟨_, _, bad, _⟩
      · exact .inl stored
      · rw [none_building] at bad; cases bad
  · intro key' e built
    cases built
    exact ⟨absent, ⟨key, false, true, 2⟩, by rw [view, if_pos rfl], rfl, rfl⟩
  · intro r h handle alive
    rw [view] at handle
    split at handle
    · cases handle; rfl
    · exact reg.running r h handle alive
  · intro r h handle
    rw [view] at handle
    split at handle
    · cases handle; rfl
    · exact reg.senders r h handle
  · intro r h handle
    rw [view] at handle
    change r < s.nextRuntime + 1
    split at handle
    · omega
    · exact Nat.lt_succ_of_lt (reg.fresh r h handle)

/-- The creating call stores its entry. -/
theorem Registered.insert {map : Table CacheKey CachedRuntime} {handleOf : Nat → Option Handle}
    {next : Nat} {key : CacheKey} {e : CachedRuntime}
    (reg : Registered map (some (key, e)) handleOf next) :
    Registered (map.insert key e) none handleOf next := by
  obtain ⟨absent, h, handle, eq, alive⟩ := reg.building key e rfl
  constructor
  · intro key' e' found
    rw [Table.lookup_insert_eq_ite] at found
    split at found
    · cases found; subst_vars; exact ⟨h, handle, rfl, alive⟩
    · exact reg.entry key' e' found
  · intro r h' handle' alive'
    refine .inl ?_
    rw [Table.lookup_insert_eq_ite]
    rcases reg.live r h' handle' alive' with ⟨e', found, same⟩ | ⟨_, _, built, same⟩
    · rw [if_neg (by rintro rfl; rw [found] at absent; cases absent)]
      exact ⟨e', found, same⟩
    · cases built; subst same
      rw [handle] at handle'
      cases handle'
      exact ⟨e, if_pos eq, rfl⟩
  · intro _ _ built; cases built
  · exact reg.running
  · exact reg.senders
  · exact reg.fresh

/-- A cancelled task returns. -/
theorem Registered.exit (reg : Registry s) {r : Nat} {rt : Runtime}
    (runtime : s.runtimes.lookup r = some rt) (running : rt.running = true)
    (cancelled : rt.cancelled = true) :
    Registry { s with runtimes := s.runtimes.modify r Runtime.exit } := by
  have here : s.handleOf r = some rt.handle := by simp [State.handleOf, runtime]
  have view : ∀ r', State.handleOf { s with runtimes := s.runtimes.modify r Runtime.exit } r' =
      if r' = r then some rt.exit.handle else s.handleOf r' := by
    intro r'
    simp only [State.handleOf, Table.lookup_modify]
    split
    · subst_vars; simp [runtime]
    · cases s.runtimes.lookup r' <;> rfl
  have dead : rt.exit.handle.cancelled = true := cancelled
  constructor
  · intro key e found
    obtain ⟨h, handle, eq, alive⟩ := reg.entry key e found
    refine ⟨h, ?_, eq, alive⟩
    rw [view, if_neg, handle]
    intro same
    rw [same, here] at handle
    cases handle
    exact absurd (alive.symm.trans cancelled) (by decide)
  · intro r' h handle alive
    rw [view] at handle
    split at handle
    · cases handle; rw [dead] at alive; cases alive
    · exact reg.live r' h handle alive
  · intro key e built
    obtain ⟨absent, h, handle, eq, alive⟩ := reg.building key e built
    refine ⟨absent, h, ?_, eq, alive⟩
    rw [view, if_neg, handle]
    intro same
    rw [same, here] at handle
    cases handle
    exact absurd (alive.symm.trans cancelled) (by decide)
  · intro r' h handle alive
    rw [view] at handle
    split at handle
    · cases handle; rw [dead] at alive; cases alive
    · exact reg.running r' h handle alive
  · intro r' h handle
    rw [view] at handle
    split at handle
    · cases handle
      have before := reg.senders r rt.handle here
      simp only [Runtime.handle, cancelled, running] at before
      simp [Runtime.handle, Runtime.exit, cancelled, before]
    · exact reg.senders r' h handle
  · intro r' h handle
    rw [view] at handle
    split at handle
    · subst_vars; exact reg.fresh _ _ here
    · exact reg.fresh r' h handle

theorem handleOf_reap (now r : Nat) :
    (s.reap now).handleOf r = (s.handleOf r).map fun h =>
      if s.evicts now r then { h with cancelled := true, senders := h.senders - 1 } else h := by
  simp only [State.handleOf, State.reap, Table.lookup_retain]
  cases s.runtimes.lookup r with
  | none => rfl
  | some rt =>
    simp only [Option.bind_some, Option.map_some]
    split <;> rfl

/-- A pass: the entries it drops are the runtimes it cancels. -/
theorem Registered.reap (reg : Registry s) (free : s.creating = none) (now : Nat) :
    Registry (s.reap now) := by
  have none_building : s.building = none := by simp [State.building, free]
  have kept : ∀ {key e e'}, s.map.lookup key = some e →
      e.retained (s.receiverCount e) now = some e' → s.evicts now e.runtime = false := by
    intro key e e' found keep
    by_contra gone
    obtain ⟨key', e'', found', same, dropped⟩ := evicts_iff.1 (Bool.not_eq_false _ ▸ gone)
    have : key' = key := reg.inj found' found same
    subst this
    rw [found] at found'
    cases found'
    rw [keep] at dropped
    cases dropped
  constructor
  · intro key e' found
    simp only [State.reap, Table.lookup_retain] at found
    obtain ⟨e, stored, keep⟩ := Option.bind_eq_some_iff.1 found
    obtain ⟨h, handle, eq, alive⟩ := reg.entry key e stored
    refine ⟨h, ?_, eq, alive⟩
    rw [CachedRuntime.retained_runtime keep, handleOf_reap, handle, Option.map_some,
      kept stored keep]
    rfl
  · intro r h handle alive
    rw [handleOf_reap] at handle
    obtain ⟨h', handle', rfl⟩ := Option.map_eq_some_iff.1 handle
    cases gone : s.evicts now r with
    | true => simp [gone] at alive
    | false =>
      simp only [gone, Bool.false_eq_true, if_false] at alive ⊢
      rcases reg.live r h' handle' alive with ⟨e, stored, same⟩ | ⟨_, _, bad, _⟩
      · cases keep : e.retained (s.receiverCount e) now with
        | none =>
          rw [evicts_iff.2 ⟨h'.key, e, stored, same, keep⟩] at gone
          cases gone
        | some e' =>
          refine .inl ⟨e', ?_, (CachedRuntime.retained_runtime keep).trans same⟩
          simp [State.reap, stored, keep]
      · rw [none_building] at bad; cases bad
  · intro key e built
    rw [show (s.reap now).building = s.building from rfl, none_building] at built
    cases built
  · intro r h handle alive
    rw [handleOf_reap] at handle
    obtain ⟨h', handle', rfl⟩ := Option.map_eq_some_iff.1 handle
    split at alive
    · cases alive
    · rename_i stays
      rw [if_neg stays]
      exact reg.running r h' handle' alive
  · intro r h handle
    rw [handleOf_reap] at handle
    obtain ⟨h', handle', rfl⟩ := Option.map_eq_some_iff.1 handle
    have before := reg.senders r h' handle'
    split
    · rename_i gone
      obtain ⟨key, e, stored, same, -⟩ := evicts_iff.1 gone
      obtain ⟨h'', handle'', -, alive⟩ := reg.entry key e stored
      rw [same, handle'] at handle''
      cases handle''
      simp [before, alive]
    · exact before
  · intro r h handle
    rw [handleOf_reap] at handle
    obtain ⟨h', handle', rfl⟩ := Option.map_eq_some_iff.1 handle
    exact reg.fresh r h' handle'

/-- Every step keeps the registry. -/
theorem Registered.step (reg : Registry s) (taken : Step ring s a s') : Registry s' := by
  -- the steps that move no handle, no entry and no construction
  have frame : ∀ {t : State}, t.map = s.map → t.building = s.building →
      t.nextRuntime = s.nextRuntime → (∀ r, t.handleOf r = s.handleOf r) → Registry t := by
    intro t map building next handles
    rw [Registry, map, building, next, funext handles]
    exact reg
  cases taken with
  | tick d => exact reg
  | readHit free found => exact frame rfl rfl rfl fun _ => handleOf_modify _ (Runtime.handle_subscribe _)
  | readMiss free absent => exact reg
  | writeHit free found => exact frame rfl rfl rfl fun _ => handleOf_modify _ (Runtime.handle_subscribe _)
  | create free absent =>
    exact Registered.create (s := { s with missed := _ }) (frame rfl rfl rfl fun _ => rfl) free absent
  | subscribe open' =>
    exact frame rfl (by simp [State.building, open']) rfl fun _ =>
      handleOf_modify _ (Runtime.handle_subscribe _)
  | @insert key entry n open' =>
    have built : s.building = some (key, entry) := by simp [State.building, open']
    apply Registered.insert
    rw [← built]
    exact reg
  | abandon key => exact reg
  | poll held runtime read =>
    exact frame rfl rfl rfl fun _ => handleOf_insert _ runtime (Runtime.handle_read read)
  | drop held => exact frame rfl rfl rfl fun _ => handleOf_modify _ (Runtime.handle_unsubscribe _ _)
  | send m runtime running => exact frame rfl rfl rfl fun _ => handleOf_modify _ (Runtime.handle_send _ _)
  | exit runtime running cancelled => exact reg.exit runtime running cancelled
  | wake asleep due => exact reg
  | reap free waiting => exact reg.reap free _

end Registered

section Listening

variable {ring : Ring} {s s' : State} {a : Action}

theorem Listening.init : Listening init where
  attached := by simp [Cache.init]
  creator := by simp [Cache.init]
  fresh := by simp [State.cursorOf, Cache.init]

/-- The number of the next stream is in nobody's hands. -/
theorem Listening.next (lis : Listening s) : s.streams.lookup s.nextStream = none := by
  cases held : s.streams.lookup s.nextStream with
  | none => rfl
  | some st => exact absurd (lis.fresh _ _ (lis.attached _ st held).2) (by omega)

/-- No stream listens to the runtime that is created next. -/
theorem Listening.old (lis : Listening s) (reg : Registry s) {n : Nat} {st : Stream}
    (held : s.streams.lookup n = some st) : st.runtime ≠ s.nextRuntime := by
  obtain ⟨⟨e, stored, same⟩, -⟩ := lis.attached n st held
  rw [← same]
  exact reg.old stored

/-- Subscribing to a stored entry and returning the stream. -/
theorem Listening.share (lis : Listening s) (reg : Registry s) {key : CacheKey}
    {entry : CachedRuntime} (found : s.map.lookup key = some entry) :
    Listening (s.share key entry) := by
  obtain ⟨h, handle, -, -⟩ := reg.entry key entry found
  have view : ∀ r n, ((s.share key entry).cursorOf r n).isSome ↔
      (s.cursorOf r n).isSome ∨ (n = s.nextStream ∧ r = entry.runtime ∧ (s.handleOf r).isSome) :=
    fun r n => cursorOf_getStream entry
  constructor
  · intro n st held
    simp only [State.share, State.hand, State.getStream, Table.lookup_insert_eq_ite] at held
    split at held
    · cases held
      subst_vars
      exact ⟨⟨entry, found, rfl⟩, (view _ _).2 (.inr ⟨rfl, rfl, by simp [handle]⟩)⟩
    · obtain ⟨stored, cursor⟩ := lis.attached n st held
      exact ⟨stored, (view _ _).2 (.inl cursor)⟩
  · intro c n creating stream
    obtain ⟨unheld, lt, cursor⟩ := lis.creator c n creating stream
    refine ⟨?_, Nat.lt_succ_of_lt lt, (view _ _).2 (.inl cursor)⟩
    simp only [State.share, State.hand, State.getStream, Table.lookup_insert_eq_ite]
    rw [if_neg (by omega), unheld]
  · intro r n cursor
    change n < s.nextStream + 1
    rcases (view r n).1 cursor with old | ⟨rfl, -⟩
    · exact Nat.lt_succ_of_lt (lis.fresh r n old)
    · omega

/-- A fresh runtime has no receiver, and takes no other runtime's place. -/
theorem Listening.create (lis : Listening s) (reg : Registry s) {key : CacheKey} :
    Listening (s.create ring key) := by
  have view : ∀ r n, (s.create ring key).cursorOf r n =
      if r = s.nextRuntime then none else s.cursorOf r n := by
    intro r n
    simp only [State.cursorOf, State.create, Table.lookup_insert_eq_ite]
    split <;> simp [Runtime.new]
  constructor
  · intro n st held
    obtain ⟨stored, cursor⟩ := lis.attached n st held
    exact ⟨stored, by rw [view, if_neg (lis.old reg held)]; exact cursor⟩
  · intro c n creating stream
    cases creating
    cases stream
  · intro r n cursor
    rw [view] at cursor
    split at cursor
    · cases cursor
    · exact lis.fresh r n cursor

/-- The creating call subscribes: its receiver is in the channel before any stream of it is. -/
theorem Listening.subscribe (lis : Listening s) (reg : Registry s) {key : CacheKey}
    {entry : CachedRuntime} (creating : s.creating = some ⟨key, entry, none⟩) :
    Listening { s.getStream entry with creating := some ⟨key, entry, some s.nextStream⟩ } := by
  obtain ⟨-, h, handle, -, -⟩ := reg.building key entry (by simp [State.building, creating])
  have view : ∀ r n, ((s.getStream entry).cursorOf r n).isSome ↔
      (s.cursorOf r n).isSome ∨ (n = s.nextStream ∧ r = entry.runtime ∧ (s.handleOf r).isSome) :=
    fun r n => cursorOf_getStream entry
  constructor
  · intro n st held
    obtain ⟨stored, cursor⟩ := lis.attached n st held
    exact ⟨stored, (view _ _).2 (.inl cursor)⟩
  · intro c n building stream
    cases building
    cases stream
    exact ⟨lis.next, Nat.lt_succ_self _, (view _ _).2 (.inr ⟨rfl, rfl, by simp [handle]⟩)⟩
  · intro r n cursor
    change n < s.nextStream + 1
    rcases (view r n).1 cursor with old | ⟨rfl, -⟩
    · exact Nat.lt_succ_of_lt (lis.fresh r n old)
    · omega

/-- The creating call stores its entry and returns its stream. -/
theorem Listening.insert (lis : Listening s) (reg : Registry s) {key : CacheKey}
    {entry : CachedRuntime} {n : Nat} (creating : s.creating = some ⟨key, entry, some n⟩) :
    Listening { s.hand key entry n true with map := s.map.insert key entry, creating := none } := by
  obtain ⟨absent, -⟩ := reg.building key entry (by simp [State.building, creating])
  obtain ⟨unheld, lt, receiver⟩ := lis.creator _ n creating rfl
  constructor
  · intro n' st held
    simp only [State.hand, Table.lookup_insert_eq_ite] at held
    split at held
    · cases held
      subst_vars
      exact ⟨⟨entry, AList.lookup_insert _, rfl⟩, receiver⟩
    · obtain ⟨⟨e, stored, same⟩, cursor⟩ := lis.attached n' st held
      refine ⟨⟨e, ?_, same⟩, cursor⟩
      rw [Table.lookup_insert_eq_ite, if_neg (by rintro rfl; rw [stored] at absent; cases absent),
        stored]
  · intro c n' building
    cases building
  · exact lis.fresh

/-- A read moves the reader's cursor only. -/
theorem Listening.poll (lis : Listening s) {n : Nat} {st : Stream} {rt : Runtime}
    {out : Broadcast.Recv ByteMessage} {channel : Broadcast ByteMessage}
    (held : s.streams.lookup n = some st) (runtime : s.runtimes.lookup st.runtime = some rt)
    (read : rt.channel.recv n = some (out, channel)) :
    Listening (s.poll n st rt (out, channel)) := by
  have view : ∀ r n', ((s.poll n st rt (out, channel)).cursorOf r n').isSome =
      (s.cursorOf r n').isSome := by
    intro r n'
    simp only [State.cursorOf, State.poll, Table.lookup_insert_eq_ite]
    split
    · subst_vars
      simpa [runtime] using ((Broadcast.recv_frame read).2.2 n').1
    · rfl
  have same : ∀ n' st', (s.poll n st rt (out, channel)).streams.lookup n' = some st' →
      ∃ st'', s.streams.lookup n' = some st'' ∧ st'.key = st''.key ∧ st'.runtime = st''.runtime := by
    intro n' st' found
    simp only [State.poll, Table.lookup_insert_eq_ite] at found
    split at found
    · cases found; subst_vars
      exact ⟨st, held, (st.next_frame out).1, (st.next_frame out).2.1⟩
    · exact ⟨st', found, rfl, rfl⟩
  have kept : ∀ n', s.streams.lookup n' = none →
      (s.poll n st rt (out, channel)).streams.lookup n' = none := by
    intro n' unheld
    cases found : (s.poll n st rt (out, channel)).streams.lookup n' with
    | none => rfl
    | some st' =>
      obtain ⟨st'', held', -⟩ := same n' st' found
      rw [unheld] at held'
      cases held'
  constructor
  · intro n' st' found
    obtain ⟨st'', held', key, runtime'⟩ := same n' st' found
    rw [key, runtime', view]
    exact lis.attached n' st'' held'
  · intro c n' creating stream
    obtain ⟨unheld, lt, cursor⟩ := lis.creator c n' creating stream
    exact ⟨kept n' unheld, lt, by rw [view]; exact cursor⟩
  · intro r n' cursor
    rw [view] at cursor
    exact lis.fresh r n' cursor

/-- A dropped stream takes its receiver with it; every other one stays. -/
theorem Listening.drop (lis : Listening s) {n : Nat} {st : Stream}
    (held : s.streams.lookup n = some st) :
    Listening { s with
      runtimes := s.runtimes.modify st.runtime (Runtime.unsubscribe s.clock n)
      streams := s.streams.erase n } := by
  have view : ∀ r n', (State.cursorOf { s with
      runtimes := s.runtimes.modify st.runtime (Runtime.unsubscribe s.clock n)
      streams := s.streams.erase n } r n') =
        if r = st.runtime ∧ n' = n then none else s.cursorOf r n' := by
    intro r n'
    rw [State.cursorOf, cursorOf_modify]
    by_cases here : r = st.runtime
    · subst here
      rw [State.cursorOf]
      cases s.runtimes.lookup st.runtime with
      | none => simp
      | some rt =>
        simp only [if_true, Option.bind_some, Runtime.unsubscribe, Broadcast.unsubscribe_cursors,
          Table.lookup_erase_eq_ite, true_and]
    · simp [here]
  constructor
  · intro n' st' found
    rw [Table.lookup_erase_eq_ite] at found
    split at found
    · cases found
    · rename_i other
      obtain ⟨stored, cursor⟩ := lis.attached n' st' found
      exact ⟨stored, by rw [view, if_neg (fun both => other both.2)]; exact cursor⟩
  · intro c n' creating stream
    obtain ⟨unheld, lt, cursor⟩ := lis.creator c n' creating stream
    have other : n' ≠ n := by rintro rfl; rw [held] at unheld; cases unheld
    refine ⟨?_, lt, by rw [view, if_neg (fun both => other both.2)]; exact cursor⟩
    rw [Table.lookup_erase_eq_ite, if_neg other, unheld]
  · intro r n' cursor
    rw [view] at cursor
    split at cursor
    · cases cursor
    · exact lis.fresh r n' cursor

/-- A pass keeps the entry of every stream: its runtime has a receiver. -/
theorem Listening.reap (lis : Listening s) (free : s.creating = none) (now : Nat) :
    Listening (s.reap now) := by
  have view : ∀ r n, (s.reap now).cursorOf r n = s.cursorOf r n := by
    intro r n
    simp only [State.cursorOf, State.reap, Table.lookup_retain]
    cases s.runtimes.lookup r with
    | none => rfl
    | some rt =>
      simp only [Option.bind_some, Runtime.passed]
      split <;> rfl
  constructor
  · intro n st held
    obtain ⟨⟨e, stored, same⟩, cursor⟩ := lis.attached n st held
    have used : s.receiverCount e > 0 := by
      rw [← same] at cursor
      obtain ⟨p, at'⟩ := Option.isSome_iff_exists.1 cursor
      obtain ⟨rt, runtime, position⟩ := Option.bind_eq_some_iff.1 at'
      rw [State.receiverCount, runtime]
      exact Broadcast.receiverCount_pos_iff.2 ⟨n, p, position⟩
    refine ⟨⟨{ e with lastUsed := now }, ?_, same⟩, by rw [view]; exact cursor⟩
    simp [State.reap, stored, CachedRuntime.retained, used]
  · intro c n creating
    rw [show (s.reap now).creating = s.creating from rfl, free] at creating
    cases creating
  · intro r n cursor
    rw [view] at cursor
    exact lis.fresh r n cursor

/-- Every step keeps the listeners attached. -/
theorem Listening.step (lis : Listening s) (reg : Registry s) (taken : Step ring s a s') :
    Listening s' := by
  -- the steps that move no stream, entry, construction or cursor
  have frame : ∀ {t : State}, t.map = s.map → t.streams = s.streams → t.creating = s.creating →
      t.nextStream = s.nextStream → (∀ r n, t.cursorOf r n = s.cursorOf r n) → Listening t := by
    intro t map streams creating next cursors
    constructor
    · intro n st held
      rw [map, cursors]
      exact lis.attached n st (streams ▸ held)
    · intro c n building stream
      rw [streams, next, cursors]
      exact lis.creator c n (creating ▸ building) stream
    · intro r n cursor
      rw [next]
      exact lis.fresh r n (cursors r n ▸ cursor)
  have modified : ∀ {r : Nat} {f : Runtime → Runtime}, (∀ rt, (f rt).channel.cursors = rt.channel.cursors) →
      Listening { s with runtimes := s.runtimes.modify r f } := by
    intro r f same
    refine frame rfl rfl rfl rfl fun r' n => ?_
    rw [State.cursorOf, cursorOf_modify]
    split
    · subst_vars; simp [State.cursorOf, same]
    · rfl
  cases taken with
  | tick d => exact frame rfl rfl rfl rfl fun _ _ => rfl
  | readHit free found => exact lis.share reg found
  | readMiss free absent => exact frame rfl rfl rfl rfl fun _ _ => rfl
  | @writeHit key entry free found =>
    exact Listening.share (s := { s with missed := s.missed.erase key }) (frame rfl rfl rfl rfl fun _ _ => rfl) reg found
  | @create key free absent =>
    exact Listening.create (s := { s with missed := s.missed.erase key }) (frame rfl rfl rfl rfl fun _ _ => rfl) reg
  | subscribe creating => exact lis.subscribe reg creating
  | insert creating => exact lis.insert reg creating
  | abandon key => exact frame rfl rfl rfl rfl fun _ _ => rfl
  | poll held runtime read => exact lis.poll held runtime read
  | drop held => exact lis.drop held
  | send m runtime running => exact modified fun rt => rt.cursors_send m _
  | exit runtime running cancelled => exact modified fun _ => rfl
  | wake asleep due => exact frame rfl rfl rfl rfl fun _ _ => rfl
  | reap free waiting => exact lis.reap free _

end Listening

section Delivered

variable {ring : Ring} {s s' : State} {a : Action}

/-- Channels hold, and streams have received, only what the runtime's own task has sent. -/
structure Delivered (s : State) : Prop where
  logged : ∀ r rt, s.runtimes.lookup r = some rt → rt.channel.log ⊆ rt.sends
  received : ∀ n st rt, s.streams.lookup n = some st → s.runtimes.lookup st.runtime = some rt →
    st.received ⊆ rt.sends

theorem Delivered.init : Delivered init where
  logged := by simp [Cache.init]
  received := by simp [Cache.init]

theorem Runtime.log_send (m : ByteMessage) (early : Bool) (rt : Runtime)
    (logged : rt.channel.log ⊆ rt.sends) :
    (rt.send m early).channel.log ⊆ (rt.send m early).sends := by
  cases sent : rt.channel.send m with
  | none =>
    simp only [Runtime.send, sent, Option.getD_none]
    exact List.Subset.trans logged (List.subset_append_left _ _)
  | some c =>
    simp only [Runtime.send, sent, Option.getD_some, (Broadcast.send_eq_some sent).2.1]
    exact List.append_subset.2
      ⟨List.Subset.trans logged (List.subset_append_left _ _), List.subset_append_right _ _⟩

/-- A step only adds to what a task has sent, and its channel holds no more than that. -/
theorem Runtime.Moves.grows {rt rt' : Runtime} (moves : rt.Moves s a rt') :
    rt.sends ⊆ rt'.sends ∧ (rt.channel.log ⊆ rt.sends → rt'.channel.log ⊆ rt'.sends) := by
  cases moves with
  | @poll n out channel read =>
    refine ⟨fun _ => id, fun logged => ?_⟩
    rwa [show channel.log = rt.channel.log from (Broadcast.recv_frame read).1]
  | send m early => exact ⟨List.subset_append_left _ _, rt.log_send m early⟩
  | passed pass waiting gone => cases gone <;> exact ⟨fun _ => id, id⟩
  | _ => exact ⟨fun _ => id, id⟩

/-- Every step keeps messages where they belong. -/
theorem Delivered.step (del : Delivered s) (reg : Registry s) (lis : Listening s)
    (taken : Step ring s a s') : Delivered s' := by
  constructor
  · intro r rt' found
    obtain ⟨-, key, rfl⟩ | ⟨rt, before, moves⟩ := taken.runtime_cases found
    · exact List.nil_subset _
    · exact moves.grows.2 (del.logged r rt before)
  · intro n st' rt' held found
    -- a stream that was there listens to a runtime that was there
    have older : ∀ st rt, s.streams.lookup n = some st → st'.runtime = st.runtime →
        s.runtimes.lookup st.runtime = some rt → rt.sends ⊆ rt'.sends := by
      intro st rt there same runtime
      rw [same] at found
      obtain ⟨fresh, -⟩ | ⟨rt₀, before, moves⟩ := taken.runtime_cases found
      · exact absurd fresh (lis.old reg there)
      · rw [runtime] at before
        cases before
        exact moves.grows.1
    obtain ⟨empty, -⟩ | there | ⟨st, rt, out, channel, there, runtime, read, rfl⟩ := taken.stream_cases held
    · rw [empty]
      exact List.nil_subset _
    · obtain ⟨fresh, -⟩ | ⟨rt, runtime, -⟩ := taken.runtime_cases found
      · exact absurd fresh (lis.old reg there)
      · exact List.Subset.trans (del.received n st' rt there runtime) (older st' rt there rfl runtime)
    · -- the reader has at most one message more, from the channel
      refine List.Subset.trans (fun m here => ?_) (older st rt there (st.next_frame out).2.1 runtime)
      rcases Stream.mem_next here with old | rfl
      · exact del.received n st rt there runtime old
      · obtain ⟨p, -, lt, -, rfl, -⟩ := Broadcast.recv_ok read
        exact del.logged _ rt runtime (List.getElem_mem lt)

end Delivered

/-! ## The system in a reachable state -/

/-- The three invariants together. -/
structure Consistent (s : State) : Prop where
  registry : Registry s
  listening : Listening s
  delivered : Delivered s

variable {ring : Ring} {s s' : State}

theorem consistent_of_reachable : (system ring).Reachable s → Consistent s :=
  Lts.Reachable.invariant ⟨.init, .init, .init⟩
    (fun _ _ _ _ con taken =>
      ⟨con.registry.step (.of_step taken), con.listening.step con.registry (.of_step taken),
        con.delivered.step con.registry con.listening (.of_step taken)⟩) s

/-- Only the steps of a creating call open or close the lock. -/
theorem Step.creating_eq {a : Action} (taken : Step ring s a s') (outside : a.underLock = false) :
    s'.creating = s.creating := by
  cases taken <;> first | rfl | cases outside

/-- A write-lock section that runs to its end releases the lock. -/
theorem finish_creating (run : finish ring s = some s') : s'.creating = none := by
  unfold finish at run
  split at run
  · cases run; assumption
  · obtain ⟨t, -, last⟩ := Option.bind_eq_some_iff.1 run
    cases Step.of_step last
    rfl

/-- **Atomic sections refine.** Every state the system with atomic sections reaches is one the
system with exposed steps reaches with the lock free. -/
theorem sections_refine : (sections ring).Reachable s → (system ring).Reachable s ∧ s.creating = none := by
  refine Lts.Reachable.invariant (M := sections ring)
    (I := fun s => (system ring).Reachable s ∧ s.creating = none)
    ⟨Lts.Reachable.init (M := system ring), rfl⟩ ?_ s
  rintro s a s' - ⟨reached, free⟩ taken
  cases a with
  | write key =>
    obtain ⟨t, first, rest⟩ := Option.bind_eq_some_iff.1 taken
    have here : (system ring).Reachable t := reached.step (a := .write key) first
    refine ⟨?_, finish_creating rest⟩
    unfold finish at rest
    split at rest
    · cases rest; exact here
    · obtain ⟨u, second, third⟩ := Option.bind_eq_some_iff.1 rest
      exact Lts.Reachable.step (a := .insert) (here.step (a := .subscribe) second) third
  | other a =>
    simp only [sections, sectionStep] at taken
    split at taken
    · cases taken
    · rename_i outside
      exact ⟨reached.step (a := a) taken,
        ((Step.of_step taken).creating_eq (Bool.eq_false_iff.2 outside)).trans free⟩

/-- The entries of the map. -/
def State.entries (s : State) : Set (CacheKey × CachedRuntime) :=
  {e | s.map.lookup e.1 = some e.2}

/-- The spawned tasks whose token is not cancelled, by runtime. -/
def State.liveTasks (s : State) : Set Nat :=
  {r | ∃ rt, s.runtimes.lookup r = some rt ∧ rt.cancelled = false}

/-- What a listener can rely on: its stream is subscribed to the sender stored right now under its
own key; that runtime was spawned for this key, is not cancelled, its task has not returned and
its channel is not closed; the next read does not end the stream and takes its message from what
this runtime's task sent, as all earlier ones did. -/
structure Served (s : State) (n : Nat) (st : Stream) : Prop where
  stored : ∃ entry, s.map.lookup st.key = some entry ∧ entry.runtime = st.runtime
  runtime : ∃ rt, s.runtimes.lookup st.runtime = some rt ∧ rt.key = st.key ∧ rt.cancelled = false ∧
    rt.running = true ∧ 0 < rt.channel.senders ∧ (rt.channel.cursors.lookup n).isSome ∧
    (∀ read channel, rt.channel.recv n = some (read, channel) → read ≠ .closed) ∧
    (∀ m channel, rt.channel.recv n = some (.ok m, channel) → m ∈ rt.sends) ∧
    ∀ m ∈ st.received, m ∈ rt.sends

theorem Consistent.served (con : Consistent s) {n : Nat} {st : Stream}
    (held : s.streams.lookup n = some st) : Served s n st := by
  obtain ⟨⟨entry, stored, same⟩, cursor⟩ := con.listening.attached n st held
  obtain ⟨h, handle, key, alive⟩ := con.registry.entry st.key entry stored
  have running := con.registry.running _ h handle alive
  have senders := con.registry.senders _ h handle
  rw [same] at handle
  obtain ⟨rt, runtime, rfl⟩ := Option.map_eq_some_iff.1 handle
  have open' : 0 < rt.channel.senders := by
    change rt.channel.senders = _ at senders
    rw [senders, alive]
    exact Nat.lt_of_lt_of_le Nat.zero_lt_one (Nat.le_add_right 1 _)
  refine ⟨⟨entry, stored, same⟩, rt, runtime, key, alive, running, open', ?_, ?_, ?_, ?_⟩
  · simpa [State.cursorOf, runtime] using cursor
  · intro read channel taken ended
    subst ended
    have := Broadcast.senders_of_recv_closed taken
    omega
  · intro m channel taken
    obtain ⟨p, -, lt, -, rfl, -⟩ := Broadcast.recv_ok taken
    exact con.delivered.logged _ rt runtime (List.getElem_mem lt)
  · exact fun m got => con.delivered.received n st rt held runtime got

/-- **The subscriber cache.** In every state the cache reaches, each lock section being one step:
the tasks whose token is not cancelled correspond one to one with the entries of the map, each
spawned for the key it is stored under, so two live tasks have different keys; and every
undropped stream is served by the runtime stored under its own key. -/
theorem one_runtime_per_key (reached : (sections ring).Reachable s) :
    Set.BijOn (fun e : CacheKey × CachedRuntime => e.2.runtime) s.entries s.liveTasks ∧
      (∀ e ∈ s.entries, ∃ rt, s.runtimes.lookup e.2.runtime = some rt ∧ rt.key = e.1) ∧
      (∀ r ∈ s.liveTasks, ∀ r' ∈ s.liveTasks, ∀ rt rt', s.runtimes.lookup r = some rt →
        s.runtimes.lookup r' = some rt' → rt.key = rt'.key → r = r') ∧
      ∀ n st, s.streams.lookup n = some st → Served s n st := by
  obtain ⟨run, free⟩ := sections_refine reached
  have con := consistent_of_reachable run
  have reg := con.registry
  have none_building : s.building = none := by simp [State.building, free]
  have stored : ∀ r rt, s.runtimes.lookup r = some rt → rt.cancelled = false →
      ∃ e, s.map.lookup rt.key = some e ∧ e.runtime = r := by
    intro r rt found alive
    rcases reg.live r rt.handle (by simp [State.handleOf, found]) alive with stored | ⟨_, _, bad, _⟩
    · exact stored
    · rw [none_building] at bad; cases bad
  have named : ∀ e ∈ s.entries, ∃ rt, s.runtimes.lookup e.2.runtime = some rt ∧ rt.key = e.1 ∧
      rt.cancelled = false := by
    intro e found
    obtain ⟨h, handle, key, alive⟩ := reg.entry e.1 e.2 found
    obtain ⟨rt, runtime, rfl⟩ := Option.map_eq_some_iff.1 handle
    exact ⟨rt, runtime, key, alive⟩
  refine ⟨⟨?_, ?_, ?_⟩, ?_, ?_, ?_⟩
  · intro e found
    obtain ⟨rt, runtime, -, alive⟩ := named e found
    exact ⟨rt, runtime, alive⟩
  · rintro ⟨key, e⟩ found ⟨key', e'⟩ found' same
    have : key = key' := reg.inj found found' same
    subst this
    exact Prod.ext rfl (Option.some.inj (found.symm.trans found'))
  · rintro r ⟨rt, runtime, alive⟩
    obtain ⟨e, found, same⟩ := stored r rt runtime alive
    exact ⟨(rt.key, e), found, same⟩
  · intro e found
    obtain ⟨rt, runtime, key, -⟩ := named e found
    exact ⟨rt, runtime, key⟩
  · rintro r ⟨rt₀, runtime₀, alive₀⟩ r' ⟨rt₀', runtime₀', alive₀'⟩ rt rt' runtime runtime' same
    obtain rfl : rt₀ = rt := Option.some.inj (runtime₀.symm.trans runtime)
    obtain rfl : rt₀' = rt' := Option.some.inj (runtime₀'.symm.trans runtime')
    obtain ⟨e, found, rfl⟩ := stored r rt₀ runtime alive₀
    obtain ⟨e', found', rfl⟩ := stored r' rt₀' runtime' alive₀'
    rw [same, found'] at found
    cases found
    rfl
  · exact fun n st held => con.served held

/-- Two calls miss together; the second one to get the write lock shares the runtime of the first. -/
theorem one_runtime_per_key_racing : ∃ s, (sections powerOfTwo).exec init
      [.other (.read ⟨"localhost", "topic", .Kafka⟩), .other (.read ⟨"localhost", "topic", .Kafka⟩),
        .write ⟨"localhost", "topic", .Kafka⟩, .write ⟨"localhost", "topic", .Kafka⟩] = some s ∧
    s.map.size = 1 ∧ s.streams.size = 2 ∧
    Set.BijOn (fun e : CacheKey × CachedRuntime => e.2.runtime) s.entries s.liveTasks := by
  have run : ((sections powerOfTwo).exec init
      [.other (.read ⟨"localhost", "topic", .Kafka⟩), .other (.read ⟨"localhost", "topic", .Kafka⟩),
        .write ⟨"localhost", "topic", .Kafka⟩, .write ⟨"localhost", "topic", .Kafka⟩]).map (fun s =>
          (s.map.size, s.streams.size)) = some (1, 2) := by decide
  obtain ⟨s, ran, sizes⟩ := Option.map_eq_some_iff.1 run
  rw [Prod.mk.injEq] at sizes
  exact ⟨s, ran, sizes.1, sizes.2, (one_runtime_per_key ⟨_, ran⟩).1⟩

end PubSub.Cache
