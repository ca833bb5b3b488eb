import PubSub.Cache.Invariants

/-!
# What the first listener receives

The task of a runtime runs from the moment it is spawned; its creator subscribes a step later. A
send in between goes to a channel without receivers and is lost. From the subscription on the
creator's receiver keeps the channel open for sends, so everything sent then is in the log, and
the stream reads the log in order (`Complete`).
-/

namespace PubSub.Cache
set_option autoImplicit false
open Base

/-- What the delivery of a runtime's messages depends on. -/
structure Delivery where
  sends : List ByteMessage
  early : List ByteMessage
  log : List ByteMessage
  cursor : Nat → Option Nat

def Runtime.delivery (rt : Runtime) : Delivery :=
  ⟨rt.sends, rt.early, rt.channel.log, fun n => rt.channel.cursors.lookup n⟩

def State.deliveryOf (s : State) (r : Nat) : Option Delivery :=
  (s.runtimes.lookup r).map Runtime.delivery

/-- A receiver that was there for all but the early messages: it has read a prefix of the log,
unless it was told that it missed some. -/
def Delivery.Reads (d : Delivery) (n : Nat) (received : List ByteMessage) (missed : Nat) : Prop :=
  d.sends = d.early ++ d.log ∧
    ∃ p, p ≤ d.log.length ∧ d.cursor n = some p ∧ (missed = 0 → received = d.log.take p)

/-- The channel of a runtime under construction holds nothing until its creator subscribes, and
from then on everything its task sends. -/
structure Complete (s : State) : Prop where
  spawned : ∀ c d, s.creating = some c → c.stream = none → s.deliveryOf c.entry.runtime = some d →
    d.log = [] ∧ d.sends = d.early ∧ ∀ n, d.cursor n = none
  subscribed : ∀ c n d, s.creating = some c → c.stream = some n →
    s.deliveryOf c.entry.runtime = some d → d.Reads n [] 0
  held : ∀ n st d, s.streams.lookup n = some st → st.creator = true →
    s.deliveryOf st.runtime = some d → d.Reads n st.received st.missed

variable {ring : Ring} {s s' : State} {a : Action} {rt : Runtime} {n : Nat}
  {received : List ByteMessage} {missed : Nat}

/-- Sending with a receiver present appends to the log. -/
theorem Runtime.delivery_send (message : ByteMessage) {p : Nat}
    (cursor : rt.channel.cursors.lookup n = some p) :
    (rt.send message false).delivery =
      { rt.delivery with sends := rt.sends ++ [message], log := rt.channel.log ++ [message] } := by
  cases sent : rt.channel.send message with
  | none =>
    have positive : 0 < rt.channel.receiverCount := Broadcast.receiverCount_pos_iff.2 ⟨n, p, cursor⟩
    have := Broadcast.send_eq_none_iff.1 sent
    omega
  | some c =>
    obtain ⟨-, log, cursors, -, -⟩ := Broadcast.send_eq_some sent
    simp [Runtime.delivery, Runtime.send, sent, log, cursors]

/-- Sending without a receiver leaves the channel as it is. -/
theorem Runtime.delivery_send_refused (message : ByteMessage) (early : Bool)
    (alone : ∀ n, rt.channel.cursors.lookup n = none) :
    (rt.send message early).delivery =
      { rt.delivery with
        sends := rt.sends ++ [message]
        early := if early then rt.early ++ [message] else rt.early } := by
  have refused : rt.channel.send message = none := by
    rw [Broadcast.send_eq_none_iff]
    by_contra some
    obtain ⟨n, p, cursor⟩ := Broadcast.receiverCount_pos_iff.1 (Nat.pos_of_ne_zero some)
    rw [alone n] at cursor
    cases cursor
  simp [Runtime.delivery, Runtime.send, refused]

/-- A send after the subscription keeps the receiver complete. -/
theorem Delivery.Reads.send (reads : rt.delivery.Reads n received missed) (message : ByteMessage) :
    (rt.send message false).delivery.Reads n received missed := by
  obtain ⟨all, p, le, cursor, got⟩ := reads
  rw [Runtime.delivery_send message cursor]
  refine ⟨?_, p, ?_, cursor, fun none => ?_⟩
  · change rt.sends = rt.early ++ rt.channel.log at all
    simp only [Runtime.delivery, all, List.append_assoc]
  · simp only [Runtime.delivery, List.length_append] at le ⊢
    omega
  · rw [got none]
    exact (List.take_append_of_le_length le).symm

/-- A read of the receiver itself advances along the log. -/
theorem Delivery.Reads.poll {st : Stream} {out : Broadcast.Recv ByteMessage}
    {channel : Broadcast ByteMessage} (reads : rt.delivery.Reads n st.received st.missed)
    (read : rt.channel.recv n = some (out, channel)) :
    Delivery.Reads (Runtime.delivery { rt with channel := channel }) n
      (st.next out).received (st.next out).missed := by
  obtain ⟨all, p, le, cursor, got⟩ := reads
  obtain ⟨q, found, steps⟩ := Broadcast.recv_cases read
  obtain rfl : q = p := Option.some.inj (found.symm.trans cursor)
  rcases steps with ⟨behind, rfl, rfl⟩ | ⟨waiting, -, rfl, rfl⟩ | ⟨-, rfl, rfl, -⟩ | ⟨-, rfl, rfl, -⟩
  · refine ⟨all, rt.channel.oldest, rt.channel.oldest_le, by simp [Runtime.delivery, found], fun none => ?_⟩
    simp only [Stream.next] at none
    omega
  · refine ⟨all, q + 1, waiting, by simp [Runtime.delivery, found], fun none => ?_⟩
    simp only [Stream.next, got none, Runtime.delivery, Broadcast.seek_log, List.take_append_getElem]
  · exact ⟨all, q, le, cursor, got⟩
  · exact ⟨all, q, le, cursor, got⟩

/-- What a receiver has read does not depend on the other receivers. -/
theorem Delivery.Reads.congr {d d' : Delivery} (reads : d.Reads n received missed)
    (sends : d'.sends = d.sends) (early : d'.early = d.early) (log : d'.log = d.log)
    (cursor : d'.cursor n = d.cursor n) : d'.Reads n received missed := by
  unfold Delivery.Reads at reads ⊢
  rw [sends, early, log, cursor]
  exact reads

theorem Complete.init : Complete init where
  spawned := by simp [Cache.init]
  subscribed := by simp [Cache.init]
  held := by simp [Cache.init]

/-- The steps that leave every runtime's messages and receivers alone. -/
theorem Complete.frame (com : Complete s) {t : State} (creating : t.creating = s.creating)
    (streams : ∀ n st, t.streams.lookup n = some st → s.streams.lookup n = some st)
    (delivery : ∀ r, t.deliveryOf r = s.deliveryOf r) : Complete t := by
  constructor
  · intro c d open' before found
    exact com.spawned c d (creating ▸ open') before (delivery _ ▸ found)
  · intro c n d open' after found
    exact com.subscribed c n d (creating ▸ open') after (delivery _ ▸ found)
  · intro n st d held creator found
    exact com.held n st d (streams n st held) creator (delivery _ ▸ found)

theorem deliveryOf_modify {r : Nat} {f : Runtime → Runtime} (same : ∀ rt, (f rt).delivery = rt.delivery)
    (r' : Nat) :
    State.deliveryOf { s with runtimes := s.runtimes.modify r f } r' = s.deliveryOf r' :=
  Table.map_lookup_modify same s.runtimes r'

/-- A subscription gives the entry's runtime one more receiver, at the end of its log. -/
theorem deliveryOf_getStream (s : State) (entry : CachedRuntime) (r : Nat) :
    (s.getStream entry).deliveryOf r = (s.deliveryOf r).map fun d =>
      if r = entry.runtime then
        { d with cursor := fun n => if n = s.nextStream then some d.log.length else d.cursor n }
      else d := by
  simp only [State.deliveryOf, State.getStream, Table.lookup_modify]
  cases s.runtimes.lookup r with
  | none => rfl
  | some rt =>
    simp only [Option.map_some]
    split
    · simp [Runtime.delivery, Runtime.subscribe, Table.lookup_insert_eq_ite]
    · rfl

/-- A subscription of somebody else leaves a receiver complete. -/
theorem Complete.held_getStream (com : Complete s) (lis : Listening s) (entry : CachedRuntime)
    {st : Stream} {d : Delivery} (held : s.streams.lookup n = some st) (creator : st.creator = true)
    (found : (s.getStream entry).deliveryOf st.runtime = some d) :
    d.Reads n st.received st.missed := by
  rw [deliveryOf_getStream] at found
  obtain ⟨d₀, before, rfl⟩ := Option.map_eq_some_iff.1 found
  have reads := com.held n st d₀ held creator before
  split
  · have other : n ≠ s.nextStream :=
      Nat.ne_of_lt (lis.fresh st.runtime n (lis.attached n st held).2)
    exact reads.congr rfl rfl rfl (if_neg other)
  · exact reads

/-- Sharing an entry: the new stream is nobody's creator. -/
theorem Complete.share (com : Complete s) (lis : Listening s) (free : s.creating = none)
    (key : CacheKey) (entry : CachedRuntime) : Complete (s.share key entry) := by
  constructor
  · intro c d open'
    rw [show (s.share key entry).creating = s.creating from rfl, free] at open'
    cases open'
  · intro c n d open'
    rw [show (s.share key entry).creating = s.creating from rfl, free] at open'
    cases open'
  · intro n st d held creator found
    change (s.streams.insert s.nextStream ⟨key, entry.runtime, false, [], 0⟩).lookup n = some st at held
    rw [Table.lookup_insert_eq_ite] at held
    split at held
    · cases held; cases creator
    · exact com.held_getStream lis entry held creator found

theorem Complete.create (com : Complete s) (reg : Registry s) (lis : Listening s) (key : CacheKey) :
    Complete (s.create ring key) := by
  have view : ∀ r, (s.create ring key).deliveryOf r =
      if r = s.nextRuntime then some ⟨[], [], [], fun _ => none⟩ else s.deliveryOf r := by
    intro r
    simp only [State.deliveryOf, State.create, Table.lookup_insert_eq_ite]
    split
    · simp [Runtime.delivery, Runtime.new]
    · rfl
  constructor
  · intro c d open' before found
    cases open'
    rw [view, if_pos rfl] at found
    cases found
    exact ⟨rfl, rfl, fun _ => rfl⟩
  · intro c n d open' after
    cases open'; cases after
  · intro n st d held creator found
    rw [view, if_neg (lis.old reg held)] at found
    exact com.held n st d held creator found

/-- The creator subscribes to an empty channel. -/
theorem Complete.subscribe (com : Complete s) (lis : Listening s) {key : CacheKey}
    {entry : CachedRuntime} (open' : s.creating = some ⟨key, entry, none⟩) :
    Complete { s.getStream entry with creating := some ⟨key, entry, some s.nextStream⟩ } := by
  constructor
  · intro c d opened before
    cases opened; cases before
  · intro c n d opened after found
    cases opened; cases after
    change (s.getStream entry).deliveryOf entry.runtime = some d at found
    rw [deliveryOf_getStream] at found
    obtain ⟨d₀, before, rfl⟩ := Option.map_eq_some_iff.1 found
    obtain ⟨empty, all, -⟩ := com.spawned _ d₀ open' rfl before
    rw [if_pos rfl]
    exact ⟨by simp [all, empty], 0, Nat.zero_le _, by simp [empty], fun _ => rfl⟩
  · intro n st d held creator found
    exact com.held_getStream lis entry held creator found

/-- The creating call hands its stream out. -/
theorem Complete.insert (com : Complete s) {key : CacheKey} {entry : CachedRuntime}
    {m : Nat} (open' : s.creating = some ⟨key, entry, some m⟩) :
    Complete { s.hand key entry m true with map := s.map.insert key entry, creating := none } := by
  constructor
  · intro c d opened; cases opened
  · intro c n d opened; cases opened
  · intro n st d held creator found
    change (s.streams.insert m ⟨key, entry.runtime, true, [], 0⟩).lookup n = some st at held
    rw [Table.lookup_insert_eq_ite] at held
    split at held
    · subst_vars
      cases held
      exact com.subscribed _ n d open' rfl found
    · exact com.held n st d held creator found

/-- A read, of the stream itself or of another one. -/
theorem Complete.poll (com : Complete s) (lis : Listening s) {m : Nat} {st : Stream}
    {out : Broadcast.Recv ByteMessage} {channel : Broadcast ByteMessage}
    (held : s.streams.lookup m = some st) (runtime : s.runtimes.lookup st.runtime = some rt)
    (read : rt.channel.recv m = some (out, channel)) : Complete (s.poll m st rt (out, channel)) := by
  obtain ⟨log, -, others⟩ := Broadcast.recv_frame read
  have here : s.deliveryOf st.runtime = some rt.delivery := by simp [State.deliveryOf, runtime]
  have view : ∀ r, (s.poll m st rt (out, channel)).deliveryOf r =
      if r = st.runtime then some (Runtime.delivery { rt with channel := channel }) else s.deliveryOf r := by
    intro r
    simp only [State.deliveryOf, State.poll, Table.lookup_insert_eq_ite]
    split <;> rfl
  have other : ∀ {r n : Nat} {d : Delivery} {received : List ByteMessage} {missed : Nat}, n ≠ m →
      (∀ d₀, s.deliveryOf r = some d₀ → d₀.Reads n received missed) →
      (s.poll m st rt (out, channel)).deliveryOf r = some d → d.Reads n received missed := by
    intro r n d received missed ne reads found
    rw [view] at found
    split at found
    · subst_vars
      cases found
      exact (reads _ here).congr rfl rfl log ((others n).2 ne)
    · exact reads d found
  constructor
  · intro c d opened before found
    rw [view] at found
    split at found
    · -- a receiver can read, so this is not the runtime without receivers
      rename_i same
      obtain ⟨-, -, alone⟩ := com.spawned c rt.delivery opened before (same ▸ here)
      obtain ⟨p, cursor, -⟩ := Broadcast.recv_cases read
      exact absurd ((alone m).symm.trans cursor) (by simp)
    · exact com.spawned c d opened before found
  · intro c n d opened after found
    have ne : n ≠ m := by
      rintro rfl
      exact absurd ((lis.creator c n opened after).1.symm.trans held) (by simp)
    rw [view] at found
    split at found
    · rename_i same
      cases found
      exact (com.subscribed c n rt.delivery opened after (same ▸ here)).congr rfl rfl log ((others n).2 ne)
    · exact com.subscribed c n d opened after found
  · intro n st' d held' creator found
    simp only [State.poll, Table.lookup_insert_eq_ite] at held'
    split at held'
    · cases held'; subst_vars
      obtain ⟨-, same, who⟩ := st.next_frame out
      rw [view, same, if_pos rfl] at found
      cases found
      exact (com.held _ st _ held (who ▸ creator) here).poll read
    · rename_i ne
      exact other ne (fun d₀ before => com.held n st' d₀ held' creator before) found

/-- A stream is dropped. -/
theorem Complete.drop (com : Complete s) (lis : Listening s) {m : Nat} {st : Stream}
    (held : s.streams.lookup m = some st) (now : Nat) :
    Complete
      { s with
        runtimes := s.runtimes.modify st.runtime (Runtime.unsubscribe now m)
        streams := s.streams.erase m } := by
  -- every runtime keeps its messages and its receivers other than `m`
  have view : ∀ r d, ((s.runtimes.modify st.runtime (Runtime.unsubscribe now m)).lookup r).map
      Runtime.delivery = some d → ∃ d₀, s.deliveryOf r = some d₀ ∧ d.sends = d₀.sends ∧
        d.early = d₀.early ∧ d.log = d₀.log ∧ (∀ n, n ≠ m → d.cursor n = d₀.cursor n) ∧
        ∀ n, d₀.cursor n = none → d.cursor n = none := by
    intro r d found
    rw [Table.lookup_modify] at found
    cases runtime : s.runtimes.lookup r with
    | none => rw [runtime] at found; cases found
    | some rt =>
      rw [runtime] at found
      cases found
      refine ⟨rt.delivery, by simp [State.deliveryOf, runtime], ?_⟩
      split
      · refine ⟨rfl, rfl, rfl, fun n ne => ?_, fun n none => ?_⟩
        · exact (Table.lookup_erase_eq_ite _ _ _).trans (if_neg ne)
        · change (rt.channel.cursors.erase m).lookup n = Option.none
          rw [Table.lookup_erase_eq_ite]
          split
          · rfl
          · exact none
      · exact ⟨rfl, rfl, rfl, fun _ _ => rfl, fun _ none => none⟩
  constructor
  · intro c d opened before found
    obtain ⟨d₀, found₀, sends, early, log, -, gone⟩ := view _ d found
    obtain ⟨empty, all, alone⟩ := com.spawned c d₀ opened before found₀
    exact ⟨log.trans empty, by rw [sends, early, all], fun n => gone n (alone n)⟩
  · intro c n d opened after found
    obtain ⟨d₀, found₀, sends, early, log, same, -⟩ := view _ d found
    have ne : n ≠ m := by
      rintro rfl
      exact absurd ((lis.creator c n opened after).1.symm.trans held) (by simp)
    exact (com.subscribed c n d₀ opened after found₀).congr sends early log (same n ne)
  · intro n st' d held' creator found
    obtain ⟨d₀, found₀, sends, early, log, same, -⟩ := view _ d found
    rw [Table.lookup_erase_eq_ite] at held'
    split at held'
    · cases held'
    · rename_i ne
      exact (com.held n st' d₀ held' creator found₀).congr sends early log (same n ne)

/-- A runtime with a receiver is not one whose creator has yet to subscribe. -/
theorem Complete.unsubscribed_eq_false (com : Complete s) {r : Nat} {d : Delivery} {p : Nat}
    (found : s.deliveryOf r = some d) (cursor : d.cursor n = some p) : s.unsubscribed r = false := by
  cases opened : s.creating with
  | none => simp [State.unsubscribed, opened]
  | some c =>
    by_contra waiting
    simp only [State.unsubscribed, opened, Bool.and_eq_true, decide_eq_true_eq, Bool.not_eq_false,
      Option.isNone_iff_eq_none] at waiting
    obtain ⟨rfl, before⟩ := waiting
    rw [(com.spawned c d opened before found).2.2 n] at cursor
    cases cursor

/-- A task sends. -/
theorem Complete.send (com : Complete s) (r : Nat) (message : ByteMessage) :
    Complete { s with runtimes := s.runtimes.modify r (Runtime.send message (s.unsubscribed r)) } := by
  have view : ∀ r' d, ((s.runtimes.modify r (Runtime.send message (s.unsubscribed r))).lookup r').map
      Runtime.delivery = some d → ∃ rt : Runtime, s.deliveryOf r' = some rt.delivery ∧
        d = if r' = r then (rt.send message (s.unsubscribed r)).delivery else rt.delivery := by
    intro r' d found
    rw [Table.lookup_modify] at found
    cases runtime : s.runtimes.lookup r' with
    | none => rw [runtime] at found; cases found
    | some rt =>
      rw [runtime] at found
      cases found
      refine ⟨rt, by simp [State.deliveryOf, runtime], ?_⟩
      split <;> rfl
  have listening : ∀ {r' n d received missed},
      (∀ d₀, s.deliveryOf r' = some d₀ → d₀.Reads n received missed) →
      ((s.runtimes.modify r (Runtime.send message (s.unsubscribed r))).lookup r').map
        Runtime.delivery = some d → d.Reads n received missed := by
    intro r' n d received missed reads found
    obtain ⟨rt, before, rfl⟩ := view r' d found
    have here := reads rt.delivery before
    split
    · subst_vars
      obtain ⟨-, p, -, cursor, -⟩ := here
      rw [com.unsubscribed_eq_false before cursor]
      exact (reads rt.delivery before).send message
    · exact here
  constructor
  · intro c d opened before found
    obtain ⟨rt, runtime, rfl⟩ := view _ d found
    obtain ⟨empty, all, alone⟩ := com.spawned c rt.delivery opened before runtime
    split
    · rename_i same
      have waiting : s.unsubscribed r = true := by
        simp [State.unsubscribed, show s.creating = some c from opened, same, before]
      rw [waiting, Runtime.delivery_send_refused message true alone]
      refine ⟨empty, ?_, alone⟩
      change rt.sends = rt.early at all
      simp [all]
    · exact ⟨empty, all, alone⟩
  · intro c n d opened after found
    exact listening (fun d₀ before => com.subscribed c n d₀ opened after before) found
  · intro n st d held creator found
    exact listening (fun d₀ before => com.held n st d₀ held creator before) found

/-- Every step keeps the channels complete. -/
theorem Complete.step (com : Complete s) (reg : Registry s) (lis : Listening s)
    (taken : Step ring s a s') : Complete s' := by
  have same : ∀ n st, s.streams.lookup n = some st → s.streams.lookup n = some st := fun _ _ => id
  cases taken with
  | tick d => exact com.frame rfl same fun _ => rfl
  | readHit free found => exact com.share lis free _ _
  | readMiss free absent => exact com.frame rfl same fun _ => rfl
  | @writeHit key entry free found =>
    exact (com.frame (t := { s with missed := s.missed.erase key }) rfl same fun _ => rfl).share
      ⟨lis.attached, lis.creator, lis.fresh⟩ free _ _
  | @create key free absent =>
    exact (com.frame (t := { s with missed := s.missed.erase key }) rfl same fun _ => rfl).create
      reg ⟨lis.attached, lis.creator, lis.fresh⟩ _
  | subscribe open' => exact com.subscribe lis open'
  | insert open' => exact com.insert open'
  | abandon key => exact com.frame rfl same fun _ => rfl
  | poll held runtime read => exact com.poll lis held runtime read
  | drop held => exact com.drop lis held _
  | send message runtime running => exact com.send _ message
  | exit runtime running cancelled => exact com.frame rfl same (deliveryOf_modify fun _ => rfl)
  | wake asleep due => exact com.frame rfl same fun _ => rfl
  | @reap now free waiting =>
    refine com.frame rfl same fun r => ?_
    simp only [State.deliveryOf, State.reap, Table.lookup_retain]
    cases s.runtimes.lookup r with
    | none => rfl
    | some rt =>
      simp only [Option.bind_some, Option.map_some]
      split <;> rfl

theorem complete_of_reachable : (system ring).Reachable s → Complete s :=
  Lts.Reachable.invariant .init
    (fun _ _ _ reached com taken =>
      com.step (consistent_of_reachable reached).registry (consistent_of_reachable reached).listening
        (.of_step taken)) s

/-- What a stream has yielded, followed by what it yields if it reads on. -/
def Stream.yields (st : Stream) (n : Nat) (rt : Runtime) : List ByteMessage :=
  st.received ++ rt.channel.yields n (rt.channel.unread n).length

/-- A receiver that was there for all but the early messages and lost none yields all others. -/
theorem Delivery.Reads.yields {st : Stream} (reads : rt.delivery.Reads n st.received st.missed)
    (missed : st.missed = 0) (up : rt.channel.keepsUp n = true) : st.yields n rt = rt.channel.log := by
  obtain ⟨-, p, -, cursor, got⟩ := reads
  have rest : rt.channel.unread n = rt.channel.log.drop p := by
    simp only [Broadcast.unread, show rt.channel.cursors.lookup n = some p from cursor]
  rw [Stream.yields, Broadcast.yields_of_keepsUp up _ (Nat.le_refl _), got missed, rest]
  exact List.take_append_drop p rt.channel.log

/-- The stream of the call that created a runtime yields all that the runtime has sent. -/
def CreatorsYieldAll (s : State) : Prop :=
  ∀ e ∈ s.streams.entries, e.2.creator = true → ∀ rt ∈ s.runtimes.lookup e.2.runtime,
    e.2.missed = 0 → rt.channel.keepsUp e.1 = true → e.2.yields e.1 rt = rt.sends

instance (s : State) : Decidable (CreatorsYieldAll s) := by
  unfold CreatorsYieldAll; infer_instance

/-- **The first listener.** A held stream of the call that created the runtime, as long as it does
not lag, yields every message the runtime has sent exactly when the task sent none before the
call subscribed. -/
theorem creator_yields_all_iff {st : Stream} (reached : (system ring).Reachable s)
    (held : s.streams.lookup n = some st) (creator : st.creator = true)
    (runtime : s.runtimes.lookup st.runtime = some rt) (missed : st.missed = 0)
    (up : rt.channel.keepsUp n = true) : st.yields n rt = rt.sends ↔ rt.early = [] := by
  have reads := (complete_of_reachable reached).held n st rt.delivery held creator
    (by simp [State.deliveryOf, runtime])
  rw [reads.yields missed up]
  have all : rt.sends = rt.early ++ rt.channel.log := reads.1
  constructor
  · intro same
    have lengths := congrArg List.length (same.trans all)
    simp only [List.length_append] at lengths
    exact List.eq_nil_of_length_eq_zero (by omega)
  · intro none
    rw [all, none, List.nil_append]

def firstKey : CacheKey := ⟨"localhost", "topic", .RedisPubSub⟩

def firstMessage : ByteMessage := .fromValue ⟨#[104, 105]⟩

/-- The task runs after the call subscribed: its message waits in the channel. -/
theorem creator_yields_all_late : ∃ s st rt,
    (system powerOfTwo).exec init
      [.read firstKey, .write firstKey, .subscribe, .send 0 firstMessage, .insert] = some s ∧
    s.streams.lookup 0 = some st ∧ s.runtimes.lookup st.runtime = some rt ∧
    rt.sends = [firstMessage] ∧ st.yields 0 rt = rt.sends := by
  have run : ((system powerOfTwo).exec init
      [.read firstKey, .write firstKey, .subscribe, .send 0 firstMessage, .insert]).any (fun s =>
        (s.streams.lookup 0).any fun st => (s.runtimes.lookup st.runtime).any fun rt =>
          st.creator && st.missed == 0 && rt.channel.keepsUp 0 && rt.early == [] &&
            rt.sends == [firstMessage]) = true := by decide
  simp only [Option.any_eq_true, Bool.and_eq_true, beq_iff_eq] at run
  obtain ⟨s, ran, st, held, rt, runtime, ⟨⟨⟨creator, missed⟩, up⟩, early⟩, sends⟩ := run
  exact ⟨s, st, rt, ran, held, runtime, sends,
    (creator_yields_all_iff ⟨_, ran⟩ held creator runtime missed up).2 early⟩

/-- The task runs first: its message is gone, and the stream of its creator never yields it. -/
theorem creator_misses_first : ¬ ∀ s, (system powerOfTwo).Reachable s → CreatorsYieldAll s := by
  intro all
  have run : ((system powerOfTwo).exec init
      [.read firstKey, .write firstKey, .send 0 firstMessage, .subscribe, .insert]).any (fun s =>
        decide (CreatorsYieldAll s)) = false := by decide
  cases ran : (system powerOfTwo).exec init
      [.read firstKey, .write firstKey, .send 0 firstMessage, .subscribe, .insert] with
  | none => exact absurd (congrArg Option.isSome ran) (by decide)
  | some s =>
    rw [ran, Option.any_some, decide_eq_false_iff_not] at run
    exact run (all s ⟨_, ran⟩)

end PubSub.Cache
