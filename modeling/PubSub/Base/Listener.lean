import Mathlib.Data.List.Forall2
import Mathlib.Data.List.Induction
import Mathlib.Data.List.Sort
import PubSub.Base.Broadcast

/-!
# One receiver of a ring by itself

What a receiver of a ring is given depends on what is sent after it subscribed and on when it reads
in between, and on nothing else. A `Listener` replays these signals. Positions count the messages
sent since the subscription. A position is missed exactly if it was overwritten before it was read
(`missed_iff`), and a receiver that never falls behind by more than the ring holds reads them all.
-/

namespace Base
set_option autoImplicit false

/-- What a receiver notices: a message is sent, or it reads itself. -/
inductive Signal (α : Type*) where
  | sent (m : α)
  | read

/-- The messages among some signals. -/
def messages {α : Type*} (signals : List (Signal α)) : List α :=
  signals.filterMap fun | .sent m => some m | .read => none

/-- The messages sent since the subscription, the position to be read next, and the positions
that were read. -/
structure Listener (α : Type*) where
  sent : List α
  cursor : Nat
  got : List Nat
  within : cursor ≤ sent.length
  sorted : got.Pairwise (· < ·)
  below : ∀ p ∈ got, p < cursor

namespace Listener

variable {α : Type*}

def start : Listener α := ⟨[], 0, [], Nat.zero_le _, .nil, fun _ here => (List.not_mem_nil here).elim⟩

/-- The oldest position in the ring. -/
def oldest (retained : Nat) (l : Listener α) : Nat := l.sent.length - retained

theorem oldest_le (retained : Nat) (l : Listener α) : l.oldest retained ≤ l.sent.length := Nat.sub_le ..

/-- A read that finds its position overwritten only moves on to the oldest one. -/
def observe (retained : Nat) (l : Listener α) : Signal α → Listener α
  | .sent m =>
    { l with
      sent := l.sent ++ [m]
      within := by
        have := l.within
        simp only [List.length_append, List.length_singleton]
        omega }
  | .read =>
    if behind : l.cursor < l.oldest retained then
      { l with
        cursor := l.oldest retained
        within := l.oldest_le retained
        below := fun p here => Nat.lt_trans (l.below p here) behind }
    else if waiting : l.cursor < l.sent.length then
      { l with
        cursor := l.cursor + 1
        got := l.got ++ [l.cursor]
        within := waiting
        sorted := List.pairwise_append.2 ⟨l.sorted, List.pairwise_singleton _ _, fun p here q last => by
          rw [List.mem_singleton.1 last]
          exact l.below p here⟩
        below := fun p here => by
          rcases List.mem_append.1 here with old | last
          · exact Nat.lt_succ_of_lt (l.below p old)
          · rw [List.mem_singleton.1 last]
            exact Nat.lt_succ_self _ }
    else l

/-- A receiver after some signals. -/
def listen (retained : Nat) (signals : List (Signal α)) : Listener α := signals.foldl (observe retained) start

def received (l : Listener α) : List α := l.got.filterMap (l.sent[·]?)

/-- The message that a read returns. -/
def heard (retained : Nat) (l : Listener α) : Option α :=
  if l.oldest retained ≤ l.cursor then l.sent[l.cursor]? else none

/-- How many messages it has not read, overwritten ones included. -/
def behind (l : Listener α) : Nat := l.sent.length - l.cursor

/-- The position has left the ring and was not read. -/
def Overwritten (retained : Nat) (l : Listener α) (p : Nat) : Prop := l.cursor ≤ p ∧ p < l.oldest retained

/-- The position was not read, and does not wait to be. -/
def Missed (retained : Nat) (l : Listener α) (p : Nat) : Prop :=
  p ∉ l.got ∧ (p < l.cursor ∨ p < l.oldest retained)

variable {retained p : Nat} {l : Listener α} {m : α} {signals : List (Signal α)}

/-- Everything a read can do. -/
theorem observe_read (retained : Nat) (l : Listener α) :
    (l.observe retained .read).sent = l.sent ∧
      ((l.cursor < l.oldest retained ∧ (l.observe retained .read).cursor = l.oldest retained ∧
          (l.observe retained .read).got = l.got) ∨
        (l.oldest retained ≤ l.cursor ∧ l.cursor < l.sent.length ∧
          (l.observe retained .read).cursor = l.cursor + 1 ∧
          (l.observe retained .read).got = l.got ++ [l.cursor]) ∨
        (l.oldest retained ≤ l.cursor ∧ l.sent.length ≤ l.cursor ∧ l.observe retained .read = l)) := by
  by_cases behind : l.cursor < l.oldest retained
  · refine ⟨?_, .inl ⟨behind, ?_, ?_⟩⟩ <;> simp [observe, behind]
  · by_cases waiting : l.cursor < l.sent.length
    · refine ⟨?_, .inr (.inl ⟨by omega, waiting, ?_, ?_⟩)⟩ <;> simp [observe, behind, waiting]
    · have idle : l.observe retained .read = l := by simp [observe, behind, waiting]
      exact ⟨by rw [idle], .inr (.inr ⟨by omega, by omega, idle⟩)⟩

theorem listen_snoc (retained : Nat) (signals : List (Signal α)) (signal : Signal α) :
    listen retained (signals ++ [signal]) = (listen retained signals).observe retained signal := by
  rw [listen, List.foldl_append]
  rfl

theorem sent_listen (retained : Nat) (signals : List (Signal α)) :
    (listen retained signals).sent = messages signals := by
  induction signals using List.reverseRecOn with
  | nil => rfl
  | append_singleton signals signal ih =>
    rw [listen_snoc, messages, List.filterMap_append, ← messages, ← ih]
    cases signal with
    | sent m => rfl
    | read => exact (observe_read _ _).1.trans (List.append_nil _).symm

/-- A message can be overwritten only when the receiver is further behind than the ring holds. -/
theorem lt_behind_of_overwritten (overwritten : l.Overwritten retained p) : retained < l.behind := by
  obtain ⟨unread, gone⟩ := overwritten
  unfold oldest at gone
  unfold behind
  omega

/-- One signal: what is missed after it was missed before, or is overwritten by it. -/
theorem missed_observe (signal : Signal α) : (l.observe retained signal).Missed retained p ↔
    l.Missed retained p ∨ (l.observe retained signal).Overwritten retained p := by
  have below := l.below p
  cases signal with
  | sent m =>
    simp only [Missed, Overwritten, oldest, observe, List.length_append, List.length_singleton]
    constructor
    · rintro ⟨unread, past⟩
      by_cases before : p < l.cursor ∨ p < l.sent.length - retained
      · exact .inl ⟨unread, before⟩
      · exact .inr ⟨by omega, by omega⟩
    · rintro (⟨unread, past⟩ | ⟨unread, gone⟩)
      · exact ⟨unread, by omega⟩
      · refine ⟨fun read => ?_, .inr gone⟩
        have := below read
        omega
  | read =>
    obtain ⟨sent, ⟨lag, cursor, got⟩ | ⟨reached, waiting, cursor, got⟩ | ⟨reached, -, idle⟩⟩ :=
      observe_read retained l
    · simp only [Missed, Overwritten, oldest, sent, cursor, got] at lag ⊢
      constructor
      · rintro ⟨unread, past⟩
        exact .inl ⟨unread, by omega⟩
      · rintro (⟨unread, past⟩ | ⟨unread, gone⟩)
        · exact ⟨unread, by omega⟩
        · omega
    · simp only [Missed, Overwritten, oldest, sent, cursor, got, List.mem_append, List.mem_singleton,
        not_or] at reached ⊢
      constructor
      · rintro ⟨⟨unread, other⟩, past⟩
        exact .inl ⟨unread, by omega⟩
      · rintro (⟨unread, past⟩ | ⟨unread, gone⟩)
        · exact ⟨⟨unread, by omega⟩, by omega⟩
        · omega
    · rw [idle]
      refine ⟨.inl, fun either => either.elim id fun overwritten => ?_⟩
      obtain ⟨unread, gone⟩ := overwritten
      omega

/-- **What is missed** was overwritten unread at some moment. -/
theorem missed_iff : (listen retained signals).Missed retained p ↔
    ∃ early late, signals = early ++ late ∧ (listen retained early).Overwritten retained p := by
  induction signals using List.reverseRecOn with
  | nil =>
    constructor
    · rintro ⟨-, past⟩
      simp [listen, start, oldest] at past
    · rintro ⟨early, late, split, -, gone⟩
      obtain ⟨rfl, rfl⟩ := List.append_eq_nil_iff.1 split.symm
      simp [listen, start, oldest] at gone
  | append_singleton signals signal ih =>
    rw [listen_snoc, missed_observe, ih, ← listen_snoc]
    constructor
    · rintro (⟨early, late, rfl, overwritten⟩ | overwritten)
      · exact ⟨early, late ++ [signal], by rw [List.append_assoc], overwritten⟩
      · exact ⟨signals ++ [signal], [], by rw [List.append_nil], overwritten⟩
    · rintro ⟨early, late, split, overwritten⟩
      obtain rfl | ⟨late, last, rfl⟩ := List.eq_nil_or_concat' late
      · rw [List.append_nil] at split
        exact .inr (split ▸ overwritten)
      · rw [← List.append_assoc] at split
        obtain ⟨rfl, -⟩ := List.append_inj' split rfl
        exact .inl ⟨early, late, rfl, overwritten⟩

/-- Without a gap, the positions read are all up to the cursor. -/
theorem got_eq_range (l : Listener α) (all : ∀ p < l.cursor, p ∈ l.got) : l.got = List.range l.cursor := by
  apply l.sorted.eq_of_mem_iff List.pairwise_lt_range
  intro p
  rw [List.mem_range]
  exact ⟨l.below p, all p⟩

/-- A read that is not too late leaves no gap. -/
theorem got_observe_read_eq_range (all : l.got = List.range l.cursor) (close : l.behind ≤ retained) :
    (l.observe retained .read).got = List.range (l.observe retained .read).cursor := by
  obtain ⟨-, ⟨lag, -, -⟩ | ⟨-, -, cursor, got⟩ | ⟨-, -, idle⟩⟩ := observe_read retained l
  · unfold oldest at lag
    unfold behind at close
    omega
  · rw [got, cursor, all, List.range_succ]
  · rw [idle, all]

/-- A receiver that was never further behind than the ring holds has read all up to its cursor. -/
theorem received_of_behind_le
    (close : ∀ early late, signals = early ++ late → (listen retained early).behind ≤ retained) :
    (listen retained signals).received = (listen retained signals).sent.take (listen retained signals).cursor := by
  have all : ∀ p < (listen retained signals).cursor, p ∈ (listen retained signals).got := by
    intro p below
    by_contra unread
    obtain ⟨early, late, split, overwritten⟩ := missed_iff.1 ⟨unread, .inl below⟩
    have := lt_behind_of_overwritten overwritten
    have := close early late split
    omega
  rw [received, got_eq_range _ all]
  have within := (listen retained signals).within
  generalize (listen retained signals).cursor = c at within ⊢
  generalize (listen retained signals).sent = sent at within ⊢
  induction c with
  | zero => rfl
  | succ c ih =>
    rw [List.range_succ, List.filterMap_append, ih (Nat.le_of_succ_le within), List.take_add_one]
    rfl

/-- What stands at increasing positions of a list is a part of it, in order. -/
theorem filterMap_getElem?_sublist (sent : List α) {ps : List Nat} (sorted : ps.Pairwise (· < ·)) :
    (ps.filterMap (sent[·]?)).Sublist sent := by
  have walk : ∀ (ps : List Nat) (k : Nat), ps.Pairwise (· < ·) → (∀ p ∈ ps, k ≤ p) →
      (ps.filterMap (sent[·]?)).Sublist (sent.drop k) := by
    intro ps
    induction ps with
    | nil => exact fun k _ _ => List.nil_sublist _
    | cons p ps ih =>
      intro k sorted from'
      obtain ⟨later, others⟩ := List.pairwise_cons.1 sorted
      have first : k ≤ p := from' p List.mem_cons_self
      by_cases inside : p < sent.length
      · have rest := ih (p + 1) others later
        have here : (p :: ps).filterMap (sent[·]?) = sent[p] :: ps.filterMap (sent[·]?) :=
          List.filterMap_cons_some (List.getElem?_eq_getElem inside)
        rw [here]
        refine List.Sublist.trans ?_ (List.drop_sublist_drop_left sent first)
        rw [List.drop_eq_getElem_cons inside]
        exact rest.cons_cons _
      · rw [List.filterMap_cons_none (List.getElem?_eq_none (Nat.le_of_not_lt inside))]
        exact ih k others fun q listed => from' q (List.mem_cons_of_mem _ listed)
  exact walk ps 0 sorted fun _ _ => Nat.zero_le _

theorem sublistForall₂_of_sublist {β : Type*} {R : α → β → Prop} {as as' : List α} {bs : List β} (part : as.Sublist as')
    (all : List.Forall₂ R as' bs) : List.SublistForall₂ R as bs := by
  induction all generalizing as with
  | nil =>
    rw [List.sublist_nil.1 part]
    exact .nil
  | cons first _ ih =>
    cases part with
    | cons _ part => exact .cons_right (ih part)
    | cons_cons _ part => exact .cons first (ih part)

/-- Whatever the sent messages stand for, a receiver gets in the order in which it was sent, and nothing
else. -/
theorem received_sublistForall₂ {β : Type*} {R : α → β → Prop} {bs : List β} (retained : Nat)
    (all : List.Forall₂ R (messages signals) bs) : List.SublistForall₂ R (listen retained signals).received bs := by
  rw [← sent_listen retained] at all
  exact sublistForall₂_of_sublist (filterMap_getElem?_sublist _ (listen retained signals).sorted) all

/-- Sends change nothing in what was received. -/
theorem received_observe_sent (m : α) : (l.observe retained (.sent m)).received = l.received := by
  apply List.filterMap_congr
  intro p here
  have := l.below p here
  have := l.within
  exact List.getElem?_append_left (by omega)

theorem received_observe_read (l : Listener α) :
    (l.observe retained .read).received = l.received ++ (l.heard retained).toList := by
  obtain ⟨sent, ⟨lag, -, got⟩ | ⟨reached, waiting, -, got⟩ | ⟨reached, caught, idle⟩⟩ := observe_read retained l
  · rw [received, sent, got, heard, if_neg (by omega), Option.toList_none, List.append_nil]
    rfl
  · rw [received, sent, got, List.filterMap_append, heard, if_pos reached]
    simp [received, waiting]
  · rw [idle, heard, if_pos reached, List.getElem?_eq_none caught, Option.toList_none, List.append_nil]

end Listener

namespace Broadcast

variable {α : Type*} {c c' : Broadcast α} {r : Nat} {base : List α} {l : Listener α} {out : Recv α}

/-- The message of a read. -/
def Recv.message : Recv α → Option α
  | .ok m => some m
  | .lagged _ | .empty | .closed => none

/-- A receiver that subscribed when the log was `base` reads like the listener. -/
theorem recv_listener (log : c.log = base ++ l.sent) (cursor : c.cursors.lookup r = some (base.length + l.cursor))
    (read : c.recv r = some (out, c')) :
    out.message = l.heard c.retained ∧
      c'.cursors.lookup r = some (base.length + (l.observe c.retained .read).cursor) := by
  have length : c.log.length = base.length + l.sent.length := by rw [log, List.length_append]
  have oldest : c.oldest = base.length + l.sent.length - c.retained := by rw [Broadcast.oldest, length]
  obtain ⟨p, found, steps⟩ := recv_cases read
  obtain rfl := Option.some.inj (cursor.symm.trans found)
  have idle : c.log.length ≤ base.length + l.cursor → l.heard c.retained = none ∧
      (l.observe c.retained .read).cursor = l.cursor := by
    intro caught
    have lag : ¬ l.cursor < l.oldest c.retained := by unfold Listener.oldest; omega
    have none : ¬ l.cursor < l.sent.length := by omega
    constructor
    · rw [Listener.heard, if_pos (by omega), List.getElem?_eq_none (by omega)]
    · simp [Listener.observe, lag, none]
  rcases steps with ⟨behind, rfl, rfl⟩ | ⟨waiting, reached, rfl, rfl⟩ | ⟨caught, rfl, rfl, -⟩ | ⟨caught, rfl, rfl, -⟩
  · have lag : l.cursor < l.oldest c.retained := by unfold Listener.oldest; omega
    have moved : c.oldest = base.length + l.oldest c.retained := by unfold Listener.oldest; omega
    refine ⟨?_, ?_⟩
    · rw [Listener.heard, if_neg (by omega)]
      rfl
    · simp [Listener.observe, lag, found, moved]
  · have lag : ¬ l.cursor < l.oldest c.retained := by unfold Listener.oldest; omega
    have some : l.cursor < l.sent.length := by omega
    refine ⟨?_, ?_⟩
    · rw [Listener.heard, if_pos (by omega), List.getElem?_eq_getElem some]
      simp [Recv.message, log]
    · simp [Listener.observe, lag, some, found, Nat.add_assoc]
  · obtain ⟨silent, same⟩ := idle caught
    exact ⟨silent.symm, by rw [same, found]⟩
  · obtain ⟨silent, same⟩ := idle caught
    exact ⟨silent.symm, by rw [same, found]⟩

end Broadcast

end Base
