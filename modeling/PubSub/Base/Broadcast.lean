import PubSub.Base.Table

/-!
# Broadcast channels

A broadcast channel keeps the latest `retained` messages in a ring. Every receiver has its own
cursor, the position of the next message it will read; positions count all messages ever
accepted, so the ring is the tail of `log` from `oldest` on. A send to a channel without receivers
is refused and leaves no trace in the channel. A receiver whose cursor fell behind `oldest` is told
once how many messages it missed and continues with the oldest retained one. The channel is closed
when no sender is left.
-/

namespace Base
set_option autoImplicit false

/-- A broadcast channel: its ring, one cursor for each receiver, and the number of senders. -/
structure Broadcast (α : Type*) where
  retained : Nat
  log : List α
  cursors : Table Nat Nat
  senders : Nat
  within : ∀ r p, cursors.lookup r = some p → p ≤ log.length

namespace Broadcast

variable {α : Type*}

/-- What one read of a receiver returns. -/
inductive Recv (α : Type*) where
  | ok (m : α)
  | lagged (missed : Nat)
  | empty
  | closed

/-- A fresh channel with one sender and no receiver. -/
def channel (retained : Nat) : Broadcast α where
  retained := retained
  log := []
  cursors := ∅
  senders := 1
  within := by simp

def cloneSender (c : Broadcast α) : Broadcast α := { c with senders := c.senders + 1 }

def dropSender (c : Broadcast α) : Broadcast α := { c with senders := c.senders - 1 }

/-- A new receiver reads what is sent from now on. -/
def subscribe (c : Broadcast α) (r : Nat) : Broadcast α where
  retained := c.retained
  log := c.log
  cursors := c.cursors.insert r c.log.length
  senders := c.senders
  within := by
    intro r' p found
    rw [Table.lookup_insert_eq_ite] at found
    split at found
    · cases found; exact Nat.le_refl _
    · exact c.within r' p found

def unsubscribe (c : Broadcast α) (r : Nat) : Broadcast α where
  retained := c.retained
  log := c.log
  cursors := c.cursors.erase r
  senders := c.senders
  within := by
    intro r' p found
    rw [Table.lookup_erase_eq_ite] at found
    split at found
    · cases found
    · exact c.within r' p found

def receiverCount (c : Broadcast α) : Nat := c.cursors.size

/-- Accept a message, or refuse it (`none`) when there is no receiver. -/
def send (c : Broadcast α) (m : α) : Option (Broadcast α) :=
  if c.receiverCount = 0 then none
  else some
    { c with
      log := c.log ++ [m]
      within := fun r p found => by
        have := c.within r p found
        simp only [List.length_append, List.length_singleton]
        omega }

/-- The position of the oldest message still in the ring. -/
def oldest (c : Broadcast α) : Nat := c.log.length - c.retained

theorem oldest_le (c : Broadcast α) : c.oldest ≤ c.log.length := Nat.sub_le ..

/-- Move a receiver's cursor. -/
def seek (c : Broadcast α) (r p : Nat) (le : p ≤ c.log.length) : Broadcast α where
  retained := c.retained
  log := c.log
  cursors := c.cursors.modify r fun _ => p
  senders := c.senders
  within := by
    intro r' q found
    rw [Table.lookup_modify] at found
    obtain ⟨q', found', rfl⟩ := Option.map_eq_some_iff.1 found
    split
    · exact le
    · exact c.within r' q' found'

/-- One read: the next message, the number of overwritten ones, or nothing (for now or for good). -/
def recv (c : Broadcast α) (r : Nat) : Option (Recv α × Broadcast α) :=
  match c.cursors.lookup r with
  | none => none
  | some p =>
    if p < c.oldest then
      some (.lagged (c.oldest - p), c.seek r c.oldest c.oldest_le)
    else if h : p < c.log.length then
      some (.ok c.log[p], c.seek r (p + 1) h)
    else if c.senders = 0 then some (.closed, c)
    else some (.empty, c)

/-- The messages a receiver has not read yet, overwritten ones included. -/
def unread (c : Broadcast α) (r : Nat) : List α :=
  match c.cursors.lookup r with
  | none => []
  | some p => c.log.drop p

/-- The receiver has not fallen out of the ring. -/
def keepsUp (c : Broadcast α) (r : Nat) : Bool :=
  match c.cursors.lookup r with
  | none => false
  | some p => decide (c.oldest ≤ p)

/-- The messages that `n` reads in a row yield while nothing else happens. -/
def yields (c : Broadcast α) (r : Nat) : Nat → List α
  | 0 => []
  | n + 1 =>
    match c.recv r with
    | some (.ok m, c') => m :: c'.yields r n
    | some (.lagged _, c') => c'.yields r n
    | _ => []

variable {c c' : Broadcast α} {r r' : Nat} {m : α}

@[simp] theorem channel_log (n : Nat) : (channel n : Broadcast α).log = [] := rfl
@[simp] theorem channel_cursors (n : Nat) : (channel n : Broadcast α).cursors = ∅ := rfl
@[simp] theorem channel_senders (n : Nat) : (channel n : Broadcast α).senders = 1 := rfl
@[simp] theorem cloneSender_log (c : Broadcast α) : c.cloneSender.log = c.log := rfl
@[simp] theorem cloneSender_cursors (c : Broadcast α) : c.cloneSender.cursors = c.cursors := rfl
@[simp] theorem cloneSender_senders (c : Broadcast α) : c.cloneSender.senders = c.senders + 1 := rfl
@[simp] theorem dropSender_log (c : Broadcast α) : c.dropSender.log = c.log := rfl
@[simp] theorem dropSender_cursors (c : Broadcast α) : c.dropSender.cursors = c.cursors := rfl
@[simp] theorem dropSender_senders (c : Broadcast α) : c.dropSender.senders = c.senders - 1 := rfl
@[simp] theorem subscribe_log (c : Broadcast α) (r : Nat) : (c.subscribe r).log = c.log := rfl
@[simp] theorem subscribe_senders (c : Broadcast α) (r : Nat) :
    (c.subscribe r).senders = c.senders := rfl
@[simp] theorem subscribe_cursors (c : Broadcast α) (r : Nat) :
    (c.subscribe r).cursors = c.cursors.insert r c.log.length := rfl
@[simp] theorem unsubscribe_log (c : Broadcast α) (r : Nat) : (c.unsubscribe r).log = c.log := rfl
@[simp] theorem unsubscribe_senders (c : Broadcast α) (r : Nat) :
    (c.unsubscribe r).senders = c.senders := rfl
@[simp] theorem unsubscribe_cursors (c : Broadcast α) (r : Nat) :
    (c.unsubscribe r).cursors = c.cursors.erase r := rfl
@[simp] theorem seek_log (c : Broadcast α) (r p : Nat) (le) : (c.seek r p le).log = c.log := rfl
@[simp] theorem seek_senders (c : Broadcast α) (r p : Nat) (le) :
    (c.seek r p le).senders = c.senders := rfl
@[simp] theorem seek_cursors (c : Broadcast α) (r p : Nat) (le) :
    (c.seek r p le).cursors = c.cursors.modify r fun _ => p := rfl

theorem receiverCount_pos_iff : 0 < c.receiverCount ↔ ∃ r p, c.cursors.lookup r = some p :=
  Table.size_pos_iff

/-- A send is refused exactly when there is no receiver. -/
theorem send_eq_none_iff : c.send m = none ↔ c.receiverCount = 0 := by
  unfold send
  split <;> simp_all

/-- An accepted message goes to the end of the log and moves no receiver. -/
theorem send_eq_some (sent : c.send m = some c') :
    0 < c.receiverCount ∧ c'.log = c.log ++ [m] ∧ c'.cursors = c.cursors ∧
      c'.senders = c.senders ∧ c'.retained = c.retained := by
  unfold send at sent
  split at sent
  · cases sent
  · cases sent
    exact ⟨by omega, rfl, rfl, rfl, rfl⟩

/-- Everything a read can do: it changes nothing but the reader's cursor, and a message it
returns is the one at the cursor. -/
theorem recv_cases {out : Recv α} (read : c.recv r = some (out, c')) :
    ∃ p, c.cursors.lookup r = some p ∧
      ((p < c.oldest ∧ out = .lagged (c.oldest - p) ∧ c' = c.seek r c.oldest c.oldest_le) ∨
        (∃ h : p < c.log.length, c.oldest ≤ p ∧ out = .ok c.log[p] ∧ c' = c.seek r (p + 1) h) ∨
        (c.log.length ≤ p ∧ out = .closed ∧ c' = c ∧ c.senders = 0) ∨
        (c.log.length ≤ p ∧ out = .empty ∧ c' = c ∧ c.senders ≠ 0)) := by
  unfold recv at read
  split at read
  · cases read
  · rename_i p found
    refine ⟨p, found, ?_⟩
    split at read
    · rename_i behind
      cases read; exact .inl ⟨behind, rfl, rfl⟩
    · rename_i reached
      split at read
      · rename_i waiting
        cases read; exact .inr (.inl ⟨waiting, by omega, rfl, rfl⟩)
      · rename_i caught
        split at read
        · rename_i gone
          cases read; exact .inr (.inr (.inl ⟨by omega, rfl, rfl, gone⟩))
        · rename_i alive
          cases read; exact .inr (.inr (.inr ⟨by omega, rfl, rfl, alive⟩))

/-- A message that a read returns is the one at the cursor, which moves on. -/
theorem recv_ok (read : c.recv r = some (.ok m, c')) :
    ∃ p, c.cursors.lookup r = some p ∧ ∃ h : p < c.log.length,
      c.oldest ≤ p ∧ m = c.log[p] ∧ c' = c.seek r (p + 1) h := by
  obtain ⟨p, found, ⟨_, out, _⟩ | ⟨h, reached, out, moved⟩ | ⟨_, out, _⟩ | ⟨_, out, _⟩⟩ := recv_cases read
  · cases out
  · cases out
    exact ⟨p, found, h, reached, rfl, moved⟩
  · cases out
  · cases out

/-- A receiver learns that the channel is closed only when no sender is left. -/
theorem senders_of_recv_closed (read : c.recv r = some (.closed, c')) : c.senders = 0 := by
  obtain ⟨p, found, ⟨_, out, _⟩ | ⟨_, _, out, _⟩ | ⟨_, _, _, gone⟩ | ⟨_, out, _⟩⟩ := recv_cases read
  · cases out
  · cases out
  · exact gone
  · cases out

/-- Reads keep the log and the senders, and every other receiver. -/
theorem recv_frame {out : Recv α} (read : c.recv r = some (out, c')) :
    c'.log = c.log ∧ c'.senders = c.senders ∧
      ∀ r', (c'.cursors.lookup r').isSome = (c.cursors.lookup r').isSome ∧
        (r' ≠ r → c'.cursors.lookup r' = c.cursors.lookup r') := by
  have moved : ∀ q le, (c.seek r q le).log = c.log ∧ (c.seek r q le).senders = c.senders ∧
      ∀ r', ((c.seek r q le).cursors.lookup r').isSome = (c.cursors.lookup r').isSome ∧
        (r' ≠ r → (c.seek r q le).cursors.lookup r' = c.cursors.lookup r') := by
    intro q le
    refine ⟨rfl, rfl, fun r' => ⟨by simp, fun other => ?_⟩⟩
    simp [other]
  obtain ⟨p, -, ⟨-, -, rfl⟩ | ⟨h, -, -, rfl⟩ | ⟨-, -, rfl, -⟩ | ⟨-, -, rfl, -⟩⟩ := recv_cases read
  · exact moved _ _
  · exact moved _ _
  · exact ⟨rfl, rfl, fun _ => ⟨rfl, fun _ => rfl⟩⟩
  · exact ⟨rfl, rfl, fun _ => ⟨rfl, fun _ => rfl⟩⟩

theorem recv_retained {out : Recv α} (read : c.recv r = some (out, c')) : c'.retained = c.retained := by
  obtain ⟨p, -, ⟨-, -, rfl⟩ | ⟨h, -, -, rfl⟩ | ⟨-, -, rfl, -⟩ | ⟨-, -, rfl, -⟩⟩ := recv_cases read <;> rfl

/-- A receiver that keeps up gets, by reading on, exactly what it has not read yet. -/
theorem yields_of_keepsUp (up : c.keepsUp r = true) :
    ∀ n, (c.unread r).length ≤ n → c.yields r n = c.unread r := by
  intro n
  induction n generalizing c with
  | zero =>
    intro none
    rw [List.eq_nil_of_length_eq_zero (by omega : (c.unread r).length = 0)]
    rfl
  | succ n ih =>
    unfold keepsUp at up
    split at up
    · cases up
    · rename_i p found
      have reached : c.oldest ≤ p := of_decide_eq_true up
      have rest : c.unread r = c.log.drop p := by simp only [unread, found]
      intro bound
      rw [rest] at bound ⊢
      by_cases waiting : p < c.log.length
      · have read : c.recv r = some (.ok c.log[p], c.seek r (p + 1) waiting) := by
          simp [recv, found, waiting, Nat.not_lt.2 reached]
        have next : (c.seek r (p + 1) waiting).cursors.lookup r = some (p + 1) := by simp [found]
        have left : (c.seek r (p + 1) waiting).unread r = c.log.drop (p + 1) := by
          simp only [unread, next, seek_log]
        have still : (c.seek r (p + 1) waiting).keepsUp r = true := by
          simp only [keepsUp, next, decide_eq_true_eq]
          exact Nat.le_succ_of_le reached
        simp only [yields, read]
        rw [ih still (by rw [left]; simp only [List.length_drop] at bound ⊢; omega), left,
          List.drop_eq_getElem_cons waiting]
      · have caught : c.log.drop p = [] := List.drop_eq_nil_of_le (by omega)
        have idle : c.recv r = some (.closed, c) ∨ c.recv r = some (.empty, c) := by
          by_cases gone : c.senders = 0 <;> simp [recv, found, waiting, Nat.not_lt.2 reached, gone]
        rw [caught]
        rcases idle with read | read <;> simp only [yields, read]

end Broadcast

end Base
