import Mathlib.Order.WithBot
import Mathlib.Data.List.Basic

/-!
# Append-only logs with increasing ids

A log in which every entry gets a greater id than all before it, and which may lose its oldest
entries. A reader asks for what comes after a point: an id, or the end of the log as it is now
(`lastId`, `⊥` for a log that never had an entry).
-/

namespace Base
set_option autoImplicit false

/-- All entries ever appended, and how many of them are gone. -/
structure StreamLog (I α : Type*) [LinearOrder I] where
  appended : List (I × α)
  trimmed : Nat
  sorted : (appended.map Prod.fst).Pairwise (· < ·)
  within : trimmed ≤ appended.length

namespace StreamLog

variable {I α : Type*} [LinearOrder I]

def empty : StreamLog I α := ⟨[], 0, .nil, Nat.le_refl _⟩

/-- The entries still there. -/
def retained (log : StreamLog I α) : List (I × α) := log.appended.drop log.trimmed

/-- The id of the last entry ever appended. -/
def lastId (log : StreamLog I α) : WithBot I :=
  match log.appended.getLast? with
  | some e => e.1
  | none => ⊥

/-- The retained entries after a point. -/
def after (log : StreamLog I α) (t : WithBot I) : List (I × α) :=
  log.retained.filter fun e => t < e.1

theorem le_lastId (log : StreamLog I α) {e : I × α} (here : e ∈ log.appended) :
    (e.1 : WithBot I) ≤ log.lastId := by
  have sorted := log.sorted
  unfold lastId
  obtain none | ⟨init, last, split⟩ := List.eq_nil_or_concat' log.appended
  · rw [none] at here
    cases here
  · rw [split] at here sorted ⊢
    rw [List.getLast?_concat]
    rw [List.map_append, List.pairwise_append] at sorted
    rcases List.mem_append.1 here with before | same
    · exact WithBot.coe_le_coe.2 (le_of_lt (sorted.2.2 _ (List.mem_map_of_mem before) _ (by simp)))
    · rw [List.mem_singleton.1 same]

/-- Append an entry with an id above all others. -/
def append (log : StreamLog I α) (id : I) (a : α) (newer : log.lastId < id) : StreamLog I α where
  appended := log.appended ++ [(id, a)]
  trimmed := log.trimmed
  sorted := by
    rw [List.map_append, List.pairwise_append]
    refine ⟨log.sorted, List.pairwise_singleton _ _, fun i before j same => ?_⟩
    obtain ⟨e, here, rfl⟩ := List.mem_map.1 before
    rw [List.map_singleton, List.mem_singleton] at same
    subst same
    exact WithBot.coe_lt_coe.1 (lt_of_le_of_lt (log.le_lastId here) newer)
  within := by
    have := log.within
    rw [List.length_append]
    omega

/-- Lose the oldest entries, up to the `n`-th ever appended. -/
def trim (log : StreamLog I α) (n : Nat) : StreamLog I α where
  appended := log.appended
  trimmed := max log.trimmed (min n log.appended.length)
  sorted := log.sorted
  within := Nat.max_le.2 ⟨log.within, Nat.min_le_right ..⟩

variable {log : StreamLog I α} {t : WithBot I} {e : I × α} {id : I} {a : α} {newer : log.lastId < id}

theorem mem_after : e ∈ log.after t ↔ e ∈ log.retained ∧ t < e.1 := by
  simp only [after, List.mem_filter, decide_eq_true_eq]

theorem appended_of_retained (here : e ∈ log.retained) : e ∈ log.appended := List.mem_of_mem_drop here

/-- Nothing comes after the end. -/
theorem after_lastId (log : StreamLog I α) : log.after log.lastId = [] := by
  rw [after, List.filter_eq_nil_iff]
  intro e here
  rw [decide_eq_true_eq]
  exact not_lt_of_ge (log.le_lastId (appended_of_retained here))

/-- What a reader gets comes in increasing order. -/
theorem after_sorted (log : StreamLog I α) (t : WithBot I) : ((log.after t).map Prod.fst).Pairwise (· < ·) :=
  log.sorted.sublist ((List.filter_sublist.trans (List.drop_sublist _ _)).map Prod.fst)

/-- The last entry a reader gets is the greatest. -/
theorem after_le_last {last : I × α} (final : (log.after t).getLast? = some last) :
    ∀ e ∈ log.after t, e.1 ≤ last.1 := by
  intro e here
  have sorted := log.after_sorted t
  obtain ⟨init, split⟩ := List.getLast?_eq_some_iff.1 final
  rw [split] at here sorted
  rw [List.map_append, List.pairwise_append] at sorted
  rcases List.mem_append.1 here with before | same
  · exact le_of_lt (sorted.2.2 _ (List.mem_map_of_mem before) _ (by simp))
  · rw [List.mem_singleton.1 same]

@[simp] theorem lastId_append : (log.append id a newer).lastId = id := by
  simp [lastId, append]

/-- The entries since the `n`-th are those before, and perhaps the new one. -/
theorem mem_drop_append {n : Nat} (here : e ∈ (log.append id a newer).appended.drop n) :
    e ∈ log.appended.drop n ∨ e = (id, a) := by
  rw [append, List.drop_append, List.mem_append] at here
  exact here.imp_right fun new => List.mem_singleton.1 (List.mem_of_mem_drop new)

theorem mem_retained_append (newer : log.lastId < id) (here : e ∈ (log.append id a newer).retained) :
    e ∈ log.retained ∨ e = (id, a) :=
  mem_drop_append here

@[simp] theorem lastId_trim (n : Nat) : (log.trim n).lastId = log.lastId := rfl

@[simp] theorem appended_trim (n : Nat) : (log.trim n).appended = log.appended := rfl

/-- Trimming retains nothing new. -/
theorem trimmed_le_trim (log : StreamLog I α) (n : Nat) : log.trimmed ≤ (log.trim n).trimmed := Nat.le_max_left ..

end StreamLog

end Base
