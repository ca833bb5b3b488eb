import Mathlib.Data.List.Nodup

/-!
# Members in key order

Association lists that are kept in increasing key order, as ordered maps are. An insertion replaces
the member with its key; after any number of insertions every key is bound to the last value
inserted under it.
-/

namespace Base.Members
set_option autoImplicit false

/-! ## Lists in parallel, and last elements -/

section Last

variable {α β : Type*}

theorem exists_of_mem_left {R : α → β → Prop} {xs : List α} {ys : List β} (parallel : List.Forall₂ R xs ys) {x : α}
    (here : x ∈ xs) : ∃ y ∈ ys, R x y := by
  induction parallel with
  | nil => exact absurd here List.not_mem_nil
  | cons related _ ih =>
    rcases List.mem_cons.1 here with rfl | later
    · exact ⟨_, List.mem_cons_self, related⟩
    · obtain ⟨y, member, related⟩ := ih later
      exact ⟨y, List.mem_cons_of_mem _ member, related⟩

theorem exists_of_mem_right {R : α → β → Prop} {xs : List α} {ys : List β} (parallel : List.Forall₂ R xs ys) {y : β}
    (here : y ∈ ys) : ∃ x ∈ xs, R x y := exists_of_mem_left parallel.flip here

/-- A partner for each element makes a list in parallel. -/
theorem exists_forall₂ {R : α → β → Prop} {xs : List α} (partner : ∀ x ∈ xs, ∃ y, R x y) :
    ∃ ys, List.Forall₂ R xs ys := by
  induction xs with
  | nil => exact ⟨[], .nil⟩
  | cons x xs ih =>
    obtain ⟨y, related⟩ := partner x List.mem_cons_self
    obtain ⟨ys, rest⟩ := ih fun x' here => partner x' (List.mem_cons_of_mem x here)
    exact ⟨y :: ys, .cons related rest⟩

/-- Some element meets `P`, and no later one meets `Q`. -/
def Last (P Q : α → Prop) (xs : List α) : Prop :=
  ∃ before x after, xs = before ++ x :: after ∧ P x ∧ ∀ y ∈ after, ¬ Q y

theorem not_last_nil {P Q : α → Prop} : ¬ Last P Q [] := by
  rintro ⟨before, x, after, split, -⟩
  exact List.append_ne_nil_of_right_ne_nil before (List.cons_ne_nil x after) split.symm

theorem last_cons {P Q : α → Prop} {x : α} {xs : List α} :
    Last P Q (x :: xs) ↔ Last P Q xs ∨ P x ∧ ∀ y ∈ xs, ¬ Q y := by
  constructor
  · rintro ⟨before, y, after, split, meets, none⟩
    cases before with
    | nil =>
      obtain ⟨rfl, rfl⟩ := List.cons.inj split
      exact .inr ⟨meets, none⟩
    | cons first before =>
      obtain ⟨-, rfl⟩ := List.cons.inj split
      exact .inl ⟨before, y, after, rfl, meets, none⟩
  · rintro (⟨before, y, after, rfl, meets, none⟩ | ⟨meets, none⟩)
    · exact ⟨x :: before, y, after, rfl, meets, none⟩
    · exact ⟨[], x, xs, rfl, meets, none⟩

/-- Lists that run in parallel have their last elements at the same place. -/
theorem last_iff_of_forall₂ {R : α → β → Prop} {P Q : α → Prop} {P' Q' : β → Prop} {xs : List α} {ys : List β}
    (parallel : List.Forall₂ R xs ys) (agree : ∀ x y, R x y → (P x ↔ P' y) ∧ (Q x ↔ Q' y)) :
    Last P Q xs ↔ Last P' Q' ys := by
  have none : ∀ {xs ys}, List.Forall₂ R xs ys → ((∀ x ∈ xs, ¬ Q x) ↔ ∀ y ∈ ys, ¬ Q' y) := by
    intro xs ys parallel
    induction parallel with
    | nil => simp
    | cons related _ ih => rw [List.forall_mem_cons, List.forall_mem_cons, ih, (agree _ _ related).2]
  induction parallel with
  | nil => exact iff_of_false not_last_nil not_last_nil
  | cons related rest ih =>
    rw [last_cons, last_cons]
    exact or_congr ih (and_congr (agree _ _ related).1 (none rest))

end Last

/-! ## Members -/

variable {K V : Type*}

/-- The keys increase, so no two members share one. -/
def Sorted [LT K] (members : List (K × V)) : Prop := (members.map Prod.fst).Pairwise (· < ·)

/-- No later pair has the key of this one. -/
def IsLast (p : K × V) (ps : List (K × V)) : Prop := Last (· = p) (fun q => q.1 = p.1) ps

theorem isLast_cons {p q : K × V} {ps : List (K × V)} :
    IsLast p (q :: ps) ↔ IsLast p ps ∨ p = q ∧ p.1 ∉ ps.map Prod.fst := by
  rw [IsLast, last_cons, eq_comm, List.mem_map, not_exists]
  refine or_congr_right (and_congr_right fun _ => forall_congr' fun r => ?_)
  exact not_and.symm

theorem IsLast.mem {p : K × V} {ps : List (K × V)} (last : IsLast p ps) : p ∈ ps := by
  obtain ⟨before, q, after, rfl, rfl, -⟩ := last
  exact List.mem_append_right before List.mem_cons_self

/-- Every key has a last pair. -/
theorem exists_isLast {k : K} {ps : List (K × V)} (here : k ∈ ps.map Prod.fst) : ∃ v, IsLast (k, v) ps := by
  induction ps with
  | nil => exact absurd here List.not_mem_nil
  | cons p ps ih =>
    by_cases later : k ∈ ps.map Prod.fst
    · obtain ⟨v, last⟩ := ih later
      exact ⟨v, isLast_cons.2 (.inl last)⟩
    · rcases List.mem_cons.1 here with rfl | there
      · exact ⟨p.2, isLast_cons.2 (.inr ⟨rfl, later⟩)⟩
      · exact absurd there later

/-- Among pairs with distinct keys every one is the last with its key. -/
theorem isLast_iff_mem {p : K × V} {ps : List (K × V)} (distinct : (ps.map Prod.fst).Nodup) :
    IsLast p ps ↔ p ∈ ps := by
  induction ps with
  | nil => exact iff_of_false not_last_nil List.not_mem_nil
  | cons q ps ih =>
    obtain ⟨fresh, rest⟩ := List.nodup_cons.1 distinct
    rw [isLast_cons, ih rest, List.mem_cons, or_comm]
    refine or_congr_left (and_iff_left_of_imp ?_)
    rintro rfl
    exact fresh

variable [DecidableEq K] [LT K] [DecidableLT K]

/-- Insert a member, in place of the one with its key if there is one. -/
def insert (key : K) (value : V) : List (K × V) → List (K × V)
  | [] => [(key, value)]
  | (k, v) :: members =>
    if key = k then (key, value) :: members
    else if key < k then (key, value) :: (k, v) :: members
    else (k, v) :: insert key value members

/-- Insert one pair after the other. -/
def insertAll (ps members : List (K × V)) : List (K × V) :=
  ps.foldl (fun members p => insert p.1 p.2 members) members

@[simp] theorem insertAll_nil (members : List (K × V)) : insertAll [] members = members := rfl

theorem insertAll_cons (p : K × V) (ps members : List (K × V)) :
    insertAll (p :: ps) members = insertAll ps (insert p.1 p.2 members) := rfl

theorem mem_insert_or {key : K} {value : V} {m : K × V} {members : List (K × V)}
    (here : m ∈ insert key value members) : m = (key, value) ∨ m ∈ members := by
  induction members with
  | nil => exact .inl (List.mem_singleton.1 here)
  | cons first members ih =>
    rw [insert] at here
    split at here
    · exact (List.mem_cons.1 here).imp_right (List.mem_cons_of_mem _)
    · split at here
      · exact List.mem_cons.1 here
      · rcases List.mem_cons.1 here with rfl | later
        · exact .inr List.mem_cons_self
        · exact (ih later).imp_right (List.mem_cons_of_mem _)

/-- Insertion does not look at the values. -/
theorem insert_map {W : Type*} (f : V → W) (key : K) (value : V) (members : List (K × V)) :
    insert key (f value) (members.map fun m => (m.1, f m.2)) =
      (insert key value members).map fun m => (m.1, f m.2) := by
  induction members with
  | nil => rfl
  | cons m members ih =>
    rw [List.map_cons, insert, insert]
    split
    · rfl
    · split
      · rfl
      · rw [ih]
        rfl

section Ordered

variable [LE K] [Std.IsLinearOrder K] [Std.LawfulOrderLT K] {key : K} {value : V} {m : K × V}
  {ps members : List (K × V)}

/-- Insertion keeps the members in key order. -/
theorem sorted_insert (sorted : Sorted members) : Sorted (insert key value members) := by
  induction members with
  | nil => exact List.pairwise_singleton _ _
  | cons first members ih =>
    obtain ⟨k, v⟩ := first
    obtain ⟨least, rest⟩ := List.pairwise_cons.1 sorted
    rw [insert]
    split
    · subst_vars
      exact List.pairwise_cons.2 ⟨least, rest⟩
    · rename_i other
      split
      · rename_i less
        refine List.pairwise_cons.2 ⟨fun k' here => ?_, List.pairwise_cons.2 ⟨least, rest⟩⟩
        rcases List.mem_cons.1 here with rfl | later
        · exact less
        · exact Std.lt_trans less (least k' later)
      · rename_i notLess
        refine List.pairwise_cons.2 ⟨fun k' here => ?_, ih rest⟩
        obtain ⟨m, inserted, rfl⟩ := List.mem_map.1 here
        rcases mem_insert_or inserted with rfl | old
        · exact Std.lt_of_le_of_ne (Std.not_lt.1 notLess) (Ne.symm other)
        · exact least m.1 (List.mem_map_of_mem old)

/-- An insertion replaces the member with its key, if there is one. -/
theorem mem_insert (sorted : Sorted members) :
    m ∈ insert key value members ↔ m = (key, value) ∨ m.1 ≠ key ∧ m ∈ members := by
  induction members with
  | nil => simp [insert]
  | cons first members ih =>
    obtain ⟨k, v⟩ := first
    obtain ⟨least, rest⟩ := List.pairwise_cons.1 sorted
    have apart : ∀ m ∈ members, m.1 ≠ k := by
      rintro m here rfl
      exact Std.lt_irrefl (least m.1 (List.mem_map_of_mem here))
    rw [insert]
    split
    · subst_vars
      rw [List.mem_cons, List.mem_cons]
      constructor
      · rintro (rfl | old)
        · exact .inl rfl
        · exact .inr ⟨apart m old, .inr old⟩
      · rintro (rfl | ⟨other, rfl | old⟩)
        · exact .inl rfl
        · exact absurd rfl other
        · exact .inr old
    · rename_i different
      split
      · rename_i less
        rw [List.mem_cons]
        refine or_congr_right ⟨fun old => ⟨?_, old⟩, And.right⟩
        rintro rfl
        rcases List.mem_cons.1 old with rfl | later
        · exact different rfl
        · exact Std.lt_irrefl (Std.lt_trans less (least _ (List.mem_map_of_mem later)))
      · rw [List.mem_cons, ih rest, List.mem_cons]
        constructor
        · rintro (rfl | rfl | ⟨other, old⟩)
          · exact .inr ⟨Ne.symm different, .inl rfl⟩
          · exact .inl rfl
          · exact .inr ⟨other, .inr old⟩
        · rintro (rfl | ⟨other, rfl | old⟩)
          · exact .inr (.inl rfl)
          · exact .inl rfl
          · exact .inr (.inr ⟨other, old⟩)

theorem sorted_insertAll (sorted : Sorted members) : Sorted (insertAll ps members) := by
  induction ps generalizing members with
  | nil => exact sorted
  | cons p ps ih => exact ih (sorted_insert sorted)

theorem mem_insertAll_of_sorted (sorted : Sorted members) :
    m ∈ insertAll ps members ↔ IsLast m ps ∨ m.1 ∉ ps.map Prod.fst ∧ m ∈ members := by
  induction ps generalizing members with
  | nil => simp [IsLast, not_last_nil]
  | cons p ps ih =>
    rw [insertAll_cons, ih (sorted_insert sorted), mem_insert sorted, isLast_cons, List.map_cons, List.mem_cons,
      not_or, or_assoc]
    refine or_congr_right ?_
    constructor
    · rintro ⟨absent, same | ⟨other, old⟩⟩
      · exact .inl ⟨same, absent⟩
      · exact .inr ⟨⟨other, absent⟩, old⟩
    · rintro (⟨same, absent⟩ | ⟨⟨other, absent⟩, old⟩)
      · exact ⟨absent, .inl same⟩
      · exact ⟨absent, .inr ⟨other, old⟩⟩

theorem sorted_insertAll_nil : Sorted (insertAll ps []) := sorted_insertAll List.Pairwise.nil

/-- **The last insertion wins.** -/
theorem mem_insertAll : m ∈ insertAll ps [] ↔ IsLast m ps := by
  have empty : Sorted ([] : List (K × V)) := List.Pairwise.nil
  rw [mem_insertAll_of_sorted empty]
  simp

theorem mem_keys_insertAll {k : K} : k ∈ (insertAll ps []).map Prod.fst ↔ k ∈ ps.map Prod.fst := by
  constructor
  · intro here
    obtain ⟨m, member, rfl⟩ := List.mem_map.1 here
    exact List.mem_map_of_mem (mem_insertAll.1 member).mem
  · intro here
    obtain ⟨v, last⟩ := exists_isLast here
    exact List.mem_map.2 ⟨(k, v), mem_insertAll.2 last, rfl⟩

/-- No key is inserted twice, so none is lost. -/
theorem mem_insertAll_of_distinct (distinct : (ps.map Prod.fst).Nodup) : m ∈ insertAll ps [] ↔ m ∈ ps :=
  mem_insertAll.trans (isLast_iff_mem distinct)

theorem length_insertAll (distinct : (ps.map Prod.fst).Nodup) : (insertAll ps []).length = ps.length := by
  have keys : ((insertAll ps []).map Prod.fst).Nodup := by
    have sorted : Sorted (insertAll ps []) := sorted_insertAll_nil
    refine List.Pairwise.imp ?_ sorted
    rintro k _ less rfl
    exact Std.lt_irrefl less
  have same : (insertAll ps []).Perm ps := by
    rw [List.perm_ext_iff_of_nodup (List.Nodup.of_map _ keys) (List.Nodup.of_map _ distinct)]
    exact fun m => mem_insertAll_of_distinct distinct
  exact same.length_eq

end Ordered

end Base.Members
