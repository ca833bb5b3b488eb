import Mathlib.Data.List.AList

/-!
# Finite tables

Mathlib's association lists with pairwise distinct keys, at a constant value type, with the two
operations of hash maps that they lack: `retain` (keep, update or drop every entry) and `modify`
(update one entry in place). Every fact about a table is a fact about `lookup`.
-/

namespace Base
set_option autoImplicit false

/-- A finite map with at most one entry for a key. -/
abbrev Table (K V : Type*) := AList fun _ : K => V

namespace Table

variable {K V W : Type*}

/-- Rebuild a list of entries; `none` drops the entry. -/
def retainEntries (f : K → V → Option W) (es : List (Sigma fun _ : K => V)) :
    List (Sigma fun _ : K => W) :=
  es.filterMap fun e => (f e.1 e.2).map (Sigma.mk e.1)

theorem keys_retainEntries (f : K → V → Option W) (es : List (Sigma fun _ : K => V)) :
    (retainEntries f es).keys.Sublist es.keys := by
  induction es with
  | nil => exact .slnil
  | cons e es ih =>
    simp only [retainEntries, List.filterMap_cons]
    cases f e.1 e.2 with
    | none => exact ih.cons _
    | some w => exact ih.cons_cons _

/-- Rebuild the table entry by entry; `none` drops the entry. -/
def retain (f : K → V → Option W) (t : Table K V) : Table K W :=
  ⟨retainEntries f t.entries, List.Nodup.sublist (keys_retainEntries f t.entries) t.nodupKeys⟩

/-- No entry at all. -/
def isEmpty (t : Table K V) : Bool := t.entries.isEmpty

/-- The number of entries. -/
def size (t : Table K V) : Nat := t.entries.length

/-- The sum of the values' numbers. -/
def total (f : V → Nat) (t : Table K V) : Nat := t.entries.foldr (fun e n => f e.2 + n) 0

/-- The items of the values, in the order of the entries. -/
def gather (f : V → List W) (t : Table K V) : List W := t.entries.flatMap fun e => f e.2

variable [DecidableEq K]

/-- Update the value stored under `k`, if there is one. -/
def modify (k : K) (f : V → V) (t : Table K V) : Table K V :=
  t.retain fun k' v => some (if k' = k then f v else v)

@[simp] theorem lookup_retain (f : K → V → Option W) (t : Table K V) (k : K) :
    (t.retain f).lookup k = (t.lookup k).bind (f k) := by
  obtain ⟨es, nodup⟩ := t
  change (retainEntries f es).dlookup k = (es.dlookup k : Option V).bind (f k)
  induction es with
  | nil => rfl
  | cons e es ih =>
    obtain ⟨k', v⟩ := e
    obtain ⟨fresh, rest⟩ := List.nodupKeys_cons.1 nodup
    simp only [retainEntries, List.filterMap_cons] at ih ⊢
    by_cases same : k = k'
    · subst same
      have gone : (es.dlookup k : Option V) = none := List.dlookup_eq_none.2 fresh
      cases kept : f k v with
      | some w => simp [kept]
      | none => simp [kept, ih rest, gone]
    · rw [List.dlookup_cons_ne es ⟨k', v⟩ same, ← ih rest]
      cases kept : f k' v with
      | some w => exact List.dlookup_cons_ne _ (Sigma.mk (β := fun _ => W) k' w) same
      | none => rfl

@[simp] theorem lookup_modify (k k' : K) (f : V → V) (t : Table K V) :
    (t.modify k f).lookup k' = (t.lookup k').map (if k' = k then f else id) := by
  rw [modify, lookup_retain]
  split <;> cases t.lookup k' <;> simp_all

/-- After an update every value is related to the one before as an update relates them. -/
theorem related_of_modify {R : V → V → Prop} (refl : ∀ v, R v v) {k k' : K} {f : V → V} {t : Table K V} {v' : V}
    (update : ∀ v, R v (f v)) (found : (t.modify k f).lookup k' = some v') :
    ∃ v, t.lookup k' = some v ∧ R v v' := by
  rw [lookup_modify] at found
  obtain ⟨v, before, rfl⟩ := Option.map_eq_some_iff.1 found
  refine ⟨v, before, ?_⟩
  split
  · exact update v
  · exact refl v

/-- A view that an update does not change is the same under every key. -/
theorem map_lookup_modify {g : V → W} {k : K} {f : V → V} (same : ∀ v, g (f v) = g v) (t : Table K V) (k' : K) :
    ((t.modify k f).lookup k').map g = (t.lookup k').map g := by
  rw [lookup_modify, Option.map_map]
  split
  · exact congrArg (Option.map · _) (funext same)
  · rfl

theorem lookup_insert_eq_ite (t : Table K V) (k k' : K) (v : V) :
    (t.insert k v).lookup k' = if k' = k then some v else t.lookup k' := by
  split
  · subst_vars; exact AList.lookup_insert t
  · exact AList.lookup_insert_ne ‹_›

theorem lookup_erase_eq_ite (t : Table K V) (k k' : K) :
    (t.erase k).lookup k' = if k' = k then none else t.lookup k' := by
  split
  · subst_vars; exact AList.lookup_erase _ t
  · exact AList.lookup_erase_ne ‹_›

/-- Erasing what is not there changes nothing. -/
theorem erase_eq_self {t : Table K V} {k : K} (absent : t.lookup k = none) : t.erase k = t := by
  apply AList.ext
  apply List.kerase_of_notMem_keys
  exact AList.lookup_eq_none.1 absent

/-- The table that pairs leave when they are inserted one after the other. -/
def ofPairs (ps : List (K × V)) : Table K V := ps.foldl (fun t p => t.insert p.1 p.2) ∅

/-- Pairs with distinct keys are what is found afterwards. -/
theorem lookup_ofPairs {ps : List (K × V)} (distinct : (ps.map Prod.fst).Nodup) {k : K} {v : V} :
    (ofPairs ps).lookup k = some v ↔ (k, v) ∈ ps := by
  have walk : ∀ (ps : List (K × V)) (t : Table K V), (ps.map Prod.fst).Nodup →
      ((ps.foldl (fun t p => t.insert p.1 p.2) t).lookup k = some v ↔
        (k, v) ∈ ps ∨ k ∉ ps.map Prod.fst ∧ t.lookup k = some v) := by
    intro ps
    induction ps with
    | nil => simp
    | cons p ps ih =>
      intro t distinct
      rw [List.map_cons, List.nodup_cons] at distinct
      obtain ⟨fresh, rest⟩ := distinct
      rw [List.foldl_cons, ih _ rest, lookup_insert_eq_ite, List.map_cons, List.mem_cons, List.mem_cons]
      by_cases same : k = p.1
      · subst same
        have absent : (p.1, v) ∉ ps := fun here => fresh (List.mem_map.2 ⟨_, here, rfl⟩)
        simp [fresh, absent, Prod.ext_iff, eq_comm]
      · simp [same, Prod.ext_iff]
  rw [ofPairs, walk ps ∅ distinct]
  simp

/-- What is found was inserted. -/
theorem mem_of_lookup_ofPairs {ps : List (K × V)} {k : K} {v : V} (found : (ofPairs ps).lookup k = some v) :
    (k, v) ∈ ps := by
  have walk : ∀ (ps : List (K × V)) (t : Table K V),
      (ps.foldl (fun t p => t.insert p.1 p.2) t).lookup k = some v → (k, v) ∈ ps ∨ t.lookup k = some v := by
    intro ps
    induction ps with
    | nil => exact fun t found => .inr found
    | cons p ps ih =>
      intro t found
      rcases ih _ found with here | there
      · exact .inl (List.mem_cons_of_mem p here)
      · rw [lookup_insert_eq_ite] at there
        split at there
        · cases there
          subst_vars
          exact .inl List.mem_cons_self
        · exact .inr there
  rcases walk ps ∅ found with here | none
  · exact here
  · cases none

/-- Changing the values changes what is found. -/
theorem lookup_ofPairs_map (g : V → W) (ps : List (K × V)) (k : K) :
    (ofPairs (ps.map fun p => (p.1, g p.2))).lookup k = ((ofPairs ps).lookup k).map g := by
  have walk : ∀ (ps : List (K × V)) (t : Table K V) (t' : Table K W), t'.lookup k = (t.lookup k).map g →
      (ps.foldl (fun t p => t.insert p.1 (g p.2)) t').lookup k =
        ((ps.foldl (fun t p => t.insert p.1 p.2) t).lookup k).map g := by
    intro ps
    induction ps with
    | nil => exact fun t t' same => same
    | cons p ps ih =>
      intro t t' same
      rw [List.foldl_cons, List.foldl_cons]
      apply ih
      rw [lookup_insert_eq_ite, lookup_insert_eq_ite]
      split
      · rfl
      · exact same
  rw [ofPairs, List.foldl_map]
  exact walk ps ∅ ∅ rfl

theorem isEmpty_iff {t : Table K V} : t.isEmpty = true ↔ ∀ k, t.lookup k = none := by
  constructor
  · intro empty k
    have none : t.entries = [] := List.isEmpty_iff.1 empty
    rw [AList.lookup, none]; rfl
  · intro none
    cases es : t.entries with
    | nil => simp [isEmpty, es]
    | cons e es' =>
      have found := none e.1
      rw [AList.lookup, es, List.dlookup_cons_eq] at found
      cases found

theorem size_pos_iff {t : Table K V} : 0 < t.size ↔ ∃ k v, t.lookup k = some v := by
  rw [size, List.length_pos_iff]
  constructor
  · intro some
    by_contra none
    push Not at none
    have empty : t.isEmpty = true := isEmpty_iff.2 fun k => by
      cases found : t.lookup k with
      | none => rfl
      | some v => exact absurd found (none k v)
    exact some (List.isEmpty_iff.1 empty)
  · rintro ⟨k, v, found⟩ empty
    rw [AList.lookup, empty] at found
    cases found

/-- An entry listed in the table is the one found under its key. -/
theorem lookup_of_mem {t : Table K V} {k : K} {v : V} (listed : ⟨k, v⟩ ∈ t.entries) :
    t.lookup k = some v :=
  (List.mem_dlookup_iff t.nodupKeys).2 listed

theorem mem_of_lookup {t : Table K V} {k : K} {v : V} (found : t.lookup k = some v) :
    (⟨k, v⟩ : Sigma fun _ : K => V) ∈ t.entries :=
  (List.mem_dlookup_iff t.nodupKeys).1 found

/-- The entries as pairs. -/
def pairs (t : Table K V) : List (K × V) := t.entries.map fun e => (e.1, e.2)

omit [DecidableEq K] in
theorem nodup_keys_pairs (t : Table K V) : (t.pairs.map Prod.fst).Nodup := by
  rw [pairs, List.map_map]
  exact t.nodupKeys

theorem mem_pairs_iff {t : Table K V} {k : K} {v : V} : (k, v) ∈ t.pairs ↔ t.lookup k = some v := by
  rw [pairs, List.mem_map]
  constructor
  · rintro ⟨e, here, ⟨⟩⟩
    exact lookup_of_mem here
  · exact fun found => ⟨⟨k, v⟩, mem_of_lookup found, rfl⟩

/-- The pairs of a table make up the table again. -/
theorem lookup_ofPairs_pairs (t : Table K V) (k : K) : (ofPairs t.pairs).lookup k = t.lookup k := by
  apply Option.ext
  intro v
  exact (lookup_ofPairs t.nodup_keys_pairs).trans mem_pairs_iff

/-! ## What the entries add up to -/

theorem entries_perm_of_lookup {t : Table K V} {k : K} {v : V} (found : t.lookup k = some v) :
    t.entries.Perm (⟨k, v⟩ :: (t.erase k).entries) := by
  have here : k ∈ t.entries.keys := List.mem_keys_of_mem (mem_of_lookup found)
  obtain ⟨v', before, after, -, split, rest⟩ := List.exists_of_kerase here
  have listed : (⟨k, v'⟩ : Sigma fun _ : K => V) ∈ t.entries := by
    rw [split]
    exact List.mem_append_right _ List.mem_cons_self
  obtain rfl : v' = v := Option.some.inj ((lookup_of_mem listed).symm.trans found)
  show t.entries.Perm (⟨k, v'⟩ :: t.entries.kerase k)
  rw [rest, split]
  exact List.perm_middle

theorem total_insert (f : V → Nat) (t : Table K V) (k : K) (v : V) :
    total f (t.insert k v) = f v + total f (t.erase k) := rfl

theorem total_of_lookup {f : V → Nat} {t : Table K V} {k : K} {v : V} (found : t.lookup k = some v) :
    total f t = f v + total f (t.erase k) := by
  apply (entries_perm_of_lookup found).foldr_eq'
  intro d _ e _ n
  omega

theorem gather_insert (f : V → List W) (t : Table K V) (k : K) (v : V) :
    gather f (t.insert k v) = f v ++ gather f (t.erase k) := List.flatMap_cons

theorem gather_perm_of_lookup {f : V → List W} {t : Table K V} {k : K} {v : V} (found : t.lookup k = some v) :
    (gather f t).Perm (f v ++ gather f (t.erase k)) := by
  have items := (entries_perm_of_lookup found).flatMap_right fun e => f e.2
  rwa [List.flatMap_cons] at items

/-- New items `d` come with a new value, wherever they are kept. -/
theorem gather_insert_perm {f : V → List W} {t : Table K V} {k : K} {v v' : V} {kept kept' all d : List W}
    (before : (kept ++ gather f t).Perm all) (found : t.lookup k = some v)
    (new : (kept' ++ f v').Perm (kept ++ f v ++ d)) : (kept' ++ gather f (t.insert k v')).Perm (all ++ d) := by
  have others := (gather_perm_of_lookup (f := f) found).append_left kept
  rw [← List.append_assoc] at others
  have whole : (kept ++ f v ++ gather f (t.erase k)).Perm all := others.symm.trans before
  have front := new.append_right (gather f (t.erase k))
  have back : (kept ++ f v ++ d ++ gather f (t.erase k)).Perm (kept ++ f v ++ gather f (t.erase k) ++ d) := by
    rw [List.append_assoc _ d, List.append_assoc _ _ d]
    exact List.perm_append_comm.append_left _
  rw [gather_insert, ← List.append_assoc]
  exact front.trans (back.trans (whole.append_right d))

theorem gather_insert_perm_self {f : V → List W} {t : Table K V} {k : K} {v v' : V} {kept kept' all : List W}
    (before : (kept ++ gather f t).Perm all) (found : t.lookup k = some v)
    (same : (kept' ++ f v').Perm (kept ++ f v)) : (kept' ++ gather f (t.insert k v')).Perm all := by
  have perm : (kept' ++ gather f (t.insert k v')).Perm (all ++ []) :=
    gather_insert_perm before found (by rwa [List.append_nil])
  rwa [List.append_nil] at perm

/-- A value without items leaves. -/
theorem gather_erase_perm {f : V → List W} {t : Table K V} {k : K} {v : V} (found : t.lookup k = some v)
    (none : f v = []) : (gather f (t.erase k)).Perm (gather f t) := by
  have items := gather_perm_of_lookup (f := f) found
  rw [none, List.nil_append] at items
  exact items.symm

end Table

end Base
