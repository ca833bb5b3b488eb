import Mathlib.Data.List.Basic

/-!
# Texts addressed by bytes

A text is its list of characters. Lengths and positions count the bytes of its UTF-8 form, so a
position may lie inside a character, where a text cannot be cut.
-/

namespace Base.Text
set_option autoImplicit false

/-! ## Lengths -/

/-- The number of bytes in UTF-8. -/
def byteLen : List Char → Nat
  | [] => 0
  | c :: cs => c.utf8Size + byteLen cs

@[simp] theorem byteLen_nil : byteLen [] = 0 := rfl

@[simp] theorem byteLen_cons (c : Char) (cs : List Char) : byteLen (c :: cs) = c.utf8Size + byteLen cs := rfl

@[simp] theorem byteLen_append (cs ds : List Char) : byteLen (cs ++ ds) = byteLen cs + byteLen ds := by
  induction cs with
  | nil => exact (Nat.zero_add _).symm
  | cons c cs ih => rw [List.cons_append, byteLen_cons, byteLen_cons, ih, Nat.add_assoc]

theorem length_le_byteLen (cs : List Char) : cs.length ≤ byteLen cs := by
  induction cs with
  | nil => exact Nat.le_refl _
  | cons c cs ih =>
    have := c.utf8Size_pos
    rw [List.length_cons, byteLen_cons]
    omega

theorem byteLen_eq_zero {cs : List Char} : byteLen cs = 0 ↔ cs = [] := by
  refine ⟨fun none => ?_, fun nil => by rw [nil, byteLen_nil]⟩
  have := length_le_byteLen cs
  exact List.length_eq_zero_iff.1 (by omega)

theorem byteLen_toList (s : String) : byteLen s.toList = s.utf8ByteSize := by
  have ofList : ∀ cs, byteLen cs = (String.ofList cs).utf8ByteSize := by
    intro cs
    induction cs with
    | nil => rfl
    | cons c cs ih =>
      have first : String.ofList (c :: cs) = String.singleton c ++ String.ofList cs := by
        rw [← String.toList_inj]
        simp
      rw [first, String.utf8ByteSize_append, String.utf8ByteSize_singleton, ← ih, byteLen_cons]
  rw [ofList, String.ofList_toList]

/-- The UTF-8 form. -/
def bytes (cs : List Char) : List UInt8 := cs.flatMap String.utf8EncodeChar

theorem bytes_append (cs ds : List Char) : bytes (cs ++ ds) = bytes cs ++ bytes ds := List.flatMap_append

theorem length_bytes (cs : List Char) : (bytes cs).length = byteLen cs := by
  induction cs with
  | nil => rfl
  | cons c cs ih =>
    rw [bytes, List.flatMap_cons, List.length_append, String.length_utf8EncodeChar, ← bytes, ih, byteLen_cons]

/-- Prefixes of one text with the same length are the same. -/
theorem append_inj_of_byteLen {as bs cs ds : List Char} (same : as ++ cs = bs ++ ds)
    (length : byteLen as = byteLen bs) : as = bs ∧ cs = ds := by
  induction as generalizing bs with
  | nil =>
    obtain rfl := byteLen_eq_zero.1 length.symm
    exact ⟨rfl, same⟩
  | cons a as ih =>
    cases bs with
    | nil => exact absurd (byteLen_eq_zero.1 length) (List.cons_ne_nil a as)
    | cons b bs =>
      rw [List.cons_append, List.cons_append, List.cons.injEq] at same
      obtain ⟨rfl, rest⟩ := same
      obtain ⟨rfl, tails⟩ := ih rest (by rw [byteLen_cons, byteLen_cons] at length; omega)
      exact ⟨rfl, tails⟩

/-! ## Cutting -/

/-- The two parts at a position; none beyond the end or inside a character. -/
def splitAt (n : Nat) : List Char → Option (List Char × List Char)
  | [] => if n = 0 then some ([], []) else none
  | c :: cs =>
    if n = 0 then some ([], c :: cs)
    else if c.utf8Size ≤ n then (splitAt (n - c.utf8Size) cs).map fun parts => (c :: parts.1, parts.2)
    else none

theorem splitAt_eq_some_iff {n : Nat} {cs as bs : List Char} :
    splitAt n cs = some (as, bs) ↔ cs = as ++ bs ∧ byteLen as = n := by
  induction cs generalizing n as bs with
  | nil =>
    rw [splitAt]
    split
    · subst_vars
      simp only [Option.some.injEq, Prod.mk.injEq, List.nil_eq_append_iff, byteLen_eq_zero]
      tauto
    · rename_i some
      refine iff_of_false nofun ?_
      rintro ⟨split, rfl⟩
      exact some (by rw [(List.append_eq_nil_iff.1 split.symm).1, byteLen_nil])
  | cons c cs ih =>
    have pos := c.utf8Size_pos
    rw [splitAt]
    split
    · subst_vars
      rw [byteLen_eq_zero, Option.some.injEq, Prod.mk.injEq]
      constructor
      · rintro ⟨rfl, rfl⟩
        exact ⟨rfl, rfl⟩
      · rintro ⟨split, rfl⟩
        exact ⟨rfl, split⟩
    · rename_i some
      split
      · simp only [Option.map_eq_some_iff, Prod.exists, Prod.mk.injEq, ih]
        constructor
        · rintro ⟨as, bs, ⟨rfl, length⟩, rfl, rfl⟩
          exact ⟨rfl, by rw [byteLen_cons]; omega⟩
        · rintro ⟨split, rfl⟩
          cases as with
          | nil => exact absurd byteLen_nil some
          | cons a as =>
            obtain ⟨rfl, rfl⟩ := List.cons.inj split
            exact ⟨as, bs, ⟨rfl, by rw [byteLen_cons]; omega⟩, rfl, rfl⟩
      · rename_i short
        refine iff_of_false nofun ?_
        rintro ⟨split, rfl⟩
        cases as with
        | nil => exact some byteLen_nil
        | cons a as =>
          obtain ⟨rfl, -⟩ := List.cons.inj split
          exact short (by rw [byteLen_cons]; omega)

/-- A position where a text can be cut. -/
def Boundary (n : Nat) (cs : List Char) : Prop := ∃ as bs, cs = as ++ bs ∧ byteLen as = n

theorem splitAt_eq_none_iff {n : Nat} {cs : List Char} : splitAt n cs = none ↔ ¬ Boundary n cs := by
  rw [Option.eq_none_iff_forall_ne_some]
  constructor
  · rintro none ⟨as, bs, parts⟩
    exact none (as, bs) (splitAt_eq_some_iff.2 parts)
  · rintro inside ⟨as, bs⟩ found
    exact inside ⟨as, bs, splitAt_eq_some_iff.1 found⟩

theorem Boundary.le {n : Nat} {cs : List Char} (boundary : Boundary n cs) : n ≤ byteLen cs := by
  obtain ⟨as, bs, rfl, rfl⟩ := boundary
  rw [byteLen_append]
  exact Nat.le_add_right _ _

/-- A position inside a character stays inside it when the text grows. -/
theorem not_boundary_append {n : Nat} {cs : List Char} (inside : ¬ Boundary n cs) (within : n ≤ byteLen cs)
    (more : List Char) : ¬ Boundary n (cs ++ more) := by
  rintro ⟨as, bs, split, rfl⟩
  rcases List.append_eq_append_iff.1 split with ⟨missing, rfl, rfl⟩ | ⟨rest, rfl, -⟩
  · rw [byteLen_append] at within
    obtain rfl := byteLen_eq_zero.1 (show byteLen missing = 0 by omega)
    exact inside ⟨cs, [], (List.append_nil cs).symm, by rw [List.append_nil]⟩
  · exact inside ⟨as, rest, rfl, rfl⟩

/-! ## Beginnings -/

/-- A beginning that misses something. -/
def Cut {α : Type*} (start whole : List α) : Prop := ∃ missing, missing ≠ [] ∧ whole = start ++ missing

theorem not_cut_nil {α : Type*} {start : List α} : ¬ Cut start [] := by
  rintro ⟨missing, some, whole⟩
  exact some (List.append_eq_nil_iff.1 whole.symm).2

theorem cut_append_iff {α : Type*} {start as bs : List α} :
    Cut start (as ++ bs) ↔ Cut start as ∨ ∃ more, start = as ++ more ∧ Cut more bs := by
  constructor
  · rintro ⟨missing, some, whole⟩
    rcases List.append_eq_append_iff.1 whole with ⟨more, rfl, rfl⟩ | ⟨first, rfl, rfl⟩
    · exact .inr ⟨more, rfl, missing, some, rfl⟩
    · cases first with
      | nil => exact .inr ⟨[], by rw [List.append_nil, List.append_nil], bs, some, rfl⟩
      | cons c first => exact .inl ⟨c :: first, List.cons_ne_nil c first, rfl⟩
  · rintro (⟨missing, some, rfl⟩ | ⟨more, rfl, missing, some, rfl⟩)
    · exact ⟨missing ++ bs, List.append_ne_nil_of_left_ne_nil some bs, List.append_assoc _ _ _⟩
    · exact ⟨missing, some, (List.append_assoc _ _ _).symm⟩

theorem Cut.byteLen_lt {start whole : List Char} (cut : Cut start whole) : byteLen start < byteLen whole := by
  obtain ⟨missing, some, rfl⟩ := cut
  have length := List.length_pos_iff.2 some
  have bytes := length_le_byteLen missing
  rw [byteLen_append]
  omega

/-! ## Searching -/

/-- The position of the first occurrence of a pattern. -/
def find (pattern : List Char) : List Char → Option Nat
  | [] => if pattern = [] then some 0 else none
  | c :: cs =>
    if pattern.isPrefixOf (c :: cs) then some 0
    else (find pattern cs).map fun n => c.utf8Size + n

theorem find_eq_none_iff {pattern cs : List Char} : find pattern cs = none ↔ ¬ pattern <:+: cs := by
  induction cs with
  | nil =>
    rw [find, List.infix_nil]
    split
    · simp [*]
    · simp [*]
  | cons c cs ih =>
    rw [find, List.infix_cons_iff, ← List.isPrefixOf_iff_prefix, not_or]
    split
    · simp [*]
    · rw [Option.map_eq_none_iff, ih]
      simp [*]

theorem exists_of_find_eq_some {pattern cs : List Char} {n : Nat} (nonempty : pattern ≠ [])
    (found : find pattern cs = some n) :
    ∃ before after, cs = before ++ (pattern ++ after) ∧ byteLen before = n ∧ ¬ pattern <:+: before := by
  induction cs generalizing n with
  | nil =>
    rw [find, if_neg nonempty] at found
    cases found
  | cons c cs ih =>
    rw [find] at found
    split at found
    · rename_i here
      obtain ⟨after, same⟩ := List.isPrefixOf_iff_prefix.1 here
      refine ⟨[], after, same.symm, Option.some.inj found, ?_⟩
      rwa [List.infix_nil]
    · rename_i absent
      obtain ⟨m, later, rfl⟩ := Option.map_eq_some_iff.1 found
      obtain ⟨before, after, rfl, rfl, none⟩ := ih later
      refine ⟨c :: before, after, rfl, rfl, ?_⟩
      rw [List.infix_cons_iff, not_or]
      refine ⟨fun here => absent ?_, none⟩
      rw [List.isPrefixOf_iff_prefix, ← List.cons_append]
      exact here.trans (List.prefix_append _ _)

def crlf : List Char := ['\r', '\n']

/-- A line end is found after a line without one. -/
theorem find_crlf {line : List Char} (none : ¬ crlf <:+: line) (rest : List Char) :
    find crlf (line ++ (crlf ++ rest)) = some (byteLen line) := by
  induction line with
  | nil => rfl
  | cons c line ih =>
    rw [List.infix_cons_iff, not_or] at none
    have absent : ¬ crlf.isPrefixOf (c :: (line ++ (crlf ++ rest))) = true := by
      rw [List.isPrefixOf_iff_prefix]
      intro here
      obtain ⟨rfl, next⟩ := List.cons_prefix_cons.1 here
      cases line with
      | nil => exact absurd (List.cons_prefix_cons.1 next).1 (by decide)
      | cons d line =>
        obtain ⟨rfl, -⟩ := List.cons_prefix_cons.1 next
        exact none.1 ⟨line, rfl⟩
    rw [List.cons_append, find, if_neg absent, ih none.2, Option.map_some, byteLen_cons]

theorem not_crlf_of_not_mem {line : List Char} (absent : '\r' ∉ line) : ¬ crlf <:+: line :=
  fun inside => absent (inside.subset List.mem_cons_self)

/-- A line that is cut before its end has no line end. -/
theorem not_crlf_of_cut {start line : List Char} (absent : '\n' ∉ line) (cut : Cut start (line ++ crlf)) :
    ¬ crlf <:+: start := by
  intro inside
  have here : '\n' ∈ start := inside.subset (List.mem_cons_of_mem _ List.mem_cons_self)
  rcases cut_append_iff.1 cut with ⟨missing, -, rfl⟩ | ⟨more, rfl, missing, some, whole⟩
  · exact absent (List.mem_append_left _ here)
  · rcases List.mem_append.1 here with before | last
    · exact absent before
    · cases more with
      | nil => cases last
      | cons c more =>
        obtain ⟨rfl, rest⟩ := List.cons.inj whole
        cases more with
        | nil => exact absurd (List.mem_singleton.1 last) (by decide)
        | cons d more => exact some (List.append_eq_nil_iff.1 (List.cons.inj rest).2.symm).2

@[simp] theorem byteLen_crlf : byteLen crlf = 2 := rfl

end Base.Text
