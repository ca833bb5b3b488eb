import Mathlib.Algebra.Group.Nat.Defs
import Mathlib.Data.List.Basic

/-!
# Decimal numerals

How the numerals that core writes compare as texts, and a reader for them. Numerals of one length
are ordered like their numbers; otherwise the shorter one is compared to the leading digits of the
longer one.
-/

namespace Base.Decimal
set_option autoImplicit false

/-! ## Texts in lexicographic order -/

/-- Parts of one length decide first. -/
theorem append_lt_append_iff {α : Type*} [LT α] {as bs cs ds : List α} (same : as.length = bs.length) :
    as ++ cs < bs ++ ds ↔ as < bs ∨ as = bs ∧ cs < ds := by
  induction as generalizing bs with
  | nil =>
    obtain rfl := List.length_eq_zero_iff.1 same.symm
    simp
  | cons a as ih =>
    cases bs with
    | nil => exact absurd same (Nat.succ_ne_zero _)
    | cons b bs =>
      rw [List.cons_append, List.cons_append, List.cons_lt_cons_iff, ih (Nat.succ.inj same), List.cons_lt_cons_iff,
        List.cons.injEq, and_or_left, or_assoc, and_assoc]

/-! ## Digits -/

theorem length_pos (n : Nat) : 0 < (Nat.toDigits 10 n).length := Nat.length_toDigits_pos

/-- All digits but the last, and the last. -/
theorem toDigits_div_mod {n : Nat} (large : 10 ≤ n) :
    Nat.toDigits 10 n = Nat.toDigits 10 (n / 10) ++ [(n % 10).digitChar] :=
  Nat.toDigits_of_base_le (by omega) large

theorem lt_pow_length (n : Nat) : n < 10 ^ (Nat.toDigits 10 n).length :=
  (Nat.length_toDigits_le_iff (by omega) (length_pos n)).1 (Nat.le_refl _)

/-- The first digit is no zero. -/
theorem pow_length_le {n : Nat} (pos : 1 ≤ n) : 10 ^ ((Nat.toDigits 10 n).length - 1) ≤ n := by
  rcases Nat.eq_or_lt_of_le (length_pos n) with one | more
  · rw [← one]
    exact pos
  · have shorter : ¬ (Nat.toDigits 10 n).length ≤ (Nat.toDigits 10 n).length - 1 := by omega
    rw [Nat.length_toDigits_le_iff (by omega) (by omega)] at shorter
    exact Nat.le_of_not_lt shorter

theorem length_eq_of_bounds {n d : Nat} (lower : 10 ^ d ≤ n) (upper : n < 10 ^ (d + 1)) :
    (Nat.toDigits 10 n).length = d + 1 := by
  have most := (Nat.length_toDigits_le_iff (b := 10) (k := d + 1) (by omega) (by omega)).2 upper
  refine Nat.le_antisymm most ?_
  by_contra shorter
  rcases Nat.eq_zero_or_pos d with rfl | pos
  · have := length_pos n
    omega
  · have few := (Nat.length_toDigits_le_iff (b := 10) (n := n) (by omega) pos).1 (by omega)
    omega

/-- The leading digits are those of the quotient, and digits follow. -/
theorem toDigits_split (n : Nat) : ∀ {i : Nat}, i < (Nat.toDigits 10 n).length →
    ∃ low : List Char, low.length = i ∧ (∀ c ∈ low, c.isDigit) ∧
      Nat.toDigits 10 n = Nat.toDigits 10 (n / 10 ^ i) ++ low := by
  intro i
  induction i generalizing n with
  | zero => exact fun _ => ⟨[], rfl, by simp, by simp⟩
  | succ i ih =>
    intro enough
    have large : 10 ≤ n := by
      by_contra small
      rw [Nat.toDigits_of_lt_base (by omega)] at enough
      exact absurd enough (by simp)
    have digits := toDigits_div_mod large
    rw [digits, List.length_append, List.length_singleton] at enough
    obtain ⟨low, length, isDigits, split⟩ := ih (n / 10) (by omega)
    refine ⟨low ++ [(n % 10).digitChar], by simp [length], ?_, ?_⟩
    · intro c here
      rcases List.mem_append.1 here with leading | last
      · exact isDigits c leading
      · rw [List.mem_singleton.1 last, Nat.isDigit_digitChar, decide_eq_true_eq]
        exact Nat.mod_lt n (by omega)
    · rw [digits, split, List.append_assoc, Nat.div_div_eq_div_mul, Nat.pow_succ']

theorem toDigits_inj {m n : Nat} : Nat.toDigits 10 m = Nat.toDigits 10 n ↔ m = n := by
  refine ⟨fun equal => ?_, fun equal => by rw [equal]⟩
  rw [← Nat.ofDigitChars_ten_toDigits (n := m), equal, Nat.ofDigitChars_ten_toDigits]

/-! ## Reading -/

/-- The number a numeral stands for; leading zeros are allowed. -/
def read (cs : List Char) : Option Nat :=
  if cs ≠ [] ∧ cs.all Char.isDigit then some (Nat.ofDigitChars 10 cs 0) else none

theorem isDigit_of_mem {n : Nat} {c : Char} (here : c ∈ Nat.toDigits 10 n) : c.isDigit :=
  Nat.isDigit_of_mem_toDigits (by omega) (Nat.le_refl 10) here

/-- **What is written is read.** -/
theorem read_toDigits (n : Nat) : read (Nat.toDigits 10 n) = some n := by
  have digits := List.all_eq_true.2 fun c (here : c ∈ Nat.toDigits 10 n) => isDigit_of_mem here
  rw [read, if_pos ⟨Nat.toDigits_ne_nil, digits⟩, Nat.ofDigitChars_ten_toDigits]

theorem isDigit_of_read {cs : List Char} {n : Nat} (number : read cs = some n) : ∀ c ∈ cs, c.isDigit := by
  rw [read] at number
  split at number
  · rename_i digits
    exact List.all_eq_true.1 digits.2
  · cases number

/-! ## Order -/

theorem digitChar_lt_iff : ∀ x < 10, ∀ y < 10, Nat.digitChar x < Nat.digitChar y ↔ x < y := by decide

/-- Numerals of one length are ordered like their numbers. -/
theorem toDigits_lt_iff {m n : Nat} (same : (Nat.toDigits 10 m).length = (Nat.toDigits 10 n).length) :
    Nat.toDigits 10 m < Nat.toDigits 10 n ↔ m < n := by
  induction m using Nat.strongRecOn generalizing n with
  | ind m ih =>
    rcases Nat.lt_or_ge m 10 with small | large
    · have small' : n < 10 := by
        by_contra large'
        rw [Nat.toDigits_of_lt_base small, toDigits_div_mod (by omega), List.length_append] at same
        have := length_pos (n / 10)
        simp only [List.length_singleton] at same
        omega
      rw [Nat.toDigits_of_lt_base small, Nat.toDigits_of_lt_base small', List.cons_lt_cons_iff,
        digitChar_lt_iff m small n small']
      simp
    · have large' : 10 ≤ n := by
        by_contra small'
        rw [Nat.toDigits_of_lt_base (by omega : n < 10), toDigits_div_mod large, List.length_append] at same
        have := length_pos (m / 10)
        simp only [List.length_singleton] at same
        omega
      rw [toDigits_div_mod large, toDigits_div_mod large'] at same ⊢
      have shorter : (Nat.toDigits 10 (m / 10)).length = (Nat.toDigits 10 (n / 10)).length := by
        simpa using same
      rw [append_lt_append_iff shorter, ih (m / 10) (by omega) shorter, toDigits_inj, List.cons_lt_cons_iff,
        digitChar_lt_iff _ (Nat.mod_lt m (by omega)) _ (Nat.mod_lt n (by omega))]
      simp only [List.not_lt_nil, and_false, or_false]
      omega

/-- The quotient has the leading digits only. -/
theorem length_div_pow {n i : Nat} (less : i < (Nat.toDigits 10 n).length) :
    (Nat.toDigits 10 (n / 10 ^ i)).length = (Nat.toDigits 10 n).length - i := by
  obtain ⟨low, length, -, split⟩ := toDigits_split n less
  rw [split, List.length_append, length, Nat.add_sub_cancel]

section Separated

/-! A separator that precedes every digit ends the numerals. -/

variable {sep : Char} {t : List Char}

/-- A longer numeral follows if its leading digits do not precede. -/
theorem lt_of_longer_iff (low : ∀ c : Char, c.isDigit → sep < c) {k j : Nat}
    (longer : (Nat.toDigits 10 k).length < (Nat.toDigits 10 j).length) :
    Nat.toDigits 10 k ++ sep :: t < Nat.toDigits 10 j ++ sep :: t ↔
      k ≤ j / 10 ^ ((Nat.toDigits 10 j).length - (Nat.toDigits 10 k).length) := by
  have few : (Nat.toDigits 10 j).length - (Nat.toDigits 10 k).length < (Nat.toDigits 10 j).length := by
    have := length_pos k
    omega
  obtain ⟨digits, length, isDigits, split⟩ := toDigits_split j few
  have same := length_div_pow few
  cases digits with
  | nil => exact absurd length (by simp; omega)
  | cons c digits =>
    have equal : (Nat.toDigits 10 k).length =
        (Nat.toDigits 10 (j / 10 ^ ((Nat.toDigits 10 j).length - (Nat.toDigits 10 k).length))).length := by omega
    have first : sep :: t < (c :: digits) ++ sep :: t :=
      List.cons_lt_cons_iff.2 (.inl (low c (isDigits c List.mem_cons_self)))
    conv_lhs => rw [split]
    rw [List.append_assoc, append_lt_append_iff equal, toDigits_lt_iff equal, toDigits_inj, and_iff_left first,
      Nat.le_iff_lt_or_eq]

/-- A shorter numeral follows if the leading digits precede it. -/
theorem lt_of_shorter_iff (low : ∀ c : Char, c.isDigit → sep < c) {k j : Nat}
    (shorter : (Nat.toDigits 10 j).length < (Nat.toDigits 10 k).length) :
    Nat.toDigits 10 k ++ sep :: t < Nat.toDigits 10 j ++ sep :: t ↔
      k / 10 ^ ((Nat.toDigits 10 k).length - (Nat.toDigits 10 j).length) < j := by
  have few : (Nat.toDigits 10 k).length - (Nat.toDigits 10 j).length < (Nat.toDigits 10 k).length := by
    have := length_pos j
    omega
  obtain ⟨digits, length, isDigits, split⟩ := toDigits_split k few
  have same := length_div_pow few
  cases digits with
  | nil => exact absurd length (by simp; omega)
  | cons c digits =>
    have equal : (Nat.toDigits 10 (k / 10 ^ ((Nat.toDigits 10 k).length - (Nat.toDigits 10 j).length))).length =
        (Nat.toDigits 10 j).length := by omega
    have first : ¬ (c :: digits) ++ sep :: t < sep :: t := by
      have less := low c (isDigits c List.mem_cons_self)
      rw [List.cons_append, List.cons_lt_cons_iff, not_or]
      exact ⟨Char.lt_asymm less, fun same => Char.ne_of_lt less same.1.symm⟩
    conv_lhs => rw [split]
    rw [List.append_assoc, append_lt_append_iff equal, toDigits_lt_iff equal, toDigits_inj]
    simp only [first, and_false, or_false]

/-- The numeral `k` stands among those up to `n` as the number does: it is 1, or it has as many digits
as `n` and all of them but the last are nines. -/
def InOrder (k n : Nat) : Prop :=
  k = 1 ∨ 10 ^ (Nat.toDigits 10 k).length ≤ k + 10 ∧ n < 10 ^ (Nat.toDigits 10 k).length

instance (k n : Nat) : Decidable (InOrder k n) := instDecidableOr

theorem length_one : (Nat.toDigits 10 1).length = 1 := by decide

/-- A number that begins with nines only exceeds every shorter one by its leading digits. -/
theorem le_div_of_nines {k j e i : Nat} (nines : 10 ^ (e + i) ≤ k + 10) (pos : 1 ≤ i) (small : j < 10 ^ e) :
    j ≤ k / 10 ^ i := by
  have ten : 10 ^ 1 ≤ 10 ^ i := Nat.pow_le_pow_right (by omega) pos
  have most : (10 ^ e - 1) * 10 ^ i ≤ k := by
    rw [Nat.sub_mul, ← Nat.pow_add]
    omega
  have := (Nat.le_div_iff_mul_le (by omega)).2 most
  omega

theorem lt_iff_of_inOrder (low : ∀ c : Char, c.isDigit → sep < c) {k n j : Nat} (order : InOrder k n) (pos : 1 ≤ j)
    (le : j ≤ n) : Nat.toDigits 10 k ++ sep :: t < Nat.toDigits 10 j ++ sep :: t ↔ k < j := by
  have jBelow := lt_pow_length j
  have jLeast := pow_length_le pos
  rcases Nat.lt_trichotomy (Nat.toDigits 10 k).length (Nat.toDigits 10 j).length with longer | same | shorter
  · -- a longer numeral is only reached by `k = 1`
    rcases order with rfl | ⟨-, bound⟩
    · rw [lt_of_longer_iff low longer, length_one]
      rw [length_one] at longer
      have ten : 10 ^ 1 ≤ 10 ^ ((Nat.toDigits 10 j).length - 1) := Nat.pow_le_pow_right (by omega) (by omega)
      refine iff_of_true (Nat.div_pos jLeast ?_) ?_
      · omega
      · omega
    · have more : 10 ^ (Nat.toDigits 10 k).length ≤ 10 ^ ((Nat.toDigits 10 j).length - 1) :=
        Nat.pow_le_pow_right (by omega) (by omega)
      omega
  · rw [append_lt_append_iff same, toDigits_lt_iff same, toDigits_inj]
    simp only [List.lt_irrefl, and_false, or_false]
  · rw [lt_of_shorter_iff low shorter]
    rcases order with rfl | ⟨nines, -⟩
    · have := length_pos j
      rw [length_one] at shorter
      omega
    · obtain ⟨i, more⟩ := Nat.exists_eq_add_of_le (Nat.le_of_lt shorter)
      have reached : j ≤ k / 10 ^ i := le_div_of_nines (more ▸ nines) (by omega) jBelow
      have divided := Nat.div_le_self k (10 ^ i)
      rw [more, Nat.add_sub_cancel_left]
      omega

/-- What stands before `k` in order forces its leading digits to be nines. -/
theorem nines_of_order (low : ∀ c : Char, c.isDigit → sep < c) {k : Nat} (pos : 1 ≤ k)
    (order : ∀ j, 1 ≤ j → j ≤ k → ¬ Nat.toDigits 10 k ++ sep :: t < Nat.toDigits 10 j ++ sep :: t) :
    10 ^ (Nat.toDigits 10 k).length ≤ k + 10 := by
  have least := pow_length_le pos
  obtain ⟨d, length⟩ : ∃ d, (Nat.toDigits 10 k).length = d + 1 :=
    Nat.exists_eq_add_of_le' (length_pos k)
  rw [length, Nat.add_sub_cancel] at least
  rw [length]
  cases d with
  | zero => omega
  | succ d =>
    have ten : 10 ^ 0 ≤ 10 ^ d := Nat.pow_le_pow_right (by omega) (by omega)
    have next : 10 ^ (d + 1) = 10 * 10 ^ d := Nat.pow_succ'
    have last : 10 ^ (d + 1 + 1) = 10 * 10 ^ (d + 1) := Nat.pow_succ'
    have shorter : (Nat.toDigits 10 (10 ^ (d + 1) - 1)).length = d + 1 := length_eq_of_bounds (by omega) (by omega)
    have before := order (10 ^ (d + 1) - 1) (by omega) (by omega)
    rw [lt_of_shorter_iff low (by omega), length, shorter, Nat.add_sub_cancel_left] at before
    omega

/-- What follows `k` in order has no more digits, unless `k = 1`. -/
theorem short_of_order (low : ∀ c : Char, c.isDigit → sep < c) {k n : Nat} (pos : 1 ≤ k)
    (nines : 10 ^ (Nat.toDigits 10 k).length ≤ k + 10)
    (order : ∀ j, k < j → j ≤ n → Nat.toDigits 10 k ++ sep :: t < Nat.toDigits 10 j ++ sep :: t) :
    k = 1 ∨ n < 10 ^ (Nat.toDigits 10 k).length := by
  have below := lt_pow_length k
  rcases Nat.lt_or_ge n (10 ^ (Nat.toDigits 10 k).length) with short | long
  · exact .inr short
  · obtain ⟨d, length⟩ : ∃ d, (Nat.toDigits 10 k).length = d + 1 :=
      Nat.exists_eq_add_of_le' (length_pos k)
    have after := order (10 ^ (Nat.toDigits 10 k).length) below long
    have longer : (Nat.toDigits 10 (10 ^ (d + 1))).length = d + 1 + 1 :=
      length_eq_of_bounds (Nat.le_refl _) (Nat.pow_lt_pow_right (by omega) (by omega))
    rw [length] at after nines
    rw [lt_of_longer_iff low (by omega), longer, length, Nat.add_sub_cancel_left, Nat.pow_one, Nat.pow_succ,
      Nat.mul_div_cancel _ (by omega)] at after
    rw [Nat.pow_succ] at nines
    rcases Nat.eq_zero_or_pos d with rfl | more
    · exact .inl (Nat.le_antisymm after pos)
    · have ten : 10 ^ 1 ≤ 10 ^ d := Nat.pow_le_pow_right (by omega) more
      omega

/-- **Numerals in textual order.** -/
theorem lt_iff_lt_iff_inOrder (low : ∀ c : Char, c.isDigit → sep < c) {k n : Nat} (pos : 1 ≤ k) (le : k ≤ n) :
    (∀ j, 1 ≤ j → j ≤ n → (Nat.toDigits 10 k ++ sep :: t < Nat.toDigits 10 j ++ sep :: t ↔ k < j)) ↔
      InOrder k n := by
  constructor
  · intro order
    have nines := nines_of_order low pos fun j one small => by
      rw [order j one (Nat.le_trans small le)]
      omega
    have short := short_of_order low pos nines fun j more small => (order j (by omega) small).2 more
    exact short.imp_right fun few => ⟨nines, few⟩
  · exact fun order j one small => lt_iff_of_inOrder low order one small

end Separated

end Base.Decimal
