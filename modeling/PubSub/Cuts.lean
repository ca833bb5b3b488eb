import PubSub.Base.Text
import PubSub.Utf8

/-!
# Texts that arrive in parts

The UTF-8 form of a text is cut into parts and each part is decoded on its own. A part that ends or
starts inside a character decodes to too many characters: every character has one byte that starts
it, no step of lossy decoding takes two such bytes, and a step that takes none of them makes a
character all the same. So the parts decode to the text exactly if no cut is inside a character.
-/

namespace PubSub
set_option autoImplicit false
open Base.Text

/-- The characters that `from_utf8_lossy` makes of a part. -/
def lossy (part : List UInt8) : List Char := (fromUtf8Lossy part.toByteArray).toList

theorem lossy_eq (part : List UInt8) : lossy part = lossyChars part.length part := by
  rw [lossy, fromUtf8Lossy, String.toList_ofList, List.size_toByteArray, List.data_toByteArray]

/-! ## Parts that are texts -/

theorem toByteArray_bytes (s : String) : (bytes s.toList).toByteArray = s.toUTF8 := by
  rw [String.toUTF8_eq_toByteArray, ← String.utf8Encode_toList]
  rfl

/-- Valid UTF-8 is the form of a text, and is decoded to it. -/
theorem bytes_lossy {part : List UInt8} (valid : part.toByteArray.IsValidUTF8) : bytes (lossy part) = part := by
  have whole := toByteArray_bytes (fromUtf8Lossy part.toByteArray)
  rw [toUTF8_fromUtf8Lossy_iff.2 valid] at whole
  have data := congrArg (fun b : ByteArray => b.data.toList) whole
  simp only [List.data_toByteArray] at data
  exact data

theorem lossy_bytes (cs : List Char) : lossy (bytes cs) = cs := by
  have encoded := toByteArray_bytes (String.ofList cs)
  rw [String.toList_ofList] at encoded
  rw [lossy, encoded, fromUtf8Lossy_toUTF8, String.toList_ofList]

theorem isValidUTF8_bytes (cs : List Char) : (bytes cs).toByteArray.IsValidUTF8 := by
  have encoded := toByteArray_bytes (String.ofList cs)
  rw [String.toList_ofList] at encoded
  rw [encoded]
  exact (String.ofList cs).isValidUTF8

/-- Texts with the same form are the same. -/
theorem bytes_inj {cs ds : List Char} (same : bytes cs = bytes ds) : cs = ds := by
  rw [← lossy_bytes cs, same, lossy_bytes]

/-- Parts that are texts decode to the whole. -/
theorem flatMap_lossy {parts : List (List UInt8)} (valid : ∀ part ∈ parts, part.toByteArray.IsValidUTF8)
    {text : List Char} (whole : parts.flatten = bytes text) : parts.flatMap lossy = text := by
  apply bytes_inj
  rw [← whole]
  clear whole
  induction parts with
  | nil => rfl
  | cons part parts ih =>
    obtain ⟨first, others⟩ := List.forall_mem_cons.1 valid
    rw [List.flatMap_cons, List.flatten_cons, bytes_append, bytes_lossy first, ih others]

/-! ## Bytes that start characters -/

/-- The number of bytes that are no continuation. -/
def starts (part : List UInt8) : Nat := part.countP fun b => ! isContinuation b

theorem starts_append (as bs : List UInt8) : starts (as ++ bs) = starts as + starts bs := List.countP_append

theorem not_continuation : (∀ x < 0x80, isContinuation (UInt8.ofNat x) = false) ∧
    (∀ x < 0x20, isContinuation (UInt8.ofNat (x + 0xC0)) = false) ∧
    (∀ x < 0x10, isContinuation (UInt8.ofNat (x + 0xE0)) = false) ∧
    ∀ x < 0x08, isContinuation (UInt8.ofNat (x + 0xF0)) = false := by decide

/-- Only the first byte of a character starts one. -/
theorem exists_encodeChar (c : Char) : ∃ first rest, String.utf8EncodeChar c = first :: rest ∧
    isContinuation first = false ∧ ∀ b ∈ rest, isContinuation b = true := by
  obtain ⟨one, two, three, four⟩ := not_continuation
  have follows : ∀ n, isContinuation (UInt8.ofNat (n % 0x40 + 0x80)) = true :=
    fun n => (continuation (n % 0x40) (Nat.mod_lt _ (by omega))).1
  unfold String.utf8EncodeChar
  generalize c.val.toNat = v
  dsimp only
  split
  · exact ⟨_, _, rfl, one v (by omega), nofun⟩
  · split
    · refine ⟨_, _, rfl, two (v / 64 % 0x20) (by omega), ?_⟩
      intro b here
      obtain rfl := List.mem_singleton.1 here
      exact follows v
    · split
      · refine ⟨_, _, rfl, three (v / 4096 % 0x10) (by omega), ?_⟩
        intro b here
        rcases List.mem_cons.1 here with rfl | last
        · exact follows (v / 64)
        · obtain rfl := List.mem_singleton.1 last
          exact follows v
      · refine ⟨_, _, rfl, four (v / 262144 % 0x08) (by omega), ?_⟩
        intro b here
        rcases List.mem_cons.1 here with rfl | later
        · exact follows (v / 4096)
        · rcases List.mem_cons.1 later with rfl | last
          · exact follows (v / 64)
          · obtain rfl := List.mem_singleton.1 last
            exact follows v

theorem starts_bytes (cs : List Char) : starts (bytes cs) = cs.length := by
  induction cs with
  | nil => rfl
  | cons c cs ih =>
    obtain ⟨first, rest, encoded, start, others⟩ := exists_encodeChar c
    have none : rest.countP (fun b => ! isContinuation b) = 0 := by
      rw [List.countP_eq_zero]
      intro b here
      rw [others b here]
      exact Bool.false_ne_true
    rw [bytes, List.flatMap_cons, ← bytes, starts_append, ih, encoded, starts, List.countP_cons, none, start,
      List.length_cons]
    exact Nat.add_comm _ _

/-- A step of lossy decoding takes continuation bytes only, besides the byte it starts at. -/
theorem exists_taken (b : UInt8) (rest : List UInt8) : ∃ taken, rest = taken ++ (lossyChar b rest).2 ∧
    ∀ x ∈ taken, isContinuation x = true := by
  have second : ∀ {x}, isSecondByte b x = true → isContinuation x = true :=
    fun valid => (Bool.and_eq_true_iff.1 valid).1
  have nothing : ∃ taken, rest = taken ++ rest ∧ ∀ x ∈ taken, isContinuation x = true := ⟨[], rfl, nofun⟩
  unfold lossyChar
  split
  · exact nothing
  · split
    · rename_i x _ _ valid
      exact ⟨[x], rfl, by simpa using valid⟩
    · exact nothing
  · split
    · rename_i x _ _ valid
      split
      · split
        · rename_i y _ valid'
          exact ⟨[x, y], rfl, by simpa using ⟨second valid, valid'⟩⟩
        · exact ⟨[x], rfl, by simpa using second valid⟩
      · exact ⟨[x], rfl, by simpa using second valid⟩
    · exact nothing
  · split
    · rename_i x _ _ valid
      split
      · split
        · rename_i y _ valid'
          split
          · split
            · rename_i z _ last
              exact ⟨[x, y, z], rfl, by simpa using ⟨second valid, valid', last⟩⟩
            · exact ⟨[x, y], rfl, by simpa using ⟨second valid, valid'⟩⟩
          · exact ⟨[x, y], rfl, by simpa using ⟨second valid, valid'⟩⟩
        · exact ⟨[x], rfl, by simpa using second valid⟩
      · exact ⟨[x], rfl, by simpa using second valid⟩
    · exact nothing
  · exact nothing

theorem starts_eq_zero {part : List UInt8} (all : ∀ x ∈ part, isContinuation x = true) : starts part = 0 := by
  rw [starts, List.countP_eq_zero]
  intro x here
  rw [all x here]
  exact Bool.false_ne_true

theorem starts_le_lossyChars (n : Nat) (part : List UInt8) (enough : part.length ≤ n) :
    starts part ≤ (lossyChars n part).length := by
  induction n generalizing part with
  | zero =>
    obtain rfl := List.length_eq_zero_iff.1 (Nat.le_zero.1 enough)
    exact Nat.le_refl _
  | succ n ih =>
    cases part with
    | nil => exact Nat.le_refl _
    | cons b rest =>
      obtain ⟨taken, whole, all⟩ := exists_taken b rest
      have length := congrArg List.length whole
      have count := congrArg starts whole
      rw [List.length_append] at length
      rw [starts_append, starts_eq_zero all] at count
      have later := ih (lossyChar b rest).2 (by rw [List.length_cons] at enough; omega)
      have first : starts (b :: rest) ≤ 1 + starts rest := by
        rw [starts, List.countP_cons, ← starts]
        split
        · omega
        · omega
      rw [lossyChars, List.length_cons]
      omega

theorem starts_le_lossy (part : List UInt8) : starts part ≤ (lossy part).length := by
  rw [lossy_eq]
  exact starts_le_lossyChars _ part (Nat.le_refl _)

/-- A part that starts inside a character decodes to too many characters. -/
theorem starts_lt_lossy {b : UInt8} (inside : isContinuation b = true) (rest : List UInt8) :
    starts (b :: rest) < (lossy (b :: rest)).length := by
  obtain ⟨taken, whole, all⟩ := exists_taken b rest
  have length := congrArg List.length whole
  have count := congrArg starts whole
  rw [List.length_append] at length
  rw [starts_append, starts_eq_zero all] at count
  have later := starts_le_lossyChars rest.length (lossyChar b rest).2 (by omega)
  have first : starts (b :: rest) = starts rest := by
    rw [starts, List.countP_cons, inside, ← starts]
    rfl
  rw [lossy_eq, List.length_cons, lossyChars, List.length_cons]
  omega

/-! ## Cuts -/

/-- A cut before a byte that starts a character, or at the end, cuts the text. -/
theorem exists_cut {text : List Char} {before after : List UInt8} (whole : bytes text = before ++ after)
    (outside : ∀ b, after.head? = some b → isContinuation b = false) :
    ∃ as bs, text = as ++ bs ∧ before = bytes as ∧ after = bytes bs := by
  induction text generalizing before with
  | nil =>
    obtain ⟨rfl, rfl⟩ := List.append_eq_nil_iff.1 whole.symm
    exact ⟨[], [], rfl, rfl, rfl⟩
  | cons c text ih =>
    cases before with
    | nil => exact ⟨[], c :: text, rfl, rfl, whole.symm⟩
    | cons b before =>
      obtain ⟨first, rest, encoded, -, others⟩ := exists_encodeChar c
      rw [bytes, List.flatMap_cons, ← bytes, encoded, List.cons_append, List.cons_append, List.cons.injEq] at whole
      obtain ⟨rfl, whole⟩ := whole
      rcases List.append_eq_append_iff.1 whole with ⟨more, rfl, later⟩ | ⟨missing, rfl, rfl⟩
      · obtain ⟨as, bs, rfl, rfl, rfl⟩ := ih later
        refine ⟨c :: as, bs, rfl, ?_, rfl⟩
        rw [bytes, bytes, List.flatMap_cons, encoded, List.cons_append]
      · cases missing with
        | nil => exact ⟨[c], text, rfl, by rw [bytes, List.flatMap_singleton, encoded, List.append_nil], rfl⟩
        | cons x missing =>
          have start := outside x rfl
          rw [others x (List.mem_append_right _ List.mem_cons_self)] at start
          cases start

/-- Parts that start no continuation are texts. -/
theorem valid_of_outside {parts : List (List UInt8)} {text : List Char} (whole : parts.flatten = bytes text)
    (outside : ∀ part ∈ parts, ∀ b, part.head? = some b → isContinuation b = false) :
    ∀ part ∈ parts, part.toByteArray.IsValidUTF8 := by
  induction parts generalizing text with
  | nil => exact nofun
  | cons part parts ih =>
    obtain ⟨_, others⟩ := List.forall_mem_cons.1 outside
    have next : ∀ b, parts.flatten.head? = some b → isContinuation b = false := by
      intro b head
      rw [List.head?_flatten] at head
      obtain ⟨later, here, head⟩ := List.exists_of_findSome?_eq_some head
      exact others later here b head
    obtain ⟨as, bs, rfl, rfl, rest⟩ := exists_cut whole.symm next
    exact List.forall_mem_cons.2 ⟨isValidUTF8_bytes as, ih rest others⟩

theorem starts_flatten_le (parts : List (List UInt8)) : starts parts.flatten ≤ (parts.flatMap lossy).length := by
  induction parts with
  | nil => exact Nat.le_refl _
  | cons part parts ih =>
    have first := starts_le_lossy part
    rw [List.flatten_cons, starts_append, List.flatMap_cons, List.length_append]
    omega

/-- **The parts decode to the text exactly if each of them is a text.** -/
theorem flatMap_lossy_iff {parts : List (List UInt8)} {text : List Char} (whole : parts.flatten = bytes text) :
    parts.flatMap lossy = text ↔ ∀ part ∈ parts, part.toByteArray.IsValidUTF8 := by
  refine ⟨fun decoded => valid_of_outside whole fun part here b head => ?_, fun valid => flatMap_lossy valid whole⟩
  rw [← Bool.not_eq_true]
  intro inside
  obtain ⟨before, after, rfl⟩ := List.append_of_mem here
  obtain ⟨rest, rfl⟩ := List.head?_eq_some_iff.1 head
  have total := congrArg starts whole
  have more := starts_lt_lossy inside rest
  have first := starts_flatten_le before
  have last := starts_flatten_le after
  rw [starts_bytes, ← decoded, List.flatMap_append, List.flatMap_cons, List.flatten_append, List.flatten_cons,
    starts_append, starts_append, List.length_append, List.length_append] at total
  omega

end PubSub
