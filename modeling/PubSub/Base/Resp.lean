import PubSub.Base.Decimal
import PubSub.Base.Text

/-!
# Replies in RESP2

A reader of replies. A reply starts with a mark and a line. Bulk strings and arrays give their length
on that line, so what stands in them is not looked at. Like other readers this one gives up on arrays
that are nested too deep.
-/

namespace Base.Resp
set_option autoImplicit false
open Base.Text

/-- A reply; texts are bytes. -/
inductive Reply where
  | simple (line : List UInt8)
  | error (line : List UInt8)
  | integer (n : Int)
  | bulk (content : List UInt8)
  | array (items : List Reply)
  /-- A bulk string or an array that is not there. -/
  | null

/-! ## The reader -/

/-- What stands before the first line end, and the rest. -/
def readLine : List UInt8 → Option (List UInt8 × List UInt8)
  | [] => none
  | b :: rest =>
    if b = '\r'.toUInt8 ∧ rest.head? = some '\n'.toUInt8 then some ([], rest.tail)
    else (readLine rest).map fun parts => (b :: parts.1, parts.2)

def readNumber (line : List UInt8) : Option Nat := Decimal.read (line.map Char.ofUInt8)

def readInteger (line : List UInt8) : Option Int :=
  if line.head? = some '-'.toUInt8 then (readNumber line.tail).map fun n => -(n : Int)
  else if line.head? = some '+'.toUInt8 then (readNumber line.tail).map Int.ofNat
  else (readNumber line).map Int.ofNat

/-- A length, or the `-1` of what is not there. -/
def readLength (line : List UInt8) : Option (Option Nat) :=
  if line = ['-'.toUInt8, '1'.toUInt8] then some none else (readNumber line).map some

/-- So many bytes and a line end. -/
def readContent (length : Nat) (input : List UInt8) : Option (List UInt8 × List UInt8) :=
  if (input.drop length).take 2 = bytes crlf then some (input.take length, input.drop (length + 2)) else none

def readItems (item : List UInt8 → Option (Reply × List UInt8)) : Nat → List UInt8 → Option (List Reply × List UInt8)
  | 0, input => some ([], input)
  | n + 1, input =>
    (item input).bind fun first =>
      (readItems item n first.2).map fun others => (first.1 :: others.1, others.2)

/-- A reply whose items, if it is an array, are read like this. -/
def readWith (item : List UInt8 → Option (Reply × List UInt8)) : List UInt8 → Option (Reply × List UInt8)
  | [] => none
  | mark :: input =>
    (readLine input).bind fun (line, rest) =>
      if mark = '+'.toUInt8 then some (.simple line, rest)
      else if mark = '-'.toUInt8 then some (.error line, rest)
      else if mark = ':'.toUInt8 then (readInteger line).map fun n => (.integer n, rest)
      else if mark = '$'.toUInt8 then
        (readLength line).bind fun
          | some length => (readContent length rest).map fun parts => (.bulk parts.1, parts.2)
          | none => some (.null, rest)
      else if mark = '*'.toUInt8 then
        (readLength line).bind fun
          | some length => (readItems item length rest).map fun parts => (.array parts.1, parts.2)
          | none => some (.null, rest)
      else none

/-- A reply with arrays at most so deep, and the rest. -/
def read : Nat → List UInt8 → Option (Reply × List UInt8)
  | 0 => readWith fun _ => none
  | depth + 1 => readWith (read depth)

/-- These bytes are read as this reply, whatever follows. -/
def Reads (depth : Nat) (text : List UInt8) (reply : Reply) : Prop :=
  ∀ rest, read depth (text ++ rest) = some (reply, rest)

/-! ## What is read -/

theorem readLine_append {line : List UInt8} (unbroken : '\r'.toUInt8 ∉ line) (rest : List UInt8) :
    readLine (line ++ (bytes crlf ++ rest)) = some (line, rest) := by
  induction line with
  | nil => rfl
  | cons b line ih =>
    rw [List.mem_cons, not_or] at unbroken
    rw [List.cons_append, readLine, if_neg fun here => unbroken.1 here.1.symm, ih unbroken.2]
    rfl

/-! ## Numerals -/

theorem ofUInt8_toUInt8 {c : Char} (ascii : c.utf8Size = 1) : Char.ofUInt8 c.toUInt8 = c := by
  have small := UInt32.le_iff_toNat_le.1 (Char.utf8Size_eq_one_iff.1 ascii)
  have most : (127 : UInt32).toNat = 127 := rfl
  apply Char.ext
  apply UInt32.toNat_inj.1
  show c.val.toUInt8.toUInt32.toNat = c.val.toNat
  rw [UInt8.toNat_toUInt32, UInt32.toNat_toUInt8]
  omega

theorem bytes_of_ascii {cs : List Char} (ascii : ∀ c ∈ cs, c.utf8Size = 1) : bytes cs = cs.map Char.toUInt8 := by
  induction cs with
  | nil => rfl
  | cons c cs ih =>
    obtain ⟨first, others⟩ := List.forall_mem_cons.1 ascii
    rw [bytes, List.flatMap_cons, ← bytes, ih others, String.utf8EncodeChar_eq_singleton first]
    rfl

theorem utf8Size_of_mem_toDigits {n : Nat} {c : Char} (here : c ∈ Nat.toDigits 10 n) : c.utf8Size = 1 := by
  have digit := Decimal.isDigit_of_mem here
  rw [Char.isDigit, Bool.and_eq_true, decide_eq_true_eq, decide_eq_true_eq] at digit
  exact Char.utf8Size_eq_one_iff.2 (UInt32.le_trans digit.2 (by decide))

/-- The bytes of a numeral are those of its digits. -/
theorem ofUInt8_bytes_toDigits (n : Nat) : (bytes (Nat.toDigits 10 n)).map Char.ofUInt8 = Nat.toDigits 10 n := by
  rw [bytes_of_ascii fun c here => utf8Size_of_mem_toDigits here, List.map_map]
  conv_rhs => rw [← List.map_id (Nat.toDigits 10 n)]
  apply List.map_congr_left
  intro c here
  exact ofUInt8_toUInt8 (utf8Size_of_mem_toDigits here)

theorem readNumber_toDigits (n : Nat) : readNumber (bytes (Nat.toDigits 10 n)) = some n := by
  rw [readNumber, ofUInt8_bytes_toDigits, Decimal.read_toDigits]

/-- Only digits stand in a numeral. -/
theorem isDigit_of_mem_bytes {n : Nat} {b : UInt8} (here : b ∈ bytes (Nat.toDigits 10 n)) :
    (Char.ofUInt8 b).isDigit := by
  apply Decimal.isDigit_of_mem (n := n)
  rw [← ofUInt8_bytes_toDigits]
  exact List.mem_map_of_mem here

theorem readLength_toDigits (n : Nat) : readLength (bytes (Nat.toDigits 10 n)) = some (some n) := by
  rw [readLength, if_neg, readNumber_toDigits, Option.map_some]
  intro negative
  have here : '-'.toUInt8 ∈ bytes (Nat.toDigits 10 n) := by
    rw [negative]
    exact List.mem_cons_self
  exact absurd (isDigit_of_mem_bytes here) (by decide)

/-! ## Strings and arrays -/

/-- The first line of a reply with a length. -/
def header (mark : Char) (n : Nat) : List UInt8 := bytes (mark :: (Nat.toDigits 10 n ++ crlf))

theorem readLine_header (n : Nat) (rest : List UInt8) :
    readLine (bytes (Nat.toDigits 10 n) ++ (bytes crlf ++ rest)) = some (bytes (Nat.toDigits 10 n), rest) := by
  apply readLine_append
  intro here
  exact absurd (isDigit_of_mem_bytes here) (by decide)

theorem header_append {mark : Char} (ascii : mark.utf8Size = 1) (n : Nat) (rest : List UInt8) :
    header mark n ++ rest = mark.toUInt8 :: (bytes (Nat.toDigits 10 n) ++ (bytes crlf ++ rest)) := by
  rw [header, bytes, List.flatMap_cons, ← bytes, bytes_append, String.utf8EncodeChar_eq_singleton ascii,
    List.append_assoc, List.append_assoc]
  rfl

theorem readContent_append (content rest : List UInt8) :
    readContent content.length (content ++ (bytes crlf ++ rest)) = some (content, rest) := by
  have length : (bytes crlf).length = 2 := rfl
  rw [readContent, List.drop_left, ← length, List.take_left, if_pos rfl, List.take_left,
    ← List.append_assoc, ← List.length_append, List.drop_left]

/-- **A bulk string is read, whatever its content.** -/
theorem reads_bulk (depth : Nat) (content : List UInt8) :
    Reads depth (header '$' content.length ++ (content ++ bytes crlf)) (.bulk content) := by
  have one : ∀ item rest,
      readWith item (header '$' content.length ++ (content ++ bytes crlf) ++ rest) = some (.bulk content, rest) := by
    intro item rest
    rw [List.append_assoc, List.append_assoc, header_append rfl, readWith, readLine_header, Option.bind_some]
    show (readLength _).bind _ = _
    rw [readLength_toDigits, Option.bind_some]
    show (readContent _ _).map _ = _
    rw [readContent_append]
    rfl
  intro rest
  cases depth with
  | zero => exact one _ rest
  | succ depth => exact one _ rest

theorem readItems_append {depth : Nat} {texts : List (List UInt8)} {items : List Reply}
    (each : List.Forall₂ (Reads depth) texts items) (rest : List UInt8) :
    readItems (read depth) items.length (texts.flatten ++ rest) = some (items, rest) := by
  induction each with
  | nil => rfl
  | cons first _ ih =>
    rw [List.flatten_cons, List.append_assoc, List.length_cons, readItems, first, Option.bind_some, ih]
    rfl

/-- **An array is read if its items are.** -/
theorem reads_array {depth : Nat} {texts : List (List UInt8)} {items : List Reply}
    (each : List.Forall₂ (Reads depth) texts items) :
    Reads (depth + 1) (header '*' items.length ++ texts.flatten) (.array items) := by
  intro rest
  rw [List.append_assoc, header_append rfl, read, readWith, readLine_header, Option.bind_some]
  show (readLength _).bind _ = _
  rw [readLength_toDigits, Option.bind_some]
  show (readItems _ _ _).map _ = _
  rw [readItems_append each]
  rfl

/-! ## Replies of one line -/

theorem reads_simple (depth : Nat) {line : List Char} (unbroken : '\r'.toUInt8 ∉ bytes line) :
    Reads depth (bytes ('+' :: (line ++ crlf))) (.simple (bytes line)) := by
  have one : ∀ item rest, readWith item (bytes ('+' :: (line ++ crlf)) ++ rest) = some (.simple (bytes line), rest) := by
    intro item rest
    have split : bytes ('+' :: (line ++ crlf)) ++ rest = '+'.toUInt8 :: (bytes line ++ (bytes crlf ++ rest)) := by
      rw [bytes, List.flatMap_cons, ← bytes, bytes_append, List.append_assoc, List.append_assoc]
      rfl
    rw [split, readWith, readLine_append unbroken, Option.bind_some]
    rfl
  intro rest
  cases depth with
  | zero => exact one _ rest
  | succ depth => exact one _ rest

theorem readInteger_toDigits (n : Nat) : readInteger (bytes (Nat.toDigits 10 n)) = some (n : Int) := by
  have other : ∀ b : UInt8, (Char.ofUInt8 b).isDigit = false → ¬ (bytes (Nat.toDigits 10 n)).head? = some b := by
    intro b mark first
    rw [isDigit_of_mem_bytes (List.mem_of_mem_head? first)] at mark
    cases mark
  rw [readInteger, if_neg (other _ (by decide)), if_neg (other _ (by decide)), readNumber_toDigits]
  rfl

theorem reads_integer (depth n : Nat) : Reads depth (header ':' n) (.integer n) := by
  have one : ∀ item rest, readWith item (header ':' n ++ rest) = some (.integer n, rest) := by
    intro item rest
    rw [header_append rfl, readWith, readLine_header, Option.bind_some]
    show (readInteger _).map _ = _
    rw [readInteger_toDigits]
    rfl
  intro rest
  cases depth with
  | zero => exact one _ rest
  | succ depth => exact one _ rest

theorem reads_null (depth : Nat) : Reads depth (bytes ('$' :: '-' :: '1' :: crlf)) .null := by
  intro rest
  cases depth <;> rfl

/-! ## Several replies -/

/-- These bytes are read as these replies one after the other, whatever follows. -/
def ReadsAll (depth : Nat) (text : List UInt8) (replies : List Reply) : Prop :=
  ∀ rest, readItems (read depth) replies.length (text ++ rest) = some (replies, rest)

theorem readsAll_nil (depth : Nat) : ReadsAll depth [] [] := fun _ => rfl

theorem Reads.cons {depth : Nat} {text texts : List UInt8} {reply : Reply} {replies : List Reply}
    (first : Reads depth text reply) (others : ReadsAll depth texts replies) :
    ReadsAll depth (text ++ texts) (reply :: replies) := by
  intro rest
  rw [List.append_assoc, List.length_cons, readItems, first, Option.bind_some, others]
  rfl

theorem Reads.single {depth : Nat} {text : List UInt8} {reply : Reply} (one : Reads depth text reply) :
    ReadsAll depth text [reply] := by
  have read := one.cons (readsAll_nil depth)
  rwa [List.append_nil] at read

theorem ReadsAll.append {depth : Nat} {text text' : List UInt8} {replies replies' : List Reply}
    (first : ReadsAll depth text replies) (second : ReadsAll depth text' replies') :
    ReadsAll depth (text ++ text') (replies ++ replies') := by
  have split : ∀ (n m : Nat) (input : List UInt8), readItems (read depth) (n + m) input =
      (readItems (read depth) n input).bind fun s =>
        (readItems (read depth) m s.2).map fun s' => (s.1 ++ s'.1, s'.2) := by
    intro n m
    induction n with
    | zero =>
      intro input
      rw [Nat.zero_add, readItems, Option.bind_some]
      cases readItems (read depth) m input <;> rfl
    | succ n ih =>
      intro input
      rw [Nat.succ_add, readItems, readItems]
      cases read depth input with
      | none => rfl
      | some r =>
        rw [Option.bind_some, Option.bind_some, ih]
        cases readItems (read depth) n r.2 with
        | none => rfl
        | some s =>
          rw [Option.bind_some, Option.map_some, Option.bind_some]
          cases readItems (read depth) m s.2 <;> rfl
  intro rest
  rw [List.append_assoc, List.length_append, split, first, Option.bind_some, second]
  rfl

end Base.Resp
