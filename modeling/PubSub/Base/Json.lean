import Mathlib.Data.List.Basic

/-!
# JSON objects of strings

A writer and a reader for JSON objects whose members are all strings, on lists of characters. The
writer escapes quotes, backslashes and control characters and nothing else; the reader takes any
such object, with whitespace, all escapes and surrogate pairs. What is written is read back.
-/

namespace Base.Json
set_option autoImplicit false

/-! ## Characters -/

def hexDigit (n : Nat) : Char := if n < 10 then Char.ofNat (48 + n) else Char.ofNat (87 + n)

def hexValue (c : Char) : Option Nat :=
  if '0' ≤ c ∧ c ≤ '9' then some (c.toNat - 48)
  else if 'a' ≤ c ∧ c ≤ 'f' then some (c.toNat - 87)
  else if 'A' ≤ c ∧ c ≤ 'F' then some (c.toNat - 55)
  else none

/-- Four hexadecimal digits. -/
def readHex : List Char → Option (Nat × List Char)
  | a :: b :: c :: d :: text => do
    let a ← hexValue a
    let b ← hexValue b
    let c ← hexValue c
    let d ← hexValue d
    some (((a * 16 + b) * 16 + c) * 16 + d, text)
  | _ => none

/-- The second half of a surrogate pair. -/
def readLowSurrogate (high : Nat) : List Char → Option (Char × List Char)
  | '\\' :: 'u' :: text => do
    let (low, text) ← readHex text
    if 0xDC00 ≤ low ∧ low < 0xE000 then
      some (Char.ofNat (0x10000 + (high - 0xD800) * 0x400 + (low - 0xDC00)), text)
    else none
  | _ => none

/-- What stands after a backslash. -/
def readEscape : List Char → Option (Char × List Char)
  | '"' :: text => some ('"', text)
  | '\\' :: text => some ('\\', text)
  | '/' :: text => some ('/', text)
  | 'b' :: text => some ('\x08', text)
  | 'f' :: text => some ('\x0c', text)
  | 'n' :: text => some ('\n', text)
  | 'r' :: text => some ('\r', text)
  | 't' :: text => some ('\t', text)
  | 'u' :: text => do
    let (n, text) ← readHex text
    if n < 0xD800 ∨ 0xE000 ≤ n then some (Char.ofNat n, text)
    else if n < 0xDC00 then readLowSurrogate n text
    else none
  | _ => none

/-- One character of a string; none at the closing quote. -/
def readChar : List Char → Option (Char × List Char)
  | [] => none
  | c :: text =>
    if c = '\\' then readEscape text
    else if c = '"' ∨ c.toNat < 32 then none
    else some (c, text)

def writeChar (c : Char) : List Char :=
  if c = '"' then ['\\', '"']
  else if c = '\\' then ['\\', '\\']
  else if c = '\x08' then ['\\', 'b']
  else if c = '\x0c' then ['\\', 'f']
  else if c = '\n' then ['\\', 'n']
  else if c = '\r' then ['\\', 'r']
  else if c = '\t' then ['\\', 't']
  else if c.toNat < 32 then ['\\', 'u', '0', '0', hexDigit (c.toNat / 16), hexDigit (c.toNat % 16)]
  else [c]

theorem hexValue_hexDigit : ∀ n < 16, hexValue (hexDigit n) = some n := by decide

theorem readHex_byte {n : Nat} (small : n < 256) (text : List Char) :
    readHex ('0' :: '0' :: hexDigit (n / 16) :: hexDigit (n % 16) :: text) = some (n, text) := by
  have high := hexValue_hexDigit (n / 16) (by omega)
  have low := hexValue_hexDigit (n % 16) (by omega)
  have zero : hexValue '0' = some 0 := by decide
  have whole : n / 16 * 16 + n % 16 = n := by omega
  simp [readHex, zero, high, low, whole]

theorem readChar_writeChar (c : Char) (text : List Char) :
    readChar (writeChar c ++ text) = some (c, text) := by
  unfold writeChar
  by_cases quote : c = '"'
  · subst quote; rfl
  by_cases backslash : c = '\\'
  · subst backslash; rfl
  by_cases backspace : c = '\x08'
  · subst backspace; rfl
  by_cases formFeed : c = '\x0c'
  · subst formFeed; rfl
  by_cases newline : c = '\n'
  · subst newline; rfl
  by_cases carriageReturn : c = '\r'
  · subst carriageReturn; rfl
  by_cases tab : c = '\t'
  · subst tab; rfl
  rw [if_neg quote, if_neg backslash, if_neg backspace, if_neg formFeed, if_neg newline,
    if_neg carriageReturn, if_neg tab]
  by_cases control : c.toNat < 32
  · have byte := readHex_byte (show c.toNat < 256 by omega) text
    have plain : c.toNat < 0xD800 ∨ 0xE000 ≤ c.toNat := by omega
    rw [if_pos control]
    simp only [List.cons_append, List.nil_append, readChar, if_true, readEscape, byte, Option.bind_eq_bind,
      Option.bind_some, if_pos plain, Char.ofNat_toNat]
  · rw [if_neg control]
    simp [readChar, quote, backslash, control]

/-- No written character looks like the end of a string. -/
theorem writeChar_ne_quote (c : Char) : ∃ first rest, writeChar c = first :: rest ∧ first ≠ '"' := by
  have escape : ∀ (p : Prop) [Decidable p] (rest other : List Char),
      (∃ first rest', other = first :: rest' ∧ first ≠ '"') →
        ∃ first rest', (if p then '\\' :: rest else other) = first :: rest' ∧ first ≠ '"' := by
    intro p _ rest other plain
    split
    · exact ⟨'\\', rest, rfl, by decide⟩
    · exact plain
  unfold writeChar
  by_cases quote : c = '"'
  · exact ⟨'\\', ['"'], if_pos quote, by decide⟩
  · rw [if_neg quote]
    iterate 7 apply escape
    exact ⟨c, [], rfl, quote⟩

/-! ## Strings -/

def writeString (s : List Char) : List Char := '"' :: (s.flatMap writeChar ++ ['"'])

/-- The rest of a string, of less than `n` characters. -/
def readRest : Nat → List Char → Option (List Char × List Char)
  | 0, _ => none
  | _ + 1, '"' :: text => some ([], text)
  | n + 1, text => do
    let (c, text) ← readChar text
    let (s, text) ← readRest n text
    some (c :: s, text)

def skipSpaces (text : List Char) : List Char :=
  text.dropWhile fun c => c = ' ' ∨ c = '\n' ∨ c = '\r' ∨ c = '\t'

def expect (c : Char) (text : List Char) : Option (List Char) :=
  match skipSpaces text with
  | [] => none
  | d :: text => if d = c then some text else none

def readString (text : List Char) : Option (List Char × List Char) := do
  let text ← expect '"' text
  readRest (text.length + 1) text

theorem readRest_writeChars (s text : List Char) :
    ∀ n, s.length < n → readRest n (s.flatMap writeChar ++ '"' :: text) = some (s, text) := by
  induction s with
  | nil =>
    intro n enough
    obtain ⟨n, rfl⟩ : ∃ m, n = m + 1 := ⟨n - 1, by omega⟩
    rfl
  | cons c s ih =>
    intro n enough
    obtain ⟨n, rfl⟩ : ∃ m, n = m + 1 := ⟨n - 1, by omega⟩
    obtain ⟨first, rest, written, other⟩ := writeChar_ne_quote c
    have head := readChar_writeChar c (s.flatMap writeChar ++ '"' :: text)
    have tail := ih n (by rw [List.length_cons] at enough; omega)
    rw [List.flatMap_cons, List.append_assoc]
    rw [written, List.cons_append] at head ⊢
    rw [readRest]
    · simp only [head, Option.bind_eq_bind, Option.bind_some, tail]
    · rintro _ ⟨⟩
      exact other rfl

/-- Every character takes at least one. -/
theorem length_le_flatMap_writeChar (s : List Char) : s.length ≤ (s.flatMap writeChar).length := by
  induction s with
  | nil => exact Nat.le_refl _
  | cons c s ih =>
    obtain ⟨first, rest, written, -⟩ := writeChar_ne_quote c
    rw [List.flatMap_cons, List.length_append, List.length_cons, written, List.length_cons]
    omega

theorem readString_writeString (s text : List Char) : readString (writeString s ++ text) = some (s, text) := by
  have enough := length_le_flatMap_writeChar s
  have start : expect '"' (writeString s ++ text) = some (s.flatMap writeChar ++ '"' :: text) := by
    simp [expect, skipSpaces, writeString]
  rw [readString, start, Option.bind_eq_bind, Option.bind_some]
  apply readRest_writeChars
  rw [List.length_append]
  omega

/-! ## Objects -/

abbrev Members := List (List Char × List Char)

def writeMember (m : List Char × List Char) : List Char := writeString m.1 ++ ':' :: writeString m.2

/-- All members but the first, and the end. -/
def writeMore : Members → List Char
  | [] => ['}']
  | m :: ms => ',' :: (writeMember m ++ writeMore ms)

def writeObject : Members → List Char
  | [] => ['{', '}']
  | m :: ms => '{' :: (writeMember m ++ writeMore ms)

def readMember (text : List Char) : Option ((List Char × List Char) × List Char) := do
  let (key, text) ← readString text
  let text ← expect ':' text
  let (value, text) ← readString text
  some ((key, value), text)

/-- Less than `n` further members, and the end. -/
def readMore : Nat → List Char → Option (Members × List Char)
  | 0, _ => none
  | n + 1, text =>
    match expect '}' text with
    | some text => some ([], text)
    | none => do
      let text ← expect ',' text
      let (m, text) ← readMember text
      let (ms, text) ← readMore n text
      some (m :: ms, text)

/-- A whole text. -/
def readObject (text : List Char) : Option Members := do
  let text ← expect '{' text
  let (ms, text) ←
    match expect '}' text with
    | some text => some ([], text)
    | none => do
      let (m, text) ← readMember text
      let (ms, text) ← readMore (text.length + 1) text
      some (m :: ms, text)
  if skipSpaces text = [] then some ms else none

theorem readMember_writeMember (m : List Char × List Char) (text : List Char) :
    readMember (writeMember m ++ text) = some (m, text) := by
  have colon (text : List Char) : expect ':' (':' :: text) = some text := rfl
  rw [readMember, writeMember, List.append_assoc, List.cons_append, readString_writeString]
  simp only [Option.bind_eq_bind, Option.bind_some, colon, readString_writeString]

theorem readMore_writeMore (ms : Members) (text : List Char) :
    ∀ n, ms.length < n → readMore n (writeMore ms ++ text) = some (ms, text) := by
  induction ms with
  | nil =>
    intro n enough
    obtain ⟨n, rfl⟩ : ∃ m, n = m + 1 := ⟨n - 1, by omega⟩
    rfl
  | cons m ms ih =>
    intro n enough
    obtain ⟨n, rfl⟩ : ∃ m, n = m + 1 := ⟨n - 1, by omega⟩
    have tail := ih n (by rw [List.length_cons] at enough; omega)
    have more (text : List Char) : expect '}' (',' :: text) = none := rfl
    have comma (text : List Char) : expect ',' (',' :: text) = some text := rfl
    rw [writeMore, List.cons_append, List.append_assoc, readMore]
    simp only [more, comma, Option.bind_eq_bind, Option.bind_some, readMember_writeMember, tail]

theorem length_le_writeMore (ms : Members) : ms.length ≤ (writeMore ms).length := by
  induction ms with
  | nil => exact Nat.zero_le _
  | cons m ms ih =>
    rw [writeMore, List.length_cons, List.length_cons, List.length_append]
    omega

/-- **What is written is read back.** -/
theorem readObject_writeObject (ms : Members) : readObject (writeObject ms) = some ms := by
  cases ms with
  | nil => rfl
  | cons m ms =>
    have tail := readMore_writeMore ms [] ((writeMore ms).length + 1)
      (Nat.lt_succ_of_le (length_le_writeMore ms))
    have brace (text : List Char) : expect '{' ('{' :: text) = some text := rfl
    have some' : expect '}' (writeMember m ++ writeMore ms) = none := rfl
    rw [List.append_nil] at tail
    simp only [readObject, writeObject, brace, some', Option.bind_eq_bind, Option.bind_some,
      readMember_writeMember, tail]
    rfl

end Base.Json
