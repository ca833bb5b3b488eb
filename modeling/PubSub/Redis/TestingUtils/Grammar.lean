import PubSub.Redis.TestingUtils.Parser

/-!
# What the mock server's parser accepts

Headers, tokens and frames as relations on texts that do not mention the parser, and for each
function of the parser exactly when it returns something and exactly when it fails. Everything
else about the parser is proved from these.
-/

namespace PubSub.Redis.TestingUtils
set_option autoImplicit false
open Base Base.Text

/-! ## Computations that may fail -/

section Failing

variable {α β : Type} {x : Except Failure α} {f : α → Except Failure β}

def Fails (x : Except Failure α) : Prop := ∃ e, x = .error e

theorem bind_eq_ok_iff {b : β} : x >>= f = .ok b ↔ ∃ a, x = .ok a ∧ f a = .ok b := by
  cases x with
  | error e => exact iff_of_false nofun nofun
  | ok a => exact ⟨fun done => ⟨a, rfl, done⟩, fun ⟨_, same, done⟩ => Except.ok.inj same ▸ done⟩

theorem fails_bind_iff : Fails (x >>= f) ↔ Fails x ∨ ∃ a, x = .ok a ∧ Fails (f a) := by
  cases x with
  | error e => exact iff_of_true ⟨e, rfl⟩ (.inl ⟨e, rfl⟩)
  | ok a =>
    constructor
    · exact fun failed => .inr ⟨a, rfl, failed⟩
    · rintro (⟨e, none⟩ | ⟨_, same, failed⟩)
      · cases none
      · exact Except.ok.inj same ▸ failed

theorem not_fails_ok {a : α} : ¬ Fails (.ok a) := fun ⟨_, failed⟩ => nomatch failed

theorem not_fails_iff : ¬ Fails x ↔ ∃ a, x = .ok a := by
  cases x with
  | error e => exact iff_of_false (fun none => none ⟨e, rfl⟩) nofun
  | ok a => exact iff_of_true not_fails_ok ⟨a, rfl⟩

end Failing

/-! ## Slices -/

section Slices

variable {n : Nat} {input part : List Char}

theorem sliceTo_eq_ok_iff : sliceTo n input = .ok part ↔ ∃ rest, input = part ++ rest ∧ byteLen part = n := by
  simp only [← splitAt_eq_some_iff]
  rw [sliceTo]
  cases splitAt n input with
  | none => exact iff_of_false nofun nofun
  | some parts => simp [Prod.ext_iff]

theorem sliceFrom_eq_ok_iff : sliceFrom n input = .ok part ↔ ∃ start, input = start ++ part ∧ byteLen start = n := by
  simp only [← splitAt_eq_some_iff]
  rw [sliceFrom]
  cases splitAt n input with
  | none => exact iff_of_false nofun nofun
  | some parts => simp [Prod.ext_iff]

theorem fails_sliceTo_iff : Fails (sliceTo n input) ↔ ¬ Boundary n input := by
  rw [← splitAt_eq_none_iff, sliceTo]
  cases splitAt n input with
  | none => exact iff_of_true ⟨_, rfl⟩ rfl
  | some parts => exact iff_of_false not_fails_ok nofun

theorem fails_sliceFrom_iff : Fails (sliceFrom n input) ↔ ¬ Boundary n input := by
  rw [← splitAt_eq_none_iff, sliceFrom]
  cases splitAt n input with
  | none => exact iff_of_true ⟨_, rfl⟩ rfl
  | some parts => exact iff_of_false not_fails_ok nofun

theorem sliceTo_append (start rest : List Char) : sliceTo (byteLen start) (start ++ rest) = .ok start :=
  sliceTo_eq_ok_iff.2 ⟨rest, rfl, rfl⟩

theorem sliceFrom_append (start rest : List Char) : sliceFrom (byteLen start) (start ++ rest) = .ok rest :=
  sliceFrom_eq_ok_iff.2 ⟨start, rfl, rfl⟩

end Slices

/-! ## Lines -/

section Lines

variable {input line rest : List Char}

theorem splitLine_of_line (unbroken : ¬ crlf <:+: line) (rest : List Char) :
    splitLine (line ++ (crlf ++ rest)) = .ok (some (line, rest)) := by
  have past : sliceFrom (byteLen line + 2) (line ++ (crlf ++ rest)) = .ok rest := by
    have := sliceFrom_append (line ++ crlf) rest
    rwa [byteLen_append, byteLen_crlf, List.append_assoc] at this
  rw [splitLine, find_crlf unbroken]
  simp only [sliceTo_append, past]
  rfl

theorem splitLine_of_no_line (unbroken : ¬ crlf <:+: input) : splitLine input = .ok none := by
  rw [splitLine, find_eq_none_iff.2 unbroken]

/-- Slicing at a line end never fails. -/
theorem splitLine_cases (input : List Char) : (¬ crlf <:+: input ∧ splitLine input = .ok none) ∨
    ∃ line rest, input = line ++ (crlf ++ rest) ∧ ¬ crlf <:+: line ∧ splitLine input = .ok (some (line, rest)) := by
  cases found : find crlf input with
  | none =>
    have unbroken := find_eq_none_iff.1 found
    exact .inl ⟨unbroken, splitLine_of_no_line unbroken⟩
  | some n =>
    obtain ⟨line, rest, rfl, -, unbroken⟩ := exists_of_find_eq_some (by decide) found
    exact .inr ⟨line, rest, rfl, unbroken, splitLine_of_line unbroken rest⟩

theorem splitLine_eq_some_iff : splitLine input = .ok (some (line, rest)) ↔
    input = line ++ (crlf ++ rest) ∧ ¬ crlf <:+: line := by
  constructor
  · intro found
    rcases splitLine_cases input with ⟨-, absent⟩ | ⟨line', rest', whole, unbroken, here⟩
    · rw [absent] at found
      cases found
    · rw [here] at found
      cases found
      exact ⟨whole, unbroken⟩
  · rintro ⟨rfl, unbroken⟩
    exact splitLine_of_line unbroken rest

theorem not_fails_splitLine : ¬ Fails (splitLine input) := by
  rcases splitLine_cases input with ⟨-, absent⟩ | ⟨line, rest, -, -, here⟩
  · rw [absent]
    exact not_fails_ok
  · rw [here]
    exact not_fails_ok

end Lines

/-! ## Headers -/

/-- A number has no line end in it. -/
theorem not_crlf_of_parseUsize {text : List Char} {n : Nat} (number : parseUsize text = some n) :
    '\r' ∉ text := by
  rw [parseUsize, Option.filter_eq_some_iff] at number
  have digits := Decimal.isDigit_of_read number.1
  intro here
  split at digits
  · rename_i plus
    obtain ⟨rest, rfl⟩ := List.head?_eq_some_iff.1 plus
    rcases List.mem_cons.1 here with same | later
    · cases same
    · exact absurd (digits '\r' later) (by decide)
  · exact absurd (digits '\r' here) (by decide)

theorem parseUsize_toDigits {n : Nat} (small : n ≤ usizeMax) : parseUsize (Nat.toDigits 10 n) = some n := by
  have plain : ¬ (Nat.toDigits 10 n).head? = some '+' := by
    intro plus
    obtain ⟨rest, digits⟩ := List.head?_eq_some_iff.1 plus
    exact absurd (Decimal.isDigit_of_mem (digits ▸ List.mem_cons_self : '+' ∈ Nat.toDigits 10 n)) (by decide)
  rw [parseUsize, if_neg plain, Decimal.read_toDigits, Option.filter_some, if_pos (decide_eq_true small)]

/-- A mark and a number on a line of their own. -/
def Header (mark : Char) (input : List Char) (n : Nat) (rest : List Char) : Prop :=
  ∃ digits, parseUsize digits = some n ∧ input = mark :: (digits ++ (crlf ++ rest))

section Headers

variable {mark : Char} {input rest : List Char} {n : Nat}

theorem parseHeader_eq_some_iff (ascii : mark.utf8Size = 1) (other : mark ≠ '\r') :
    parseHeader mark input = .ok (some (n, rest)) ↔ Header mark input n rest := by
  constructor
  · intro found
    rw [parseHeader, bind_eq_ok_iff] at found
    obtain ⟨_ | ⟨line, rest'⟩, first, found⟩ := found
    · cases found
    obtain ⟨rfl, -⟩ := splitLine_eq_some_iff.1 first
    dsimp only at found
    split at found
    · cases found
    rename_i marked
    obtain ⟨text, rfl⟩ := List.head?_eq_some_iff.1 (not_not.1 marked)
    obtain ⟨digits, sliced, found⟩ := bind_eq_ok_iff.1 found
    have whole : sliceFrom 1 (mark :: text) = .ok text := by
      have := sliceFrom_append [mark] text
      rwa [byteLen_cons, ascii] at this
    obtain rfl := Except.ok.inj (whole.symm.trans sliced)
    cases number : parseUsize text with
    | none =>
      rw [number] at found
      cases found
    | some m =>
      rw [number] at found
      cases found
      exact ⟨text, number, rfl⟩
  · rintro ⟨digits, number, rfl⟩
    have line : ¬ crlf <:+: mark :: digits := by
      apply not_crlf_of_not_mem
      rw [List.mem_cons, not_or]
      exact ⟨other.symm, not_crlf_of_parseUsize number⟩
    have first := splitLine_of_line line rest
    have whole : sliceFrom 1 (mark :: digits) = .ok digits := by
      have := sliceFrom_append [mark] digits
      rwa [byteLen_cons, ascii] at this
    rw [parseHeader, ← List.cons_append, bind_eq_ok_iff]
    refine ⟨_, first, ?_⟩
    dsimp only
    rw [if_neg (by simp), bind_eq_ok_iff]
    refine ⟨digits, whole, ?_⟩
    rw [number]
    rfl

theorem not_fails_parseHeader (ascii : mark.utf8Size = 1) : ¬ Fails (parseHeader mark input) := by
  rw [parseHeader, fails_bind_iff]
  rintro (failed | ⟨_ | ⟨line, rest⟩, -, failed⟩)
  · exact not_fails_splitLine failed
  · exact not_fails_ok failed
  dsimp only at failed
  split at failed
  · exact not_fails_ok failed
  rename_i marked
  obtain ⟨text, rfl⟩ := List.head?_eq_some_iff.1 (not_not.1 marked)
  rcases fails_bind_iff.1 failed with failed | ⟨digits, -, failed⟩
  · exact fails_sliceFrom_iff.1 failed ⟨[mark], text, rfl, by rw [byteLen_cons, ascii, byteLen_nil]⟩
  · cases number : parseUsize digits with
    | none =>
      rw [number] at failed
      exact not_fails_ok failed
    | some m =>
      rw [number] at failed
      exact not_fails_ok failed

end Headers

/-! ## Tokens -/

/-- A token with its length before it and a line end after it. -/
def Token (input : List Char) (token : String) (rest : List Char) : Prop :=
  token.utf8ByteSize + 2 ≤ usizeMax ∧ Header '$' input token.utf8ByteSize (token.toList ++ (crlf ++ rest))

/-- A declared length that cannot be added to, or that ends inside a character of a text that is long
enough. -/
def TokenFault (input : List Char) : Prop :=
  ∃ len rest, Header '$' input len rest ∧ (usizeMax < len + 2 ∨ len + 2 ≤ byteLen rest ∧ ¬ Boundary len rest)

section Tokens

variable {input rest : List Char} {len : Nat}

theorem parseBulkToken_eq_some_iff {token : List Char} : parseBulkToken input len = .ok (some (token, rest)) ↔
    len + 2 ≤ usizeMax ∧ input = token ++ (crlf ++ rest) ∧ byteLen token = len := by
  rw [parseBulkToken, addUsize]
  split
  · rename_i small
    rw [bind_eq_ok_iff]
    constructor
    · rintro ⟨_, ⟨⟩, found⟩
      split at found
      · cases found
      obtain ⟨start, first, found⟩ := bind_eq_ok_iff.1 found
      obtain ⟨suffix, second, found⟩ := bind_eq_ok_iff.1 found
      obtain ⟨after, rfl, length⟩ := sliceTo_eq_ok_iff.1 first
      obtain ⟨start', same, length'⟩ := sliceFrom_eq_ok_iff.1 second
      obtain ⟨rfl, rfl⟩ := append_inj_of_byteLen same (length.trans length'.symm)
      split at found
      · cases found
      rename_i ended
      obtain ⟨after, rfl⟩ := List.isPrefixOf_iff_prefix.1 (not_not.1 ended)
      obtain ⟨past, third, found⟩ := bind_eq_ok_iff.1 found
      have whole : sliceFrom 2 (crlf ++ after) = .ok after := sliceFrom_append crlf after
      obtain rfl := Except.ok.inj (whole.symm.trans third)
      cases found
      exact ⟨small, rfl, length⟩
    · rintro ⟨-, rfl, rfl⟩
      have enough : ¬ byteLen (token ++ (crlf ++ rest)) < byteLen token + 2 := by
        rw [byteLen_append, byteLen_append, byteLen_crlf]
        omega
      have ended : crlf.isPrefixOf (crlf ++ rest) = true := List.isPrefixOf_iff_prefix.2 (List.prefix_append _ _)
      have past : sliceFrom 2 (crlf ++ rest) = .ok rest := sliceFrom_append crlf rest
      refine ⟨_, rfl, ?_⟩
      rw [if_neg enough]
      refine bind_eq_ok_iff.2 ⟨_, sliceTo_append token _, bind_eq_ok_iff.2 ⟨_, sliceFrom_append token _, ?_⟩⟩
      rw [if_neg (not_not.2 ended)]
      exact bind_eq_ok_iff.2 ⟨rest, past, rfl⟩
  · rename_i large
    refine iff_of_false nofun ?_
    rintro ⟨small, -⟩
    exact large small

theorem fails_parseBulkToken_iff :
    Fails (parseBulkToken input len) ↔ usizeMax < len + 2 ∨ len + 2 ≤ byteLen input ∧ ¬ Boundary len input := by
  rw [parseBulkToken, addUsize]
  split
  · rename_i small
    rw [fails_bind_iff, or_iff_right not_fails_ok, or_iff_right (Nat.not_lt.2 small)]
    constructor
    · rintro ⟨_, ⟨⟩, failed⟩
      split at failed
      · exact absurd failed not_fails_ok
      rename_i enough
      refine ⟨Nat.not_lt.1 enough, ?_⟩
      rcases fails_bind_iff.1 failed with failed | ⟨start, first, failed⟩
      · exact fails_sliceTo_iff.1 failed
      rcases fails_bind_iff.1 failed with failed | ⟨suffix, second, failed⟩
      · exact fails_sliceFrom_iff.1 failed
      split at failed
      · exact absurd failed not_fails_ok
      rename_i ended
      obtain ⟨after, rfl⟩ := List.isPrefixOf_iff_prefix.1 (not_not.1 ended)
      have whole : sliceFrom 2 (crlf ++ after) = .ok after := sliceFrom_append crlf after
      rw [whole] at failed
      exact absurd failed not_fails_ok
    · rintro ⟨enough, inside⟩
      refine ⟨_, rfl, ?_⟩
      rw [if_neg (Nat.not_lt.2 enough), fails_bind_iff]
      exact .inl (fails_sliceTo_iff.2 inside)
  · rename_i large
    exact iff_of_true ⟨_, rfl⟩ (.inl (Nat.not_le.1 large))

theorem parseToken_eq_some_iff {token : String} :
    parseToken input = .ok (some (token, rest)) ↔ Token input token rest := by
  rw [parseToken, bind_eq_ok_iff]
  constructor
  · rintro ⟨_ | ⟨len, after⟩, header, found⟩
    · cases found
    obtain ⟨_ | ⟨text, past⟩, bulk, found⟩ := bind_eq_ok_iff.1 found
    · cases found
    cases found
    obtain ⟨small, rfl, rfl⟩ := parseBulkToken_eq_some_iff.1 bulk
    have length : (String.ofList text).utf8ByteSize = byteLen text := by
      rw [← byteLen_toList, String.toList_ofList]
    rw [Token, length, String.toList_ofList]
    exact ⟨small, (parseHeader_eq_some_iff rfl (by decide)).1 header⟩
  · rintro ⟨small, header⟩
    refine ⟨_, (parseHeader_eq_some_iff rfl (by decide)).2 header, ?_⟩
    dsimp only
    rw [bind_eq_ok_iff]
    refine ⟨_, parseBulkToken_eq_some_iff.2 ⟨small, rfl, byteLen_toList token⟩, ?_⟩
    dsimp only
    rw [String.ofList_toList]
    rfl

theorem fails_parseToken_iff : Fails (parseToken input) ↔ TokenFault input := by
  rw [parseToken, fails_bind_iff, or_iff_right (not_fails_parseHeader rfl)]
  constructor
  · rintro ⟨_ | ⟨len, after⟩, header, failed⟩
    · exact absurd failed not_fails_ok
    refine ⟨len, after, (parseHeader_eq_some_iff rfl (by decide)).1 header, ?_⟩
    rcases fails_bind_iff.1 failed with failed | ⟨_ | ⟨text, past⟩, -, failed⟩
    · exact fails_parseBulkToken_iff.1 failed
    · exact absurd failed not_fails_ok
    · exact absurd failed not_fails_ok
  · rintro ⟨len, after, header, fault⟩
    refine ⟨_, (parseHeader_eq_some_iff rfl (by decide)).2 header, ?_⟩
    dsimp only
    rw [fails_bind_iff]
    exact .inl (fails_parseBulkToken_iff.2 fault)

end Tokens

/-- Token after token. -/
inductive Tokens : List Char → List String → List Char → Prop
  | nil (input : List Char) : Tokens input [] input
  | cons {input rest rest' : List Char} {token : String} {tokens : List String} :
    Token input token rest → Tokens rest tokens rest' → Tokens input (token :: tokens) rest'

section Arrays

variable {input rest : List Char} {count : Nat} {acc tokens : List String}

theorem parseTokens_eq_some_iff : parseTokens count input acc = .ok (some (tokens, rest)) ↔
    ∃ new, tokens = acc ++ new ∧ new.length = count ∧ Tokens input new rest := by
  induction count generalizing input acc with
  | zero =>
    rw [parseTokens]
    constructor
    · rintro ⟨⟩
      exact ⟨[], (List.append_nil _).symm, rfl, .nil _⟩
    · rintro ⟨new, rfl, none, read⟩
      obtain rfl := List.length_eq_zero_iff.1 none
      cases read
      rw [List.append_nil]
  | succ count ih =>
    rw [parseTokens, bind_eq_ok_iff]
    constructor
    · rintro ⟨_ | ⟨token, after⟩, first, found⟩
      · cases found
      obtain ⟨new, rfl, length, later⟩ := ih.1 found
      exact ⟨token :: new, List.append_assoc _ _ _, congrArg Nat.succ length,
        .cons (parseToken_eq_some_iff.1 first) later⟩
    · rintro ⟨new, rfl, length, read⟩
      cases read with
      | nil => cases length
      | cons first later =>
        refine ⟨_, parseToken_eq_some_iff.2 first, ih.2 ⟨_, ?_, Nat.succ.inj length, later⟩⟩
        rw [List.append_assoc, List.singleton_append]

theorem fails_parseTokens_iff : Fails (parseTokens count input acc) ↔
    ∃ tokens rest, Tokens input tokens rest ∧ tokens.length < count ∧ TokenFault rest := by
  induction count generalizing input acc with
  | zero =>
    refine iff_of_false not_fails_ok ?_
    rintro ⟨_, _, -, few, -⟩
    exact absurd few (Nat.not_lt_zero _)
  | succ count ih =>
    rw [parseTokens, fails_bind_iff, fails_parseToken_iff]
    constructor
    · rintro (fault | ⟨_ | ⟨token, after⟩, first, failed⟩)
      · exact ⟨[], input, .nil _, Nat.succ_pos _, fault⟩
      · exact absurd failed not_fails_ok
      · obtain ⟨tokens, rest, later, few, fault⟩ := ih.1 failed
        exact ⟨token :: tokens, rest, .cons (parseToken_eq_some_iff.1 first) later, Nat.succ_lt_succ few, fault⟩
    · rintro ⟨tokens, rest, read, few, fault⟩
      cases read with
      | nil => exact .inl fault
      | cons first later =>
        exact .inr ⟨_, parseToken_eq_some_iff.2 first, ih.2 ⟨_, rest, later, Nat.lt_of_succ_lt_succ few, fault⟩⟩

end Arrays

/-! ## Frames -/

section Frame

variable [Allocator]

/-- One command: an array of tokens that there is a vector for, or the words of a line. -/
inductive Frame : List Char → List String → List Char → Prop
  | array {input after rest : List Char} {tokens : List String} : Header '*' input tokens.length after →
    24 * tokens.length ≤ Allocator.limit → tokens ≠ [] → Tokens after tokens rest → Frame input tokens rest
  | line {text rest : List Char} : (text ++ (crlf ++ rest)).head? ≠ some '*' → ¬ crlf <:+: text →
    splitWhitespace text ≠ [] → Frame (text ++ (crlf ++ rest)) ((splitWhitespace text).map String.ofList) rest

/-- A declared number of tokens that there is no vector for, or a faulty token among them. -/
def Fault (input : List Char) : Prop :=
  ∃ count after, Header '*' input count after ∧ (Allocator.limit < 24 * count ∨
    ∃ tokens rest, Tokens after tokens rest ∧ tokens.length < count ∧ TokenFault rest)

/-- Frame after frame. -/
inductive Reached : List Char → List (List String) → List Char → Prop
  | nil (input : List Char) : Reached input [] input
  | cons {input rest rest' : List Char} {tokens : List String} {frames : List (List String)} :
    Frame input tokens rest → Reached rest frames rest' → Reached input (tokens :: frames) rest'

end Frame

section Taken

variable {mark : Char} {input rest : List Char} {n : Nat} {tokens : List String} {frames : List (List String)}

theorem Header.exists_taken (header : Header mark input n rest) : ∃ taken, input = mark :: (taken ++ rest) := by
  obtain ⟨digits, -, rfl⟩ := header
  exact ⟨digits ++ crlf, by rw [List.append_assoc]⟩

theorem Tokens.exists_taken (read : Tokens input tokens rest) : ∃ taken, input = taken ++ rest := by
  induction read with
  | nil input => exact ⟨[], rfl⟩
  | @cons input rest rest' token tokens first _ ih =>
    obtain ⟨taken, header⟩ := first.2.exists_taken
    obtain ⟨more, rfl⟩ := ih
    exact ⟨'$' :: (taken ++ (token.toList ++ (crlf ++ more))), by simp [header]⟩

variable [Allocator]

/-- A frame takes something. -/
theorem Frame.exists_taken (frame : Frame input tokens rest) : ∃ taken, input = taken ++ rest ∧ taken ≠ [] := by
  cases frame with
  | array header _ _ read =>
    obtain ⟨taken, rfl⟩ := header.exists_taken
    obtain ⟨more, rfl⟩ := read.exists_taken
    exact ⟨'*' :: (taken ++ more), by rw [List.cons_append, List.append_assoc], List.cons_ne_nil _ _⟩
  | @line text _ _ _ _ =>
    exact ⟨text ++ crlf, by rw [List.append_assoc], List.append_ne_nil_of_right_ne_nil _ (by decide)⟩

theorem Frame.length_lt (frame : Frame input tokens rest) : rest.length < input.length := by
  obtain ⟨taken, rfl, some⟩ := frame.exists_taken
  have := List.length_pos_iff.2 some
  rw [List.length_append]
  omega

theorem Frame.byteLen_lt (frame : Frame input tokens rest) : byteLen rest < byteLen input := by
  obtain ⟨taken, rfl, some⟩ := frame.exists_taken
  have length := List.length_pos_iff.2 some
  have bytes := length_le_byteLen taken
  rw [byteLen_append]
  omega

theorem Frame.ne_nil (frame : Frame input tokens rest) : tokens ≠ [] := by
  cases frame with
  | array _ _ some _ => exact some
  | line _ _ some => exact fun none => some (List.map_eq_nil_iff.1 none)

theorem Reached.exists_taken (reached : Reached input frames rest) : ∃ taken, input = taken ++ rest := by
  induction reached with
  | nil input => exact ⟨[], rfl⟩
  | cons first _ ih =>
    obtain ⟨taken, rfl, -⟩ := first.exists_taken
    obtain ⟨more, rfl⟩ := ih
    exact ⟨taken ++ more, (List.append_assoc _ _ _).symm⟩

end Taken

section Capacity

variable [Allocator] {count : Nat}

theorem vecWithCapacity_eq_ok_iff {tokens : List String} :
    vecWithCapacity count = .ok tokens ↔ 24 * count ≤ Allocator.limit ∧ tokens = [] := by
  rw [vecWithCapacity]
  split
  · rename_i large
    exact iff_of_false nofun fun ⟨fits, _⟩ => Nat.not_lt.2 (Nat.le_trans fits Allocator.le) large
  split
  · rename_i fits
    exact ⟨fun same => ⟨fits, (Except.ok.inj same).symm⟩, fun ⟨_, same⟩ => same ▸ rfl⟩
  · rename_i large
    exact iff_of_false nofun fun ⟨fits, _⟩ => large fits

theorem fails_vecWithCapacity_iff : Fails (vecWithCapacity count) ↔ Allocator.limit < 24 * count := by
  constructor
  · rintro ⟨e, failed⟩
    refine Nat.lt_of_not_le fun fits => ?_
    rw [vecWithCapacity_eq_ok_iff.2 ⟨fits, rfl⟩] at failed
    cases failed
  · intro large
    refine by_contra fun returns => ?_
    obtain ⟨tokens, returned⟩ := not_fails_iff.1 returns
    exact Nat.not_le.2 large (vecWithCapacity_eq_ok_iff.1 returned).1

end Capacity

section Frames

variable [Uppercase] {input rest : List Char} {cmd : Command} {tokens : List String}

theorem exists_buildCommand (some : tokens ≠ []) : ∃ cmd, buildCommand tokens = .some cmd := by
  cases tokens with
  | nil => exact absurd rfl some
  | cons first others => exact ⟨_, rfl⟩

variable [Allocator]

theorem parseOneRespArray_eq_some_iff : parseOneRespArray input = .ok (some (cmd, rest)) ↔
    ∃ tokens after, Header '*' input tokens.length after ∧ 24 * tokens.length ≤ Allocator.limit ∧
      Tokens after tokens rest ∧ buildCommand tokens = some cmd := by
  rw [parseOneRespArray, bind_eq_ok_iff]
  constructor
  · rintro ⟨_ | ⟨count, after⟩, header, found⟩
    · cases found
    obtain ⟨_, capacity, found⟩ := bind_eq_ok_iff.1 found
    obtain ⟨fits, rfl⟩ := vecWithCapacity_eq_ok_iff.1 capacity
    obtain ⟨_ | ⟨tokens, rest'⟩, loop, last⟩ := bind_eq_ok_iff.1 found
    · cases last
    obtain ⟨cmd', built, ⟨⟩⟩ := Option.map_eq_some_iff.1 (Except.ok.inj last)
    obtain ⟨_, rfl, rfl, read⟩ := parseTokens_eq_some_iff.1 loop
    exact ⟨_, after, (parseHeader_eq_some_iff rfl (by decide)).1 header, fits, read, built⟩
  · rintro ⟨tokens, after, header, fits, read, built⟩
    refine ⟨_, (parseHeader_eq_some_iff rfl (by decide)).2 header, ?_⟩
    refine bind_eq_ok_iff.2 ⟨[], vecWithCapacity_eq_ok_iff.2 ⟨fits, rfl⟩, ?_⟩
    refine bind_eq_ok_iff.2 ⟨_, parseTokens_eq_some_iff.2 ⟨tokens, rfl, rfl, read⟩, ?_⟩
    dsimp only
    rw [List.nil_append, built]
    rfl

theorem fails_parseOneRespArray_iff : Fails (parseOneRespArray input) ↔ Fault input := by
  rw [parseOneRespArray, fails_bind_iff, or_iff_right (not_fails_parseHeader rfl)]
  constructor
  · rintro ⟨_ | ⟨count, after⟩, header, failed⟩
    · exact absurd failed not_fails_ok
    refine ⟨count, after, (parseHeader_eq_some_iff rfl (by decide)).1 header, ?_⟩
    rcases fails_bind_iff.1 failed with failed | ⟨_, capacity, failed⟩
    · exact .inl (fails_vecWithCapacity_iff.1 failed)
    rcases fails_bind_iff.1 failed with failed | ⟨_ | ⟨tokens, rest'⟩, -, failed⟩
    · exact .inr (fails_parseTokens_iff.1 failed)
    · exact absurd failed not_fails_ok
    · exact absurd failed not_fails_ok
  · rintro ⟨count, after, header, fault⟩
    refine ⟨_, (parseHeader_eq_some_iff rfl (by decide)).2 header, fails_bind_iff.2 ?_⟩
    by_cases large : Allocator.limit < 24 * count
    · exact .inl (fails_vecWithCapacity_iff.2 large)
    · have fits := vecWithCapacity_eq_ok_iff.2 ⟨Nat.not_lt.1 large, rfl⟩
      exact .inr ⟨[], fits, fails_bind_iff.2 (.inl (fails_parseTokens_iff.2 (fault.resolve_left large)))⟩

theorem parseFrame_eq_some_iff : parseFrame input = .ok (some (cmd, rest)) ↔
    ∃ tokens, Frame input tokens rest ∧ buildCommand tokens = some cmd := by
  rw [parseFrame]
  split
  · rename_i array
    rw [parseOneRespArray_eq_some_iff]
    constructor
    · rintro ⟨tokens, after, header, fits, read, built⟩
      refine ⟨tokens, .array header fits ?_ read, built⟩
      rintro rfl
      cases built
    · rintro ⟨tokens, frame, built⟩
      cases frame with
      | array header fits _ read => exact ⟨tokens, _, header, fits, read, built⟩
      | line plain _ _ => exact absurd array plain
  · rename_i plain
    rw [bind_eq_ok_iff]
    constructor
    · rintro ⟨_ | ⟨text, rest'⟩, first, found⟩
      · cases found
      obtain ⟨rfl, unbroken⟩ := splitLine_eq_some_iff.1 first
      obtain ⟨cmd', built, ⟨⟩⟩ := Option.map_eq_some_iff.1 (Except.ok.inj found)
      refine ⟨_, .line plain unbroken ?_, built⟩
      intro none
      rw [parseRespCommand, none] at built
      cases built
    · rintro ⟨tokens, frame, built⟩
      cases frame with
      | array header _ _ _ =>
        obtain ⟨taken, rfl⟩ := header.exists_taken
        exact absurd rfl plain
      | @line text _ _ unbroken _ =>
        refine ⟨_, splitLine_of_line unbroken rest, ?_⟩
        dsimp only
        rw [parseRespCommand, built]
        rfl

theorem fails_parseFrame_iff : Fails (parseFrame input) ↔ Fault input := by
  rw [parseFrame]
  split
  · exact fails_parseOneRespArray_iff
  · rename_i plain
    refine iff_of_false ?_ ?_
    · rw [fails_bind_iff]
      rintro (failed | ⟨_ | ⟨text, rest'⟩, -, failed⟩)
      · exact not_fails_splitLine failed
      · exact not_fails_ok failed
      · exact not_fails_ok failed
    · rintro ⟨count, after, header, -⟩
      obtain ⟨taken, rfl⟩ := header.exists_taken
      exact plain rfl

/-- The loop returns the commands of the frames up to where there is no further one. -/
theorem parseFrames_eq_ok_iff {n : Nat} (enough : input.length < n) {acc cmds : List Command} :
    parseFrames n input acc = .ok (cmds, rest) ↔
      ∃ frames, Reached input frames rest ∧ parseFrame rest = .ok none ∧ cmds = acc ++ frames.filterMap buildCommand := by
  induction n generalizing input acc with
  | zero => exact absurd enough (Nat.not_lt_zero _)
  | succ n ih =>
    rw [parseFrames, bind_eq_ok_iff]
    constructor
    · rintro ⟨_ | ⟨cmd, after⟩, first, found⟩
      · cases found
        exact ⟨[], .nil _, first, (List.append_nil _).symm⟩
      obtain ⟨tokens, frame, built⟩ := parseFrame_eq_some_iff.1 first
      dsimp only at found
      rw [if_neg (Nat.ne_of_lt frame.byteLen_lt)] at found
      obtain ⟨frames, reached, last, rfl⟩ := (ih (Nat.lt_of_lt_of_le frame.length_lt (by omega))).1 found
      refine ⟨tokens :: frames, .cons frame reached, last, ?_⟩
      rw [List.filterMap_cons, built, List.append_assoc, List.singleton_append]
    · rintro ⟨frames, reached, last, rfl⟩
      cases reached with
      | nil =>
        refine ⟨_, last, ?_⟩
        rw [List.filterMap_nil, List.append_nil]
        rfl
      | @cons _ after _ tokens frames frame reached =>
        obtain ⟨cmd, built⟩ := exists_buildCommand frame.ne_nil
        refine ⟨_, parseFrame_eq_some_iff.2 ⟨tokens, frame, built⟩, ?_⟩
        dsimp only
        rw [if_neg (Nat.ne_of_lt frame.byteLen_lt), ih (Nat.lt_of_lt_of_le frame.length_lt (by omega))]
        refine ⟨frames, reached, last, ?_⟩
        rw [List.filterMap_cons, built, List.append_assoc, List.singleton_append]

/-- The loop fails where a faulty frame is reached. -/
theorem fails_parseFrames_iff {n : Nat} (enough : input.length < n) {acc : List Command} :
    Fails (parseFrames n input acc) ↔ ∃ frames rest, Reached input frames rest ∧ Fault rest := by
  induction n generalizing input acc with
  | zero => exact absurd enough (Nat.not_lt_zero _)
  | succ n ih =>
    rw [parseFrames, fails_bind_iff, fails_parseFrame_iff]
    constructor
    · rintro (fault | ⟨_ | ⟨cmd, after⟩, first, failed⟩)
      · exact ⟨[], input, .nil _, fault⟩
      · exact absurd failed not_fails_ok
      obtain ⟨tokens, frame, built⟩ := parseFrame_eq_some_iff.1 first
      dsimp only at failed
      rw [if_neg (Nat.ne_of_lt frame.byteLen_lt)] at failed
      obtain ⟨frames, rest, reached, fault⟩ := (ih (Nat.lt_of_lt_of_le frame.length_lt (by omega))).1 failed
      exact ⟨tokens :: frames, rest, .cons frame reached, fault⟩
    · rintro ⟨frames, rest, reached, fault⟩
      cases reached with
      | nil => exact .inl fault
      | @cons _ after _ tokens frames frame reached =>
        obtain ⟨cmd, built⟩ := exists_buildCommand frame.ne_nil
        refine .inr ⟨_, parseFrame_eq_some_iff.2 ⟨tokens, frame, built⟩, ?_⟩
        dsimp only
        rw [if_neg (Nat.ne_of_lt frame.byteLen_lt), ih (Nat.lt_of_lt_of_le frame.length_lt (by omega))]
        exact ⟨frames, rest, reached, fault⟩

theorem parseRespCommands_eq_ok_iff {cmds : List Command} {consumed : Nat} :
    parseRespCommands input = .ok (cmds, consumed) ↔ ∃ frames rest, Reached input frames rest ∧
      parseFrame rest = .ok none ∧ cmds = frames.filterMap buildCommand ∧ consumed = byteLen input - byteLen rest := by
  rw [parseRespCommands, bind_eq_ok_iff]
  constructor
  · rintro ⟨⟨cmds', rest⟩, loop, ⟨⟩⟩
    obtain ⟨frames, reached, last, rfl⟩ := (parseFrames_eq_ok_iff (Nat.lt_succ_self _)).1 loop
    exact ⟨frames, rest, reached, last, rfl, rfl⟩
  · rintro ⟨frames, rest, reached, last, rfl, rfl⟩
    exact ⟨_, (parseFrames_eq_ok_iff (Nat.lt_succ_self _)).2 ⟨frames, reached, last, rfl⟩, rfl⟩

theorem fails_parseRespCommands_iff :
    Fails (parseRespCommands input) ↔ ∃ frames rest, Reached input frames rest ∧ Fault rest := by
  rw [parseRespCommands, fails_bind_iff, fails_parseFrames_iff (Nat.lt_succ_self _), or_iff_left]
  rintro ⟨_, -, failed⟩
  exact not_fails_ok failed

end Frames

end PubSub.Redis.TestingUtils
