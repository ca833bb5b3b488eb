import PubSub.Redis.TestingUtils.Grammar

/-!
# Decoding undoes encoding

A client writes a command as an array of bulk strings. Each is a frame with exactly its tokens,
whatever stands in them; and a frame that is cut anywhere is none, so the parser leaves it alone.
-/

namespace PubSub.Redis.TestingUtils
set_option autoImplicit false
open Base Base.Text

section TokenVec

variable [Allocator]

/-- The tokens of a command: a vector that there is memory for, of strings of at most `isize::MAX`
bytes each. -/
structure TokenVec where
  name : String
  args : List String
  capacity : 24 * (args.length + 1) ≤ Allocator.limit
  lengths : ∀ token ∈ name :: args, token.utf8ByteSize ≤ isizeMax

def TokenVec.tokens (v : TokenVec) : List String := v.name :: v.args

theorem TokenVec.bounds (v : TokenVec) :
    24 * v.tokens.length ≤ Allocator.limit ∧ ∀ token ∈ v.tokens, token.utf8ByteSize ≤ isizeMax :=
  ⟨v.capacity, v.lengths⟩

theorem TokenVec.length_le (v : TokenVec) : v.tokens.length ≤ usizeMax := by
  have isize : isizeMax ≤ usizeMax := by decide
  have limit := Allocator.le
  have capacity := v.bounds.1
  omega

/-- A command as a client writes it. -/
def encodeCommand (v : TokenVec) : List Char :=
  s!"*{v.tokens.length}\r\n".toList ++ v.tokens.flatMap fun token => (encodeBulkString token).toList

def encodeCommands (vs : List TokenVec) : List Char := vs.flatMap encodeCommand

end TokenVec

/-! ## Tokens -/

theorem toList_encodeBulkString (token : String) : (encodeBulkString token).toList =
    '$' :: (Nat.toDigits 10 token.utf8ByteSize ++ (crlf ++ (token.toList ++ crlf))) := by
  simp [encodeBulkString, toString, crlf]

theorem newline_not_mem_toDigits (n : Nat) : '\n' ∉ Nat.toDigits 10 n :=
  fun here => absurd (Decimal.isDigit_of_mem here) (by decide)

theorem token_encodeBulkString {token : String} (small : token.utf8ByteSize ≤ isizeMax) (rest : List Char) :
    Token ((encodeBulkString token).toList ++ rest) token rest := by
  have isize : isizeMax + 2 ≤ usizeMax := by decide
  refine ⟨by omega, Nat.toDigits 10 token.utf8ByteSize, parseUsize_toDigits (by omega), ?_⟩
  rw [toList_encodeBulkString]
  simp only [List.cons_append, List.append_assoc]

theorem tokens_encodeBulkString {tokens : List String} (small : ∀ token ∈ tokens, token.utf8ByteSize ≤ isizeMax)
    (rest : List Char) :
    Tokens ((tokens.flatMap fun token => (encodeBulkString token).toList) ++ rest) tokens rest := by
  induction tokens with
  | nil => exact .nil rest
  | cons token tokens ih =>
    obtain ⟨first, others⟩ := List.forall_mem_cons.1 small
    rw [List.flatMap_cons, List.append_assoc]
    exact .cons (token_encodeBulkString first _) (ih others)

/-- A header that is cut is none; otherwise the cut comes later. -/
theorem header_of_cut {mark : Char} {n : Nat} {start body : List Char} (ascii : mark.utf8Size = 1)
    (other : mark ≠ '\r') (other' : mark ≠ '\n') (small : n ≤ usizeMax)
    (cut : Cut start (mark :: (Nat.toDigits 10 n ++ (crlf ++ body)))) :
    ¬ crlf <:+: start ∨ ∃ more, Cut more body ∧ parseHeader mark start = .ok (some (n, more)) := by
  have split : mark :: (Nat.toDigits 10 n ++ (crlf ++ body)) = (mark :: Nat.toDigits 10 n ++ crlf) ++ body := by
    simp only [List.cons_append, List.append_assoc]
  rw [split] at cut
  rcases cut_append_iff.1 cut with early | ⟨more, rfl, late⟩
  · refine .inl (not_crlf_of_cut ?_ early)
    rw [List.mem_cons, not_or]
    exact ⟨other'.symm, newline_not_mem_toDigits n⟩
  · refine .inr ⟨more, late, (parseHeader_eq_some_iff ascii other).2 ⟨_, parseUsize_toDigits small, ?_⟩⟩
    simp only [List.cons_append, List.append_assoc]

theorem parseHeader_of_no_line {mark : Char} {input : List Char} (unbroken : ¬ crlf <:+: input) :
    parseHeader mark input = .ok none := by
  rw [parseHeader, splitLine_of_no_line unbroken]
  rfl

/-- A token that is cut is not read. -/
theorem parseToken_of_cut {token : String} (small : token.utf8ByteSize ≤ isizeMax) {start : List Char}
    (cut : Cut start (encodeBulkString token).toList) : parseToken start = .ok none := by
  have isize : isizeMax + 2 ≤ usizeMax := by decide
  rw [toList_encodeBulkString] at cut
  rcases header_of_cut rfl (by decide) (by decide) (by omega) cut with unbroken | ⟨more, late, header⟩
  · rw [parseToken, parseHeader_of_no_line unbroken]
    rfl
  · have short := late.byteLen_lt
    rw [byteLen_append, byteLen_toList, byteLen_crlf] at short
    rw [parseToken, header]
    show (parseBulkToken more token.utf8ByteSize >>= _) = _
    rw [parseBulkToken, addUsize, if_pos (by omega)]
    show (if byteLen more < token.utf8ByteSize + 2 then _ else _) >>= _ = _
    rw [if_pos short]
    rfl

theorem parseTokens_of_cut {tokens : List String} (small : ∀ token ∈ tokens, token.utf8ByteSize ≤ isizeMax)
    {start : List Char} (cut : Cut start (tokens.flatMap fun token => (encodeBulkString token).toList))
    (acc : List String) : parseTokens tokens.length start acc = .ok none := by
  induction tokens generalizing start acc with
  | nil => exact absurd cut not_cut_nil
  | cons token tokens ih =>
    obtain ⟨first, others⟩ := List.forall_mem_cons.1 small
    rw [List.flatMap_cons, cut_append_iff] at cut
    rw [List.length_cons, parseTokens]
    rcases cut with early | ⟨more, rfl, late⟩
    · rw [parseToken_of_cut first early]
      rfl
    · rw [parseToken_eq_some_iff.2 (token_encodeBulkString first more)]
      exact ih others late _

/-! ## Commands -/

section Frames

variable [Allocator]

theorem encodeCommand_eq (v : TokenVec) : encodeCommand v = '*' :: (Nat.toDigits 10 v.tokens.length ++
    (crlf ++ v.tokens.flatMap fun token => (encodeBulkString token).toList)) := by
  simp [encodeCommand, toString, crlf]

/-- An encoded command is a frame with its tokens. -/
theorem frame_encodeCommand (v : TokenVec) (rest : List Char) : Frame (encodeCommand v ++ rest) v.tokens rest := by
  obtain ⟨capacity, lengths⟩ := v.bounds
  refine .array ⟨_, parseUsize_toDigits v.length_le, ?_⟩ capacity (List.cons_ne_nil _ _)
    (tokens_encodeBulkString lengths rest)
  rw [encodeCommand_eq]
  simp only [List.cons_append, List.append_assoc]

theorem reached_encodeCommands (vs : List TokenVec) (rest : List Char) :
    Reached (encodeCommands vs ++ rest) (vs.map TokenVec.tokens) rest := by
  induction vs with
  | nil => exact .nil rest
  | cons v vs ih =>
    rw [encodeCommands, List.flatMap_cons, List.append_assoc]
    exact .cons (frame_encodeCommand v _) ih

end Frames

section Commands

variable [Uppercase] [Allocator]

/-- The command with these tokens, its name in capitals. -/
def TokenVec.command (v : TokenVec) : Command := .fromParts (Uppercase.toUppercase v.name) v.args

theorem parseFrame_nil : parseFrame [] = .ok none := rfl

/-- A command that is cut is not read. -/
theorem parseFrame_of_cut {v : TokenVec} {start : List Char} (cut : Cut start (encodeCommand v)) :
    parseFrame start = .ok none := by
  obtain ⟨capacity, lengths⟩ := v.bounds
  rw [encodeCommand_eq] at cut
  cases start with
  | nil => exact parseFrame_nil
  | cons c start =>
    have first : c = '*' := by
      obtain ⟨missing, -, whole⟩ := cut
      exact (List.cons.inj whole).1.symm
    subst first
    rw [parseFrame, List.head?_cons, if_pos rfl, parseOneRespArray]
    rcases header_of_cut rfl (by decide) (by decide) v.length_le cut with unbroken | ⟨more, late, header⟩
    · rw [parseHeader_of_no_line unbroken]
      rfl
    · have fits : vecWithCapacity v.tokens.length = .ok [] := vecWithCapacity_eq_ok_iff.2 ⟨capacity, rfl⟩
      rw [header]
      show (vecWithCapacity v.tokens.length >>= _) = _
      rw [fits]
      show (parseTokens v.tokens.length more [] >>= _) = _
      rw [parseTokens_of_cut lengths late]
      rfl

theorem filterMap_buildCommand (vs : List TokenVec) :
    (vs.map TokenVec.tokens).filterMap buildCommand = vs.map TokenVec.command := by
  induction vs with
  | nil => rfl
  | cons v vs ih =>
    rw [List.map_cons, List.filterMap_cons, List.map_cons, ← ih]
    rfl

/-- Encoded commands in front of what is no frame are parsed, and nothing else is consumed. -/
theorem parseRespCommands_append (vs : List TokenVec) {rest : List Char} (last : parseFrame rest = .ok none) :
    parseRespCommands (encodeCommands vs ++ rest) = .ok (vs.map TokenVec.command, byteLen (encodeCommands vs)) := by
  refine parseRespCommands_eq_ok_iff.2
    ⟨_, rest, reached_encodeCommands vs rest, last, (filterMap_buildCommand vs).symm, ?_⟩
  rw [byteLen_append, Nat.add_sub_cancel]

/-- **Decoding undoes encoding.** Any commands, followed by a further one that is cut at any character:
exactly the complete ones are returned, with the number of bytes they take. -/
theorem parseRespCommands_encodeCommands (vs : List TokenVec) (further : TokenVec) (tail : List Char)
    (cut : Cut tail (encodeCommand further)) :
    parseRespCommands (encodeCommands vs ++ tail) = .ok (vs.map TokenVec.command, byteLen (encodeCommands vs)) :=
  parseRespCommands_append vs (parseFrame_of_cut cut)

end Commands

section Concrete

open Concrete

/-- A payload that looks like a token. -/
def publishToken : TokenVec := ⟨"publish", ["topic", "é\r\n$1"], by decide, by decide⟩

theorem parseRespCommands_publishToken :
    parseRespCommands (encodeCommands [publishToken] ++ (encodeCommand publishToken).take 38) =
      .ok ([.Publish "topic" "é\r\n$1"], 40) := by
  have cut : Cut ((encodeCommand publishToken).take 38) (encodeCommand publishToken) :=
    ⟨(encodeCommand publishToken).drop 38, by decide, (List.take_append_drop 38 _).symm⟩
  exact (parseRespCommands_encodeCommands [publishToken] publishToken _ cut).trans (by decide)

end Concrete

end PubSub.Redis.TestingUtils
