import PubSub.Base.Text
import PubSub.Redis.TestingUtils.Command

/-!
# The parser of the mock server

Text slices are lists of characters, cut at byte positions. A function that may not return has an
`Except`: slicing off a character boundary, an addition beyond `usize` and a vector for which there is
no memory are `Failure`s. `Option` stands for the source's own `Option`.
-/

namespace PubSub.Redis.TestingUtils
set_option autoImplicit false
open Base Base.Text

/-- `str::to_uppercase`. Nothing depends on what it is. -/
class Uppercase where
  toUppercase : String → String

/-- How a function of the parser ends without returning. -/
inductive Failure where
  /-- A slice index that is out of range or inside a character. -/
  | sliceIndex
  | addOverflow
  | capacityOverflow
  /-- Not a panic: the allocator has not got that much, and the process aborts. -/
  | allocation
  /-- Not a panic: a loop that does not end. -/
  | divergence
  deriving DecidableEq

def usizeMax : Nat := 2 ^ 64 - 1

def isizeMax : Nat := 2 ^ 63 - 1

/-- The allocator of the process: how many bytes a vector can have. No layout exceeds `isize::MAX`. -/
class Allocator where
  limit : Nat
  le : limit ≤ isizeMax

namespace Concrete

/-- Capitals for the ASCII letters. -/
scoped instance asciiUppercase : Uppercase := ⟨fun s => String.ofList (s.toList.map Char.toUpper)⟩

/-- A vector can have a tebibyte. -/
scoped instance tebibyte : Allocator := ⟨2 ^ 40, by decide⟩

end Concrete

/-- `&input[..n]`. -/
def sliceTo (n : Nat) (input : List Char) : Except Failure (List Char) :=
  match splitAt n input with
  | some (start, _) => .ok start
  | none => .error .sliceIndex

/-- `&input[n..]`. -/
def sliceFrom (n : Nat) (input : List Char) : Except Failure (List Char) :=
  match splitAt n input with
  | some (_, rest) => .ok rest
  | none => .error .sliceIndex

/-- `str::parse` at `usize`: digits, perhaps after a plus sign. -/
def parseUsize (text : List Char) : Option Nat :=
  (Decimal.read (if text.head? = some '+' then text.tail else text)).filter fun n => n ≤ usizeMax

/-- `usize` addition, with the overflow checks of a test build. -/
def addUsize (m n : Nat) : Except Failure Nat := if m + n ≤ usizeMax then .ok (m + n) else .error .addOverflow

/-- `Vec::with_capacity` for strings, which take 24 bytes each. -/
def vecWithCapacity [Allocator] (count : Nat) : Except Failure (List String) :=
  if isizeMax < 24 * count then .error .capacityOverflow
  else if 24 * count ≤ Allocator.limit then .ok [] else .error .allocation

/-- The line and what stands after its end. -/
def splitLine (input : List Char) : Except Failure (Option (List Char × List Char)) :=
  match find crlf input with
  | none => .ok none
  | some idx => do
    let line ← sliceTo idx input
    let rest ← sliceFrom (idx + 2) input
    return some (line, rest)

/-- The number after a mark, on a line of its own: the array's number of tokens, a token's length. -/
def parseHeader (mark : Char) (input : List Char) : Except Failure (Option (Nat × List Char)) := do
  let some (line, rest) ← splitLine input | return none
  if line.head? ≠ some mark then return none
  let digits ← sliceFrom 1 line
  let some n := parseUsize digits | return none
  return some (n, rest)

def parseBulkToken (input : List Char) (len : Nat) : Except Failure (Option (List Char × List Char)) := do
  let needed ← addUsize len 2
  if byteLen input < needed then return none
  let token ← sliceTo len input
  let suffix ← sliceFrom len input
  if ¬ crlf.isPrefixOf suffix then return none
  let rest ← sliceFrom 2 suffix
  return some (token, rest)

/-- One round of the loop of `parse_one_resp_array`. -/
def parseToken (input : List Char) : Except Failure (Option (String × List Char)) := do
  let some (len, afterLenLine) ← parseHeader '$' input | return none
  let some (token, afterToken) ← parseBulkToken afterLenLine len | return none
  return some (String.ofList token, afterToken)

/-- The loop of `parse_one_resp_array`. -/
def parseTokens : Nat → List Char → List String → Except Failure (Option (List String × List Char))
  | 0, rest, tokens => .ok (some (tokens, rest))
  | count + 1, rest, tokens => do
    let some (token, afterToken) ← parseToken rest | return none
    parseTokens count afterToken (tokens ++ [token])

section Commands

variable [Uppercase]

def buildCommand : List String → Option Command
  | [] => none
  | cmd :: parts => some (.fromParts (Uppercase.toUppercase cmd) parts)

def parseOneRespArray [Allocator] (input : List Char) : Except Failure (Option (Command × List Char)) := do
  let some (count, rest) ← parseHeader '*' input | return none
  let tokens ← vecWithCapacity count
  let some (tokens, rest) ← parseTokens count rest tokens | return none
  return (buildCommand tokens).map fun command => (command, rest)

/-- `char::is_whitespace`. -/
def isWhitespace (c : Char) : Bool :=
  (9 ≤ c.toNat && c.toNat ≤ 13) || c.toNat = 0x20 || c.toNat = 0x85 || c.toNat = 0xA0 || c.toNat = 0x1680 ||
    (0x2000 ≤ c.toNat && c.toNat ≤ 0x200A) || c.toNat = 0x2028 || c.toNat = 0x2029 || c.toNat = 0x202F ||
    c.toNat = 0x205F || c.toNat = 0x3000

/-- `str::split_whitespace`: the stretches without whitespace. -/
def splitWhitespace (data : List Char) : List (List Char) :=
  (data.splitOnP isWhitespace).filter fun part => part ≠ []

def parseRespCommand (data : List Char) : Option Command := buildCommand ((splitWhitespace data).map String.ofList)

variable [Allocator]

/-- One round of the loop of `parse_resp_commands`; nothing if it is left. -/
def parseFrame (remaining : List Char) : Except Failure (Option (Command × List Char)) :=
  if remaining.head? = some '*' then parseOneRespArray remaining
  else do
    let some (line, rest) ← splitLine remaining | return none
    return (parseRespCommand line).map fun cmd => (cmd, rest)

/-- The loop of `parse_resp_commands`, for less than `n` rounds. -/
def parseFrames : Nat → List Char → List Command → Except Failure (List Command × List Char)
  | 0, _, _ => .error .divergence
  | n + 1, remaining, commands => do
    let some (cmd, rest) ← parseFrame remaining | return (commands, remaining)
    if byteLen rest = byteLen remaining then return (commands, remaining)
    parseFrames n rest (commands ++ [cmd])

/-- The commands and the number of bytes they take. Every round but the last takes a character. -/
def parseRespCommands (input : List Char) : Except Failure (List Command × Nat) := do
  let (commands, remaining) ← parseFrames (input.length + 1) input []
  return (commands, byteLen input - byteLen remaining)

end Commands

end PubSub.Redis.TestingUtils
