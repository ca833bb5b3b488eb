import PubSub.Redis.TestingUtils.Grammar

/-!
# When the parser returns

Declared counts and lengths are taken at their word: a count is allocated for before a token is read,
a length is added to before it is compared, and a text that is long enough is cut at the declared
byte wherever that is.
-/

namespace PubSub.Redis.TestingUtils
set_option autoImplicit false
open Base Base.Text

/-- **The parser returns unless it reaches a faulty frame.** Then the consumed bytes can be drained. A
frame is faulty if it declares more tokens than the allocator has a vector for, or if among these
tokens, after whole ones, stands one that declares a length of more than `usize::MAX - 2`, or a length
that ends inside a character while at least two more bytes follow. -/
theorem parseRespCommands_returns_iff [Uppercase] [Allocator] (input : List Char) :
    (∃ cmds consumed, parseRespCommands input = .ok (cmds, consumed) ∧ consumed ≤ byteLen input ∧
      Boundary consumed input) ↔ ∀ frames rest, Reached input frames rest → ¬ Fault rest := by
  constructor
  · rintro ⟨cmds, consumed, returned, -⟩ frames rest reached fault
    have failed := fails_parseRespCommands_iff.2 ⟨frames, rest, reached, fault⟩
    rw [returned] at failed
    exact not_fails_ok failed
  · intro sound
    have returns : ¬ Fails (parseRespCommands input) := by
      rw [fails_parseRespCommands_iff]
      rintro ⟨frames, rest, reached, fault⟩
      exact sound frames rest reached fault
    obtain ⟨⟨cmds, consumed⟩, returned⟩ := not_fails_iff.1 returns
    obtain ⟨frames, rest, reached, -, -, rfl⟩ := parseRespCommands_eq_ok_iff.1 returned
    obtain ⟨taken, rfl⟩ := reached.exists_taken
    rw [byteLen_append, Nat.add_sub_cancel] at returned
    have boundary : Boundary (byteLen taken) (taken ++ rest) := ⟨taken, rest, rfl, rfl⟩
    exact ⟨cmds, _, returned, boundary.le, boundary⟩

section Concrete

open Concrete

/-- What lossy decoding makes of a payload of one byte that is no text. -/
def binaryPayload : List Char := "*3\r\n$7\r\nPUBLISH\r\n$1\r\nt\r\n$1\r\n\uFFFD\r\n".toList

/-- The declared byte lies inside the replacement character. -/
theorem binaryPayload_panics : ¬ ∀ input : List Char, ∃ cmds consumed,
    parseRespCommands input = .ok (cmds, consumed) ∧ consumed ≤ byteLen input ∧
      Boundary consumed input := by
  intro returns
  obtain ⟨cmds, consumed, returned, -⟩ := returns binaryPayload
  have panics : parseRespCommands binaryPayload = .error .sliceIndex := by decide
  rw [panics] at returned
  cases returned

/-- A number of tokens that no vector has room for, one that there is no memory for, and a length that
cannot be added to. -/
example : parseRespCommands "*9223372036854775807\r\n".toList = .error .capacityOverflow ∧
    parseRespCommands "*100000000000000000\r\n".toList = .error .allocation ∧
    parseRespCommands "*1\r\n$18446744073709551615\r\n".toList = .error .addOverflow := by decide

end Concrete

end PubSub.Redis.TestingUtils
