import Runbook.Number.Power
import Runbook.Text.Hex

/-!
This module contains the decoding of UTF-8 text that may hold invalid bytes.
-/

namespace Runbook.Text

def isContinuation (b : UInt8) : Bool :=
  0x80 ≤ b && b < 0xC0

/--
The range of second bytes that may follow a first byte of a longer character, and how many more
bytes the character has.
-/
def secondByte (b : UInt8) : Option (UInt8 × UInt8 × Nat) :=
  if 0xC2 ≤ b && b < 0xE0 then some (0x80, 0xBF, 0)
  else if b == 0xE0 then some (0xA0, 0xBF, 1)
  else if b == 0xED then some (0x80, 0x9F, 1)
  else if 0xE1 ≤ b && b < 0xF0 then some (0x80, 0xBF, 1)
  else if b == 0xF0 then some (0x90, 0xBF, 2)
  else if 0xF1 ≤ b && b < 0xF4 then some (0x80, 0xBF, 2)
  else if b == 0xF4 then some (0x80, 0x8F, 2)
  else none

/--
The bits of a first byte that belong to the character, by the number of bytes behind the second.
-/
def leadBits (b : UInt8) (more : Nat) : Nat :=
  b.toNat % 2 ^ (5 - more)

/--
Extend a code point by up to `more` continuation bytes; the number of bytes that are missing comes
with it.
-/
def extendCode (code : Nat) : Nat → Bytes → Nat × Nat × Bytes
  | 0, bs => (code, 0, bs)
  | more + 1, b :: bs =>
    if isContinuation b then extendCode (64 * code + b.toNat % 64) more bs
    else (code, more + 1, b :: bs)
  | more + 1, [] => (code, more + 1, [])

theorem extendCode_length (code more : Nat) (bs : Bytes) :
    (extendCode code more bs).2.2.length ≤ bs.length := by
  induction more generalizing code bs with
  | zero => simp [extendCode]
  | succ more ih =>
    cases bs with
    | nil => simp [extendCode]
    | cons b bs =>
      simp only [extendCode]
      split
      . have := ih (64 * code + b.toNat % 64) bs
        simp only [List.length_cons]
        omega
      . simp

def replacement : Char := Char.ofNat 0xFFFD

/--
The characters that bytes write. The longest start of a character that is cut short becomes one
replacement character, as does any other byte out of place.
-/
def decodeUtf8 (bs : Bytes) : List Char :=
  match bs with
  | [] => []
  | b :: rest =>
    if b < 0x80 then Char.ofNat b.toNat :: decodeUtf8 rest
    else
      match secondByte b, rest with
      | some (low, high, more), c :: rest' =>
        if low ≤ c && c ≤ high then
          let r := extendCode (64 * leadBits b more + c.toNat % 64) more rest'
          have := extendCode_length (64 * leadBits b more + c.toNat % 64) more rest'
          (if r.2.1 = 0 then Char.ofNat r.1 else replacement) :: decodeUtf8 r.2.2
        else
          replacement :: decodeUtf8 (c :: rest')
      | _, rest => replacement :: decodeUtf8 rest
termination_by bs.length
decreasing_by all_goals simp; try omega

end Runbook.Text
