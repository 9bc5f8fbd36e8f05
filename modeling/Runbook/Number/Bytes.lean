import Runbook.Number.Power
import Runbook.Text.Hex

/-!
This module contains the numbers that bytes write, most significant byte first.
-/

namespace Runbook

def bytesOfNat : Nat → Nat → Bytes
  | 0, _ => []
  | size + 1, n => bytesOfNat size (n / 256) ++ [UInt8.ofNat n]

def natOfBytes (bs : Bytes) : Nat :=
  bs.foldl (fun n b => 256 * n + b.toNat) 0

@[simp]
theorem length_bytesOfNat (size n : Nat) : (bytesOfNat size n).length = size := by
  induction size generalizing n with
  | zero => rfl
  | succ size ih => simp [bytesOfNat, ih]

theorem natOfBytes_append_singleton (bs : Bytes) (b : UInt8) :
    natOfBytes (bs ++ [b]) = 256 * natOfBytes bs + b.toNat := by
  simp [natOfBytes]

theorem natOfBytes_bytesOfNat (size n : Nat) : natOfBytes (bytesOfNat size n) = n % 256 ^ size := by
  induction size generalizing n with
  | zero => simp [bytesOfNat, natOfBytes, Nat.mod_one]
  | succ size ih =>
    rw [bytesOfNat, natOfBytes_append_singleton, ih, Nat.pow_succ, Nat.mul_comm (256 ^ size),
      Nat.mod_mul]
    simp
    omega

end Runbook
