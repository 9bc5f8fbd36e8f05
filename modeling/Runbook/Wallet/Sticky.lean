import Runbook.Digest.Sha256
import Runbook.Entries
import Runbook.Fault
import Runbook.Number.Bytes

/-!
This module contains the choice of one wallet among several: commands that share a key share the
wallet.
-/

namespace Runbook

structure Sticky where
  bound : Entries String := []
deriving Repr

namespace Sticky

/--
The place of a key's wallet among `count` candidates: the number in the first eight bytes of the
key's hash, reduced.
-/
def place (key : String) (count : Nat) : Nat :=
  natOfBytes ((Sha256.hash key.toUTF8.toList).take 8) % count

/--
The wallet that a fresh key chooses. The order in which candidates are given does not matter.
-/
def choice? (key : String) (candidates : List String) : Option String :=
  let sorted := candidates.mergeSort
  sorted[place key sorted.length]?

/--
The wallet for `key`. The first choice binds the key.
-/
def select (s : Sticky) (key : String) (candidates : List String) : Result (String × Sticky) :=
  match choice? key candidates, s.bound.find? key with
  | none, _ => fail .validation "no wallet matches the selector"
  | some _, some bound =>
    if candidates.contains bound then pure (bound, s)
    else
      fail .validation ("ambiguous wallet: sticky key '" ++ key ++ "' is bound to '" ++ bound
        ++ "', which does not match the selector")
  | some chosen, none => pure (chosen, ⟨s.bound.set key chosen⟩)

end Sticky

end Runbook
