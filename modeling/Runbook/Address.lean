import Runbook.Text.Blank
import Runbook.Text.Hex

/-!
This module contains account addresses.
-/

namespace Runbook

structure Address where
  bytes : Bytes
  length_bytes : bytes.length = 20
deriving DecidableEq

namespace Address

def ofBytes? (bs : Bytes) : Option Address :=
  if h : bs.length = 20 then some ⟨bs, h⟩ else none

def zero : Address :=
  ⟨List.replicate 20 0, by simp⟩

def isZero (a : Address) : Bool :=
  a == zero

def ofWord (bs : Bytes) : Address :=
  (ofBytes? (bs.drop (bs.length - 20))).getD zero

def parse? (s : String) : Option Address :=
  (Text.unhex? s).bind ofBytes?

def text (a : Address) : String :=
  Text.hexPrefixed a.bytes

instance : Repr Address where
  reprPrec a _ := a.text

instance : Inhabited Address := ⟨zero⟩

@[simp]
theorem ofBytes?_bytes (a : Address) : ofBytes? a.bytes = some a := by
  simp [ofBytes?, a.length_bytes]

theorem parse?_text (a : Address) : parse? a.text = some a := by
  simp [parse?, text, Text.unhex?, Text.hexPrefixed, Text.dropHexMark, Text.hex,
    Text.unhexDigits_hexChars]

end Address

end Runbook
