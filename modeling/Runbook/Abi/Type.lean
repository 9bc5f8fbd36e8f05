import Runbook.Number.Power
import Runbook.Text.Digit

/-!
This module contains the types of the contract ABI and the reading of their names.
-/

namespace Runbook.Abi

/--
An ABI type. Integer widths are in bits.
-/
inductive AbiType where
  | bool
  | address
  | function
  | string
  | bytes
  | uint (bits : Nat)
  | int (bits : Nat)
  | fixedBytes (size : Nat)
  | array (item : AbiType)
  | fixedArray (item : AbiType) (size : Nat)
  | tuple (items : List AbiType)
deriving Repr, Inhabited, BEq

inductive TypeExpr where
  | name (n : String)
  | tuple (items : List TypeExpr)
  | array (item : TypeExpr) (size : Option Nat)
deriving Repr, Inhabited

namespace TypeExpr

def isNameStart (c : Char) : Bool :=
  c.isAlpha || c == '_' || c == '$'

def isNameChar (c : Char) : Bool :=
  c.isAlphanum || c == '_' || c == '$'

def isName (s : String) : Bool :=
  match s.toList with
  | [] => false
  | c :: cs => isNameStart c && cs.all isNameChar

/--
Read array marks; a size is a positive number.
-/
def readMarks (item : TypeExpr) (cs : List Char) :
    Option (TypeExpr × { rest : List Char // rest.length ≤ cs.length }) :=
  match cs with
  | '[' :: ']' :: rest =>
    (readMarks (array item none) rest).map fun (t, ⟨r, h⟩) =>
      (t, ⟨r, by simp only [List.length_cons]; omega⟩)
  | '[' :: rest =>
    let digits := rest.takeWhile Char.isDigit
    match h : rest.dropWhile Char.isDigit with
    | ']' :: rest' =>
      have hl : rest'.length < rest.length := by
        have := (List.dropWhile_suffix (l := rest) Char.isDigit).length_le
        rw [h, List.length_cons] at this
        omega
      let size := Text.digitsValue 10 digits
      if size = 0 ∨ 2 ^ 64 ≤ size then none
      else
        (readMarks (array item (some size)) rest').map fun (t, ⟨r, h⟩) =>
          (t, ⟨r, by simp only [List.length_cons]; omega⟩)
    | _ => none
  | cs => some (item, ⟨cs, Nat.le_refl _⟩)
termination_by cs.length
decreasing_by
  . simp only [List.length_cons]
    omega
  . simp only [List.length_cons]
    omega

def openTuple? (cs : List Char) : Option { rest : List Char // rest.length < cs.length } :=
  match cs with
  | '(' :: rest => some ⟨rest, by simp⟩
  | 't' :: 'u' :: 'p' :: 'l' :: 'e' :: '(' :: rest =>
    some ⟨rest, by simp only [List.length_cons]; omega⟩
  | _ => none

mutual

def read (cs : List Char) : Option (TypeExpr × { rest : List Char // rest.length < cs.length }) :=
  match openTuple? cs with
  | some inner =>
    have h := inner.2
    match hi : inner.1 with
    | ')' :: rest =>
      (readMarks (tuple []) rest).map fun (t, ⟨r, h'⟩) =>
        (t, ⟨r, by rw [hi, List.length_cons] at h; omega⟩)
    | _ =>
      match readItems inner.1 with
      | none => none
      | some (ts, ⟨rest, h'⟩) =>
        (readMarks (tuple ts) rest).map fun (t, ⟨r, h''⟩) => (t, ⟨r, by omega⟩)
  | none =>
    match cs with
    | [] => none
    | c :: rest =>
      if isNameStart c then
        have hd := (List.dropWhile_suffix (l := rest) isNameChar).length_le
        (readMarks (name (String.ofList (c :: rest.takeWhile isNameChar)))
          (rest.dropWhile isNameChar)).map fun (t, ⟨r, h⟩) =>
            (t, ⟨r, by rw [List.length_cons]; omega⟩)
      else none
termination_by (cs.length, 0)
decreasing_by
  simp only [Prod.lex_def]
  omega

def readItems (cs : List Char) :
    Option (List TypeExpr × { rest : List Char // rest.length < cs.length }) :=
  match read cs with
  | none => none
  | some (t, after) =>
    have h := after.2
    match ha : after.1 with
    | ')' :: rest => some ([t], ⟨rest, by rw [ha, List.length_cons] at h; omega⟩)
    | ',' :: rest =>
      match readItems rest with
      | none => none
      | some (ts, ⟨rest', h'⟩) =>
        some (t :: ts, ⟨rest', by rw [ha, List.length_cons] at h; omega⟩)
    | _ => none
termination_by (cs.length, 1)
decreasing_by
  . exact Prod.Lex.right _ (by decide)
  . rw [ha, List.length_cons] at h
    exact Prod.Lex.left _ _ (Nat.lt_trans (Nat.lt_succ_self _) h)

end

def parse? (s : String) : Option TypeExpr :=
  match read s.toList with
  | some (t, ⟨[], _⟩) => some t
  | _ => none

def number? (cs : List Char) : Option Nat :=
  if cs.isEmpty || !cs.all Char.isDigit then none else some (Text.digitsValue 10 cs)

def intBits? (cs : List Char) : Option Nat :=
  (number? cs).filter fun n => n ≠ 0 && n ≤ 256 && n % 8 == 0

def elementary? (n : String) : Option AbiType :=
  match n with
  | "bool" => some .bool
  | "address" => some .address
  | "function" => some .function
  | "string" => some .string
  | "bytes" => some .bytes
  | "uint" => some (.uint 256)
  | "int" => some (.int 256)
  | n =>
    match n.toList with
    | 'b' :: 'y' :: 't' :: 'e' :: 's' :: size =>
      ((number? size).filter fun n => n ≠ 0 && n ≤ 32).map .fixedBytes
    | 'u' :: 'i' :: 'n' :: 't' :: bits => (intBits? bits).map .uint
    | 'i' :: 'n' :: 't' :: bits => (intBits? bits).map .int
    | _ => none

mutual

def resolve? : TypeExpr → Option AbiType
  | name n => elementary? n
  | tuple items => (resolveItems? items).map .tuple
  | array item none => (resolve? item).map .array
  | array item (some size) => (resolve? item).map (.fixedArray · size)

def resolveItems? : List TypeExpr → Option (List AbiType)
  | [] => some []
  | t :: ts => do return (← resolve? t) :: (← resolveItems? ts)

end

/--
The expression's array marks around `t`, whatever it is that they stand behind.
-/
def wrap (t : AbiType) : TypeExpr → AbiType
  | array item none => .array (wrap t item)
  | array item (some size) => .fixedArray (wrap t item) size
  | _ => t

end TypeExpr

end Runbook.Abi
