import Runbook.Calc.Evaluate
import Runbook.Param.Reference
import Runbook.Param.Template
import Runbook.Text.Casing

/-!
This module contains the amounts that transactions carry: arithmetic on wallet balances and
arguments, followed by a unit.
-/

namespace Runbook

inductive ValuePiece where
  | char (c : Char)
  | wallet (name : List Char) (field : Option (List Char))
deriving Repr, DecidableEq

namespace ValuePiece

def isNameChar (c : Char) : Bool :=
  c.isAlphanum || c == '_' || c == '-'

def fieldOf : List Char → Option (List Char) × List Char
  | '.' :: c :: rest =>
    if c.isAlpha then (some (c :: rest.takeWhile Char.isAlpha), rest.dropWhile Char.isAlpha)
    else (none, '.' :: c :: rest)
  | rest => (none, rest)

theorem fieldOf_length (cs : List Char) : (fieldOf cs).2.length ≤ cs.length := by
  unfold fieldOf
  split
  . rename_i c rest
    split
    . have := (List.dropWhile_suffix (l := rest) Char.isAlpha).length_le
      simp
      omega
    . simp
  . simp

def ofChars (cs : List Char) : List ValuePiece :=
  match cs with
  | [] => []
  | '@' :: c :: rest =>
    if isNameChar c then
      have := (List.dropWhile_suffix (l := rest) isNameChar).length_le
      have := fieldOf_length (rest.dropWhile isNameChar)
      wallet (c :: rest.takeWhile isNameChar) (fieldOf (rest.dropWhile isNameChar)).1
        :: ofChars (fieldOf (rest.dropWhile isNameChar)).2
    else
      char '@' :: ofChars (c :: rest)
  | c :: rest => char c :: ofChars rest
termination_by cs.length
decreasing_by all_goals simp; try omega

/--
The wallet and the field that a token names; no field is the address.
-/
def token? : ValuePiece → Option (String × String)
  | char _ => none
  | wallet name field => some (String.ofList name, (field.map String.ofList).getD "address")

end ValuePiece

def walletTokens (text : String) : List (String × String) :=
  (ValuePiece.ofChars text.toList).filterMap ValuePiece.token?

def balanceReferences (text : String) : List String :=
  (walletTokens text).filterMap fun (wallet, field) =>
    if field = "balance" then some wallet else none

def checkValueReferences (wallets : Directory) (text : String) : Result Unit :=
  (walletTokens text).forM fun (wallet, field) =>
    if field ≠ "balance" then
      fail .validation ("illegal wallet field in value '" ++ text ++ "': " ++ field
        ++ " (only balance is allowed)")
    else if !wallets.contains wallet then
      fail .validation ("value '" ++ text ++ "' references unknown wallet '" ++ wallet ++ "'")
    else
      pure ()

def walletBalance (wallets : Directory) (wallet field : String) : Result String :=
  if field ≠ "balance" then
    fail .resolution ("illegal wallet field in value: " ++ field ++ " (only balance is allowed)")
  else if !wallets.contains wallet then
    fail .resolution ("unknown wallet '" ++ wallet ++ "'")
  else
    match wallets.field? wallet .balance with
    | some (.int value _) => pure (toString value)
    | _ => fail .resolution ("balance of wallet '" ++ wallet ++ "' is not known yet")

def substituteBalances (wallets : Directory) (text : String) : Result String := do
  let pieces ← (ValuePiece.ofChars text.toList).mapM fun p =>
    match p, p.token? with
    | .char c, _ => pure [c]
    | _, some (wallet, field) => (walletBalance wallets wallet field).map String.toList
    | _, none => pure []
  return String.ofList pieces.flatten

/--
A monetary amount and the unit it was written in, if any. It counts wei, or units of a token if the
unit is a token symbol.
-/
structure Amount where
  value : Nat
  denomination : Option String
deriving Repr, DecidableEq

def commonDenominations : List String :=
  ["wei", "gwei", "ether", "eth"]

def isCommonDenomination (unit : String) : Bool :=
  commonDenominations.contains unit

def Amount.isToken (a : Amount) : Bool :=
  match a.denomination with
  | some unit => !isCommonDenomination unit
  | none => false

/--
Convert to wei. Two of the units count more than one wei.
-/
def denominate (value : Int) (unit : String) : Int :=
  match unit with
  | "gwei" => value * 10 ^ 9
  | "ether" => value * 10 ^ 18
  | _ => value

def stripUnit (text : List Char) (unit : String) : Option (List Char) :=
  let unit := unit.toList
  if unit.isSuffixOf text then some (text.take (text.length - unit.length)) else none

/--
The units an amount may be written in, longest first, so that no unit hides a longer one.
-/
def unitCandidates (tokenSymbols : List String) : List String :=
  (commonDenominations ++ tokenSymbols).mergeSort fun a b => b.utf8ByteSize ≤ a.utf8ByteSize

def splitUnit (text : List Char) (units : List String) : List Char × Option String :=
  let split := units.findSome? fun unit =>
    if unit.isEmpty then none
    else
      match stripUnit text unit with
      | some rest => if Calc.isArithmetic rest then some (rest, unit) else none
      | none => none
  match split with
  | some (rest, unit) => (rest, some unit)
  | none => (text, none)

def Amount.ofText (tokenSymbols : List String) (text : String) : Result Amount := do
  let lowered := Text.lower (Text.trim text)
  let (expression, unit) := splitUnit lowered.toList (unitCandidates tokenSymbols)
  let expression := Text.trimChars expression
  if !Calc.isArithmetic expression then
    fail .resolution ("'" ++ String.ofList expression ++ "' is not an arithmetic expression")
  else
    let value ← Result.changeKind .resolution (Calc.evaluateInt (String.ofList expression))
    let value := match unit with
      | some unit => denominate value unit
      | none => value
    return ⟨← toAmount value, unit⟩

/--
The amount that a value text stands for. Token symbols are in small letters.
-/
def Amount.parse (tokenSymbols args : List String) (wallets : Directory) (text : String) :
    Result Amount :=
  Result.attach ("unable to parse value '" ++ text ++ "'") do
    -- In what the arguments bring in, no wallet is looked for.
    let text ← substituteBalances wallets text
    match substituteArgs text args with
    | .error index =>
      fail .resolution ("insufficient arguments: $" ++ toString index ++ " referenced but "
        ++ toString args.length ++ " supplied")
    | .ok text => Amount.ofText tokenSymbols text

end Runbook
