import Runbook.Param.Parse
import Runbook.Param.Reference
import Runbook.Param.Template
import Runbook.Scalar

/-!
This module contains parameters: as they are declared, as validation leaves them, and the values
they get when their command runs.
-/

namespace Runbook

/--
A parameter declared with a type. Valid declarations have a value or a reference, not both.
-/
structure TypedParam where
  type : Option String
  value : Option Scalar
  reference : Option String
deriving Repr, DecidableEq

inductive ParamDecl where
  | plain (s : Scalar)
  | typed (p : TypedParam)
deriving Repr, DecidableEq

/--
What a parameter stands for: a value, a wallet reference, or a template that is parsed as `type`
once its tokens are replaced.
-/
inductive Param where
  | literal (v : Value)
  | wallet (r : WalletRef)
  | template (text : String) (type : ParamType)
deriving Repr, DecidableEq

inductive DeferReason where
  | senderUnknown
  | walletState
  | missingArgument (index supplied : Nat)
  /-- The arguments at hand do not parse as the declared type. -/
  | argumentMismatch
deriving Repr, DecidableEq

def DeferReason.text : DeferReason → String
  | senderUnknown => "sender is only known at execution"
  | walletState => "wallet field is read at execution"
  | missingArgument index supplied =>
    "argument $" ++ toString index ++ " not supplied (" ++ toString supplied ++ " given)"
  | argumentMismatch => "arguments do not fit this parameter"

inductive Resolution where
  | resolved (v : Value)
  | deferred (p : Param) (reason : DeferReason)
deriving Repr, DecidableEq

structure Scope where
  command : String
  args : List String
  wallets : Directory
  sender : Option Address

def resolveWalletRef (scope : Scope) (text : String) : Result Resolution := do
  match ← WalletRef.parse text with
  | .sender => return .deferred (.wallet .sender) .senderUnknown
  | .field wallet field =>
    if scope.wallets.contains wallet then
      return .deferred (.wallet (.field wallet field)) .walletState
    else
      fail .validation ("field " ++ field.text ++ " of command '" ++ scope.command
        ++ "' references unknown wallet '" ++ wallet ++ "'")

def resolveTemplate (scope : Scope) (type : ParamType) (template : String) : Resolution :=
  match substituteArgs template scope.args with
  | .error index =>
    .deferred (.template template type) (.missingArgument index scope.args.length)
  | .ok text =>
    let resolution :=
      if type = .address ∧ isWalletRef text then resolveWalletRef scope text
      else (parseParam type text).map .resolved
    match resolution with
    | .ok r => r
    -- The arguments may be meant for another command, so that this is no fault.
    | .error _ => .deferred (.template template type) .argumentMismatch

def resolveReference (scope : Scope) (type : ParamType) (reference : String) : Result Resolution :=
  let reference := Text.trim reference
  if isWalletRef reference then resolveWalletRef scope reference
  else if (argIndices reference).isEmpty then
    fail .validation ("reference '" ++ reference ++ "' in command '" ++ scope.command
      ++ "' names neither a wallet (@name) nor an argument ($N)")
  else
    pure (resolveTemplate scope type reference)

def resolveValue (scope : Scope) (type : ParamType) (value : Scalar) : Result Resolution :=
  if type = .address ∧ isWalletRef value.text then resolveWalletRef scope value.text
  else
    ((Result.changeKind .validation (parseParam type value.text)).attach
      ("in command '" ++ scope.command ++ "'")).map .resolved

def ParamDecl.resolve (scope : Scope) : ParamDecl → Result Resolution
  | plain s => pure (.resolved (.string s.text))
  | typed p => do
    let type ← ParamType.parse (p.type.getD "")
    match p.value, p.reference with
    | some _, some _ =>
      fail .validation ("param of command '" ++ scope.command ++ "' sets both value and reference")
    | none, none =>
      fail .validation ("param of command '" ++ scope.command ++ "' needs a value or a reference")
    | some value, none => resolveValue scope type value
    | none, some reference => resolveReference scope type reference

def Param.value (scope : Scope) : Param → Result Value
  | literal v => pure v
  | wallet r => r.value scope.wallets scope.sender
  | template text type =>
    match substituteArgs text scope.args with
    | .error index =>
      fail .resolution ("insufficient arguments: '" ++ text ++ "' needs $" ++ toString index
        ++ " but " ++ toString scope.args.length ++ " were supplied")
    | .ok raw =>
      -- An argument for an address may name a wallet in its turn.
      if type = .address ∧ isWalletRef raw then do
        let r ← Result.changeKind .resolution (WalletRef.parse raw)
        r.value scope.wallets scope.sender
      else
        parseParam type raw

structure Slot where
  decl : ParamDecl
  resolution : Resolution
deriving Repr, DecidableEq

namespace Slot

def argIndices (s : Slot) : List Nat :=
  match s.decl with
  | .typed p => (p.reference.map Runbook.argIndices).getD []
  | .plain _ => []

/--
The value for one invocation. A parameter that depends on arguments is resolved anew, because the
arguments need not be those that it was validated with.
-/
def finalize (scope : Scope) (s : Slot) : Result Value := do
  let resolution ←
    if s.argIndices.isEmpty then pure s.resolution
    else Result.changeKind .resolution (s.decl.resolve scope)
  match resolution with
  | .resolved v => return v
  | .deferred p _ => p.value scope

end Slot

end Runbook
