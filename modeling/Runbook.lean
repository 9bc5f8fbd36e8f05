import Runbook.Abi.Call
import Runbook.Abi.Decode
import Runbook.Abi.Interface
import Runbook.Abi.Literal
import Runbook.Abi.Type
import Runbook.Abi.Value
import Runbook.Address
import Runbook.Amount
import Runbook.Calc.Error
import Runbook.Calc.Evaluate
import Runbook.Calc.Scan
import Runbook.Calc.Token
import Runbook.Calc.Value
import Runbook.Cipher.Aes
import Runbook.Cli.Options
import Runbook.Cli.Output
import Runbook.Cli.Program
import Runbook.Cli.Reads
import Runbook.Contract.Artifact
import Runbook.Contract.Catalogue
import Runbook.Contract.Compiler
import Runbook.Digest.Hmac
import Runbook.Digest.Keccak
import Runbook.Digest.Scrypt
import Runbook.Digest.Sha256
import Runbook.Display.Pretty
import Runbook.Document.Basic
import Runbook.Document.Reader
import Runbook.Document.Record
import Runbook.Engine.Await
import Runbook.Engine.Cancel
import Runbook.Engine.Intent
import Runbook.Engine.Query
import Runbook.Engine.Session
import Runbook.Engine.Target
import Runbook.Engine.View
import Runbook.Engine.Write
import Runbook.Entries
import Runbook.Fault
import Runbook.Files.Basic
import Runbook.Files.Path
import Runbook.Json.Basic
import Runbook.Json.Build
import Runbook.Json.Reader
import Runbook.Json.Writer
import Runbook.Keys.Keyfile
import Runbook.Keys.Keyring
import Runbook.Keys.Keystore
import Runbook.Main
import Runbook.Node.Request
import Runbook.Node.Trace
import Runbook.Number.Binary64
import Runbook.Number.Bitwise
import Runbook.Number.Bytes
import Runbook.Number.Decimal
import Runbook.Number.Duration
import Runbook.Number.Power
import Runbook.Number.Quantity
import Runbook.Outline.Document
import Runbook.Outline.Param
import Runbook.Outline.Plan
import Runbook.Param.Parse
import Runbook.Param.Reference
import Runbook.Param.Slot
import Runbook.Param.Template
import Runbook.Param.Type
import Runbook.Param.Value
import Runbook.Pattern.Basic
import Runbook.Pattern.Bracket
import Runbook.Pattern.CharSet
import Runbook.Pattern.Escape
import Runbook.Pattern.Mode
import Runbook.Pattern.Reader
import Runbook.Plan.Basic
import Runbook.Plan.Command
import Runbook.Plan.Config
import Runbook.Plan.Contracts
import Runbook.Plan.Inventory
import Runbook.Plan.Names
import Runbook.Plan.Sound
import Runbook.Plan.Target
import Runbook.Proofs.Calc.Literal
import Runbook.Proofs.Calc.Tree
import Runbook.Report
import Runbook.Scalar
import Runbook.Signing.Curve
import Runbook.Signing.Key
import Runbook.Text.Blank
import Runbook.Text.Casing
import Runbook.Text.Digit
import Runbook.Text.Hex
import Runbook.Text.Letter
import Runbook.Text.Utf8
import Runbook.Transaction.Basic
import Runbook.Transaction.Packing
import Runbook.Wallet.Basic
import Runbook.Wallet.Declared
import Runbook.Wallet.Selector
import Runbook.Wallet.Sticky
import Runbook.Yaml.Cursor
import Runbook.Yaml.Folding
import Runbook.Yaml.Layout
import Runbook.Yaml.Node
import Runbook.Yaml.Property
import Runbook.Yaml.Resolve
import Runbook.Yaml.Token
import Runbook.Proofs.Calc.Reading
import Runbook.Proofs.Calc.Lexing
import Runbook.Proofs.Calc.Evaluation
import Runbook.Proofs.Engine.Event
import Runbook.Proofs.Engine.Query
import Runbook.Proofs.Engine.Write
import Runbook.Proofs.Engine.Await
import Runbook.Proofs.Plan.Targets
import Runbook.Proofs.Engine.Step
import Runbook.Proofs.Engine.Target
import Runbook.Proofs.Text.Utf8
import Runbook.Proofs.Abi.Word
import Runbook.Proofs.Abi.Encoding
import Runbook.Proofs.Abi.Argument
import Runbook.Proofs.Abi.Call
import Runbook.Proofs.Alike
import Runbook.Proofs.Text.Blank
import Runbook.Proofs.Param.Slot
import Runbook.Proofs.Plan.Arguments
import Runbook.Proofs.Calc.Padding
import Runbook.Proofs.Param.Value
import Runbook.Proofs.Text.Casing
import Runbook.Proofs.Amount.Written
import Runbook.Proofs.Plan.Sections
import Runbook.Proofs.Engine.Signed
import Runbook.Proofs.Plan.Names
import Runbook.Proofs.Plan.Catalogue
import Runbook.Proofs.Plan.Commands
import Runbook.Proofs.Plan.Sound
import Runbook.Proofs.Engine.Sound
import Runbook.Proofs.Engine.Reached
import Runbook.Proofs.Param.Token
import Runbook.Proofs.Param.Missing
import Runbook.Proofs.Amount.Spliced
import Runbook.Proofs.Engine.Supplied
import Runbook.Proofs.Engine.Created
import Runbook.Proofs.Engine.Waited
import Runbook.Proofs.Engine.Cause
import Runbook.Proofs.Engine.Placed
import Runbook.Proofs.Engine.Symbols
import Runbook.Proofs.Engine.Denominated
import Runbook.Proofs.Text.Numeral
import Runbook.Proofs.Calc.Printed
import Runbook.Proofs.Param.Typed
import Runbook.Proofs.Param.Resolved
import Runbook.Proofs.Display.Pretty
import Runbook.Proofs.Display.Returned
import Runbook.Proofs.Json.Written
import Runbook.Proofs.Keys.Sealed
import Runbook.Proofs.Wallet.Keystore
import Runbook.Proofs.Wallet.Keyed
import Runbook.Proofs.Wallet.Accepted
import Runbook.Proofs.Engine.Keyed
import Runbook.Proofs.Param.Written
import Runbook.Proofs.Param.Placeholder
import Runbook.Proofs.Param.Unresolved
import Runbook.Proofs.Plan.Declared
import Runbook.Proofs.Engine.Turns
import Runbook.Proofs.Engine.Halting
import Runbook.Proofs.Engine.Refreshed
import Runbook.Proofs.Wallet.Sticky
import Runbook.Proofs.Keys.History
import Runbook.Proofs.Keys.Attempt
import Runbook.Proofs.Engine.Paced
import Runbook.Proofs.Number.Value
import Runbook.Proofs.Number.Quotient
import Runbook.Proofs.Calc.Exact
import Runbook.Proofs.Calc.Rounding
import Runbook.Proofs.Param.Substitution
import Runbook.Proofs.Engine.Arity
import Runbook.Proofs.Engine.Recipient
import Runbook.Proofs.Param.Ranged
import Runbook.Proofs.Display.Words
import Runbook.Proofs.Pattern.Match
import Runbook.Proofs.Pattern.Mode
import Runbook.Proofs.Pattern.Escape
import Runbook.Proofs.Pattern.Bracket
import Runbook.Proofs.Pattern.Enclosed
import Runbook.Proofs.Wallet.Whole
import Runbook.Proofs.Contract.Output
import Runbook.Proofs.Calc.Casing
import Runbook.Proofs.Amount.Alphabet
import Runbook.Proofs.Calc.Magnitude
import Runbook.Proofs.Engine.Unconfirmed
import Runbook.Proofs.Document.Declared
import Runbook.Proofs.Calc.Hexadecimal
