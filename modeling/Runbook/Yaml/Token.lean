/-!
This module contains the tokens of YAML texts. Indentation has become tokens that open and close
blocks.
-/

namespace Runbook.Yaml

/--
How a scalar is written: bare, in quotes, or as a block whose line breaks are kept or folded.
-/
inductive Style where
  | plain
  | quoted
  | literal
  | folded
deriving Repr, DecidableEq

inductive Token where
  /-- A version that can be read. -/
  | version
  | tagHandle (handle expansion : String)
  | documentStart
  | documentEnd
  | openBlockSeq
  | openBlockMap
  | closeBlock
  | openSeq
  | closeSeq
  | openMap
  | closeMap
  | comma
  | dash
  | key
  | value
  | alias (name : String)
  | anchor (name : String)
  | tag (handle suffix : String)
  | scalar (text : String) (style : Style)
deriving Repr, DecidableEq

end Runbook.Yaml
