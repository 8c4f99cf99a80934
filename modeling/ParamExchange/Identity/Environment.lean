/-
The identity that a process is given through its environment: the variables `NODE_ID`, `RANK` and
`RANK_SIZE`. They are looked at in this order and the first one that will not do is reported.
-/
import ParamExchange.Identity.Basic
import ParamExchange.Text.Blank
import ParamExchange.Text.Decimal
import ParamExchange.Text.Utf8

namespace ParamExchange.Identity

open Text

/-- The variables that are set, each with its octets. -/
abbrev Environment := List (String × List UInt8)

/-- The text of a variable. A value that is no text counts as missing. -/
def setting (env : Environment) (name : String) : Except IdentityError String :=
  match env.lookup name with
  | none => .error (.missing name)
  | some octets =>
    match Utf8.decode octets with
    | .ok value => .ok value
    | .error _ => .error (.missing name)

/-- The number in a variable. White space around it is passed over. -/
def number (env : Environment) (name : String) : Except IdentityError UInt64 := do
  let value ← setting env name
  match Decimal.readWord? (trim value.toList) with
  | some n => .ok n
  | none => .error (.invalid name value)

/-- The identity in an environment. -/
def ofEnvironment (env : Environment) : Except IdentityError Identity := do
  let nodeId ← setting env "NODE_ID"
  let rank ← number env "RANK"
  let rankSize ← number env "RANK_SIZE"
  if rankSize = 0 then .error (.invalid "RANK_SIZE" "0") else make nodeId rank rankSize

end ParamExchange.Identity
