/-
The messages between workers and servers: the control messages that open and close a connection,
the requests for a parameter and the answer to them, and the report of an error.
-/
import ParamExchange.Identity.Basic
import ParamExchange.Number.Shortest
import ParamExchange.Text.Quoted

namespace ParamExchange.Wire

open Text

/-- A control message. -/
inductive Control
  | connect
  | hello (identity : Identity)
  | disconnect
  deriving DecidableEq

/-- A message. A pull asks for the value of a parameter of so many elements, a push submits a
gradient for it, and both are answered by its value. -/
inductive Message
  | error (text : String)
  | control (command : Control)
  | pull (key : String) (length : UInt64)
  | push (key : String) (gradient : List Single)
  | params (key : String) (values : List Single)
  deriving DecidableEq

/-- The name of a message's kind. -/
def Message.kindName : Message → String
  | error _ => "err"
  | control _ => "control"
  | pull _ _ => "data/pull"
  | push _ _ => "data/push"
  | params _ _ => "data/params"

/-! ## Messages in diagnostics -/

/-- Fields between braces, after the name of what they belong to. -/
def fieldsText (name : String) (fields : List (String × String)) : String :=
  name ++ " \x7b " ++ String.intercalate ", " (fields.map fun f => f.1 ++ ": " ++ f.2) ++ " \x7d"

/-- The text of some numbers. -/
def numbersText (xs : List Single) : String := Quoted.list (xs.map Shortest.text)

/-- The text of a control message. -/
def Control.text : Control → String
  | connect => "Connect"
  | hello i =>
    let fields := [("node_id", Quoted.text i.nodeId), ("rank", Decimal.text i.rank.toNat),
      ("rank_size", Decimal.text i.rankSize.toNat)]
    "Hello(" ++ fieldsText "Identity" fields ++ ")"
  | disconnect => "Disconnect"

/-- The text of a message. -/
def Message.text : Message → String
  | error text => "Err(" ++ Quoted.text text ++ ")"
  | control c => "Control(" ++ c.text ++ ")"
  | pull key length =>
    let fields := [("key", Quoted.text key), ("len", Decimal.text length.toNat)]
    "Data(" ++ fieldsText "Pull" fields ++ ")"
  | push key gradient =>
    let fields := [("key", Quoted.text key), ("grad", numbersText gradient)]
    "Data(" ++ fieldsText "Push" fields ++ ")"
  | params key values =>
    let fields := [("key", Quoted.text key), ("params", numbersText values)]
    "Data(" ++ fieldsText "Params" fields ++ ")"

end ParamExchange.Wire
