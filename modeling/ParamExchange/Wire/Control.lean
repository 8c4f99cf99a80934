/-
Control messages as JSON documents.
-/
import ParamExchange.Config.Reader
import ParamExchange.Json.Writer
import ParamExchange.Wire.Message

namespace ParamExchange.Wire.Control

open Json

/-- The document of an identity. -/
def writeIdentity (i : Identity) : List UInt8 :=
  writeObject
    [("node_id", writeString i.nodeId),
     ("rank", writeNat i.rank.toNat),
     ("rank_size", writeNat i.rankSize.toNat)]

/-- The document of a control message. -/
def write : Control → List UInt8
  | connect => writeString "connect"
  | hello i => writeObject [("hello", writeIdentity i)]
  | disconnect => writeString "disconnect"

/-- The reader of control messages. -/
def reader : Reader Control :=
  variant
    [("connect", .unit connect),
     ("hello", .content (do
        let i ← Config.identity
        pure (hello i))),
     ("disconnect", .unit disconnect)]

end ParamExchange.Wire.Control
