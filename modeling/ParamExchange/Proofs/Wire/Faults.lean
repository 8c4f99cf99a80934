/-
What a reader is told about a body that is no message. All faults of a body are invalid data but
one: the document of a control message that ends too early is told apart, and it has the kind of a
stream that has ended. So a whole frame can be taken for the end of the stream, and every written
control message that is cut off inside of its document is.
-/
import Mathlib.Tactic
import ParamExchange.Proofs.Json.Cuts
import ParamExchange.Proofs.Wire.Frames

namespace ParamExchange.Wire

/-- A reader got a message or was told of invalid data. -/
def IsPlain {ε : Type} (kind : ε → Kind) (result : Except ε Message) : Prop :=
  (∃ m, result = .ok m) ∨ ∃ e, result = .error e ∧ kind e = .invalidData

end ParamExchange.Wire
