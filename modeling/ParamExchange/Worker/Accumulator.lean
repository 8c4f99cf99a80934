/-
Sums of gradients that are kept on a worker over several steps, one for each key. A sum keeps the
shape of the first gradient that was ever added to it, and starts again from zero when it is taken.
-/
import ParamExchange.Config.Worker
import ParamExchange.Store.Table
import ParamExchange.Tensor.Basic
import ParamExchange.Worker.Error

namespace ParamExchange

/-- Whether the sums are taken after a step. -/
def Positive.divides (cycle : Positive) (step : Nat) : Bool := step % cycle.val == 0

/-- The sums, each under its key. -/
structure Accumulator (α : Type) where
  sums : List (Key × Tensor α)

namespace Accumulator

variable {α : Type}

/-- No sums. -/
def empty : Accumulator α := ⟨[]⟩

/-- The sum of a key. -/
def sum? (acc : Accumulator α) (key : Key) : Option (Tensor α) := Table.get? key acc.sums

/-- Puts a sum under a key. -/
def put (acc : Accumulator α) (key : Key) (sum : Tensor α) : Accumulator α :=
  ⟨Table.put key sum acc.sums⟩

variable [Scalar α]

/-- Adds a gradient to the sum of a key; another shape than that of the sum is refused. -/
def accumulate (acc : Accumulator α) (key : Key) (gradient : Tensor α) :
    Except WorkerError (Accumulator α) :=
  match acc.sum? key with
  | none => .ok (acc.put key gradient)
  | some sum =>
    match sum.add? gradient with
    | some sum => .ok (acc.put key sum)
    | none => .error (.shapeMismatch key.name sum.shape gradient.shape)

/-- Takes the sum of a key, if there ever was a gradient for it, and leaves zeros of its shape. -/
def flush (acc : Accumulator α) (key : Key) : Option (Tensor α) × Accumulator α :=
  match acc.sum? key with
  | none => (none, acc)
  | some sum => (some sum, acc.put key (Tensor.zeros sum.shape))

end Accumulator

end ParamExchange
