/-
What a worker is told: the servers, the layers of the model, the devices, when gradients leave the
worker and in which form.
-/
import ParamExchange.Network.Address
import ParamExchange.Number.Single

namespace ParamExchange

/-- A number that is not zero. -/
abbrev Positive := { n : Nat // 0 < n }

/-- A tensor of the model. -/
structure LayerConfig where
  key : String
  shape : List Nat
  deriving DecidableEq, Repr

/-- What adds tensors on a worker. -/
inductive Backend
  | cpu
  | unavailable
  deriving DecidableEq, Repr

/-- The name of a backend. -/
def Backend.name : Backend → String
  | .cpu => "cpu"
  | .unavailable => "unavailable"

/-- When gradients leave the worker: after every step, or summed up after every `cycle` steps. -/
inductive SyncMode
  | dense
  | bulk (cycle : Positive)
  deriving DecidableEq, Repr

/-- What a worker pushes: the gradient, scaled by the negated learning rate if there is one; or
the scaled gradient to the accumulator and the answer to the parameter. -/
inductive Convention (α : Type)
  | direct (learningRate : Option α)
  | clientMomentum (learningRate weightDecay : α)
  deriving DecidableEq, Repr

/-- The length from which on a tensor is sliced, unless another one is given. -/
def defaultMinSlice : Nat := 1000

/-- What a worker is told. -/
structure WorkerConfig where
  servers : List Network.Address
  layers : List LayerConfig
  devices : Positive
  backend : Backend
  sync : SyncMode
  convention : Convention Single
  epochs : Nat
  shards : Nat
  minSlice : Nat
  deriving DecidableEq, Repr

end ParamExchange
