/-
Backends: what adds tensors on a worker. The host adds tensors of one shape; a backend that is
not there fails on every use.
-/
import ParamExchange.Config.Worker
import ParamExchange.Tensor.Basic
import ParamExchange.Worker.Error
import ParamExchange.Worker.Reduction

namespace ParamExchange.Backend

variable {α : Type} [Scalar α]

/-- The sum of two tensors. -/
def add (backend : Backend) (x y : Tensor α) : Except WorkerError (Tensor α) :=
  match backend with
  | .unavailable => .error .backendUnavailable
  | .cpu =>
    match x.add? y with
    | some s => .ok s
    | none => .error (.incompatibleShapes x.shape y.shape)

/-- The sum of the gradients of some devices. -/
def reduce (backend : Backend) (gradients : List (Tensor α)) : Except Stop (Tensor α) :=
  match ParamExchange.reduce backend.add gradients with
  | .ok s => .ok s
  | .error .empty => .error (.error .emptyReduction)
  | .error (.addition e) => .error (.error e)
  | .error .outside => .error .outsideReduction

end ParamExchange.Backend
