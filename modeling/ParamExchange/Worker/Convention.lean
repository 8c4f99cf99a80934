/-
Update conventions: what a worker pushes for a gradient. Under the direct convention the gradient
goes to the parameter; under client momentum the scaled gradient, with weight decay unless it is
that of a bias, goes to the accumulator, and the answer to the parameter.
-/
import ParamExchange.Config.Worker
import ParamExchange.Worker.Client

namespace ParamExchange.Convention

variable {σ α : Type} [Scalar α]

/-- The tensor that is pushed to the accumulator. -/
def decayed (rate decay : α) (key : Key) (gradient weight : Tensor α) : Except Stop (Tensor α) :=
  let delta := gradient.scale rate
  if key.role = .bias then .ok delta
  else
    match delta.scaledAdd? (rate * decay) weight with
    | some delta => .ok delta
    | none => .error (.cannotBroadcast weight.shape delta.shape)

/-- Pushes a gradient for a parameter with the local copy `weight`, and gives its new value. -/
def sync (convention : Convention α) (t : Transport σ α) (key : Key)
    (gradient weight : Tensor α) : Exchange σ α (Tensor α) := do
  match convention with
  | direct none => Client.pushAndPull t key gradient
  | direct (some rate) => Client.pushAndPull t key (gradient.scale (-rate))
  | clientMomentum rate decay => do
    let delta ← liftExcept (decayed rate decay key gradient weight)
    let velocity ← Client.pushAndPull t key.partner delta
    Client.pushAndPull t key velocity

end ParamExchange.Convention
