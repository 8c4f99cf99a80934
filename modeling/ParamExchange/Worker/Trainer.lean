/-
Trainers: what computes the gradients of a model on a device for a data shard.
-/
import ParamExchange.Tensor.Basic
import ParamExchange.Worker.Error

namespace ParamExchange

/-- A trainer with a state. It is given a device, a shard and the local copies of the layers. -/
structure Trainer (τ α : Type) where
  gradients : Nat → Nat → List (Tensor α) → τ → Except WorkerError (List (Tensor α)) × τ

namespace Trainer

variable {τ υ α : Type}

/-- The gradient of the sum of squares: twice every parameter. -/
def squares [Scalar α] : Trainer Unit α where
  gradients _ _ params s := (.ok (params.map fun p => p.map fun x => x + x), s)

/-- Answers that are given in turn: gradients, or a failure of the backend. The number of calls
is counted. -/
structure Script (α : Type) where
  answers : List (Option (List (Tensor α)))
  calls : Nat

/-- The trainer of a script. -/
def scripted : Trainer (Script α) α where
  gradients _ _ _ s :=
    let answer := match (s.answers[s.calls % s.answers.length]?).join with
      | some gradients => .ok gradients
      | none => .error .backendUnavailable
    (answer, { s with calls := s.calls + 1 })

/-- One of two trainers, as the state is that of the one or the other. -/
def either (a : Trainer τ α) (b : Trainer υ α) : Trainer (τ ⊕ υ) α where
  gradients device shard params s :=
    match s with
    | .inl s =>
      let (answer, s) := a.gradients device shard params s
      (answer, .inl s)
    | .inr s =>
      let (answer, s) := b.gradients device shard params s
      (answer, .inr s)

/-- A trainer with a record of the devices and shards of its calls. -/
def logged (t : Trainer τ α) : Trainer (τ × List (Nat × Nat)) α where
  gradients device shard params s :=
    let (answer, after) := t.gradients device shard params s.1
    (answer, after, s.2 ++ [(device, shard)])

end Trainer

end ParamExchange
