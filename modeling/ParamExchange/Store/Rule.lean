/-
Update rules: what a pushed gradient does to the values of a parameter, and to the state that the
rule keeps for it. A rule refuses a gradient of another length and then changes nothing.
-/
import ParamExchange.Config.Server
import ParamExchange.Key.Basic

namespace ParamExchange

/-- A length that is not the expected one. -/
structure SizeMismatch where
  expected : Nat
  got : Nat
  deriving DecidableEq, Repr

namespace SizeMismatch

/-- The diagnostic of a length. -/
def message (e : SizeMismatch) : String :=
  s!"the provided buffer length {e.got} doesn't match the parameter size {e.expected}"

/-- Refuses a length other than the expected one. -/
def check (expected got : Nat) : Except SizeMismatch Unit :=
  if expected = got then .ok () else .error ⟨expected, got⟩

end SizeMismatch

/-- A rule. An accumulator decays and takes in the gradient with the opposite sign; the other
rules add the gradient or descend along it, the last one with a velocity of its own. -/
inductive Rule (α : Type)
  | additive
  | accumulate (momentum : α)
  | descent (learningRate : α)
  | momentumDescent (learningRate momentum : α) (velocity : List α)
  deriving DecidableEq, Repr

namespace Rule

variable {α : Type} [Scalar α]

/-- The rule of a role: accumulators always accumulate, weights and biases follow the configured
update. -/
def ofRole (role : Role) (update : Update α) (momentum : α) (length : Nat) : Rule α :=
  if role.isMomentum then accumulate momentum
  else
    match update with
    | .additive => additive
    | .descent rate => descent rate
    | .momentumDescent rate momentum => momentumDescent rate momentum (List.replicate length 0)

/-- The values after a push, and the rule with its state. -/
def push (rule : Rule α) (gradient values : List α) :
    Except SizeMismatch (List α × Rule α) := do
  SizeMismatch.check values.length gradient.length
  match rule with
  | momentumDescent rate momentum velocity => do
    SizeMismatch.check velocity.length gradient.length
    let velocity := List.zipWith (fun v g => momentum * v + g) velocity gradient
    pure (List.zipWith (fun p v => p - rate * v) values velocity,
      momentumDescent rate momentum velocity)
  | accumulate momentum =>
    pure (List.zipWith (fun p g => momentum * p - g) values gradient, rule)
  | additive => pure (List.zipWith (fun p g => p + g) values gradient, rule)
  | descent rate => pure (List.zipWith (fun p g => p - rate * g) values gradient, rule)

theorem length_push {rule after : Rule α} {gradient values next : List α}
    (h : rule.push gradient values = .ok (next, after)) : next.length = values.length := by
  unfold push SizeMismatch.check at h
  split at h
  · next same =>
    cases rule with
    | momentumDescent rate momentum velocity =>
      by_cases hv : velocity.length = gradient.length <;>
        simp [bind, Except.bind, pure, Except.pure, hv] at h
      simp [← h.1, hv, same]
    | _ =>
      simp only [bind, Except.bind, pure, Except.pure, Except.ok.injEq, Prod.mk.injEq] at h
      simp [← h.1, same]
  · cases h

end Rule

end ParamExchange
