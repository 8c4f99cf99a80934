/-
What the arithmetic of parameters needs of its numbers: a zero, addition, subtraction,
multiplication and negation. No law is asked for, so single precision numbers are scalars as
rational numbers are.
-/

namespace ParamExchange

/-- Numbers that parameters and gradients are made of. -/
class Scalar (α : Type) extends Zero α, Add α, Sub α, Mul α, Neg α

instance : Scalar Rat where
  zero := Rat.ofInt 0
  add := Rat.add
  sub := Rat.sub
  mul := Rat.mul
  neg := Rat.neg

end ParamExchange
