/-
Numbers of single precision, held as their 32 bits. Every bit pattern is a value of its own, so
that what is read from a stream is written back unchanged, and arithmetic goes through the value
of the bits, rounded to nearest with ties to even once per operation.
-/
import ParamExchange.Number.Scalar

namespace ParamExchange

/-- A number of single precision. -/
structure Single where
  bits : UInt32
  deriving DecidableEq, Repr

namespace Single

/-- The value of a bit pattern. -/
def value (x : Single) : Float32 := Float32.ofBits x.bits

/-- The bits of a value. -/
def ofValue (x : Float32) : Single := ⟨x.toBits⟩

/-! ## Arithmetic -/

instance : Zero Single := ⟨⟨0⟩⟩
instance : Inhabited Single := ⟨0⟩
instance : Add Single := ⟨fun x y => ofValue (x.value + y.value)⟩
instance : Sub Single := ⟨fun x y => ofValue (x.value - y.value)⟩
instance : Mul Single := ⟨fun x y => ofValue (x.value * y.value)⟩
instance : Div Single := ⟨fun x y => ofValue (x.value / y.value)⟩
instance : Neg Single := ⟨fun x => ofValue (-x.value)⟩
instance : Scalar Single where

/-- The square root. -/
def sqrt (x : Single) : Single := ofValue x.value.sqrt

/-- The number one. -/
def one : Single := ⟨0x3F800000⟩

/-! ## Parts of a bit pattern -/

/-- Whether the sign bit is set. -/
def isNegative (x : Single) : Bool := x.bits >>> 31 == 1

/-- The exponent field. -/
def exponentField (x : Single) : Nat := (x.bits >>> 23 &&& 0xFF).toNat

/-- The fraction field. -/
def fractionField (x : Single) : Nat := (x.bits &&& 0x7FFFFF).toNat

/-- Neither infinite nor NaN. -/
def isFinite (x : Single) : Bool := x.exponentField != 0xFF

/-- Not a number. -/
def isNaN (x : Single) : Bool := x.exponentField == 0xFF && x.fractionField != 0

/-! ## Comparisons -/

/-- Whether `x` is less than `y`; false if one of them is NaN. -/
def lessThan (x y : Single) : Bool := x.value < y.value

/-- Whether `x` is at most `y`; false if one of them is NaN. -/
def atMost (x y : Single) : Bool := x.value ≤ y.value

/-! ## Numbers of other types -/

/-- The nearest number to a word, ties to even. -/
def ofWord (n : UInt64) : Single := ofValue n.toFloat32

/-- The nearest number to one of double precision, ties to even. -/
def ofDouble (x : Float) : Single :=
  let rounded := match Float.Model.UnpackedFloat.unpack .binary64 x.toBits.toBitVec with
    | .finite sign mantissa exponent _ =>
      Float.Model.UnpackedFloat.round .binary32 sign mantissa exponent
    | other => other
  ⟨(Float32.Model.pack rounded).toBits⟩

end Single

end ParamExchange
