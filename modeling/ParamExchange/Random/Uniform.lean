/-
Uniform numbers of single precision: a number of 23 random bits, scaled to a range.
-/
import ParamExchange.Number.Single
import ParamExchange.Random.Stream

namespace ParamExchange.Random

/-- A range by its lower end and its width. -/
structure Uniform where
  low : Single
  scale : Single
  deriving DecidableEq, Repr

/-- Why there is no uniform distribution on a range. -/
inductive UniformError
  | emptyRange
  | nonFinite
  deriving DecidableEq, Repr

/-- The diagnostic of a range. -/
def UniformError.message : UniformError → String
  | .emptyRange => "low > high (or equal if exclusive) in uniform distribution"
  | .nonFinite => "Non-finite range in uniform distribution"

namespace Uniform

/-- The largest number that the random bits give: one less `2 ^ -23`. -/
def largest : Single := ⟨0x3F7FFFFE⟩

/-- The largest width, from `bits` on downwards, with which no number lies above `high`. -/
def shrink (low high : Single) : Nat → Single
  | 0 => ⟨0⟩
  | bits + 1 =>
    let scale : Single := ⟨UInt32.ofNat (bits + 1)⟩
    if high.lessThan (scale * largest + low) then shrink low high bits else scale

/-- The distribution on a finite range, of the width `scale` before it is shrunk. -/
def ofScale (low high scale : Single) : Except UniformError Uniform :=
  if scale.isFinite then .ok ⟨low, shrink low high scale.bits.toNat⟩ else .error .nonFinite

/-- The distribution on the numbers from `low` up to but without `high`. -/
def exclusive (low high : Single) : Except UniformError Uniform :=
  if !low.isFinite || !high.isFinite then .error .nonFinite
  else if !low.lessThan high then .error .emptyRange
  else ofScale low high (high - low)

/-- The distribution on the numbers from `low` up to `high`. -/
def inclusive (low high : Single) : Except UniformError Uniform :=
  if !low.isFinite || !high.isFinite then .error .nonFinite
  else if !low.atMost high then .error .emptyRange
  else ofScale low high ((high - low) / largest)

/-- The next number of a distribution. -/
def draw (d : Uniform) (s : Stream) : Single × Stream :=
  let (w, s) := s.word
  let bits : UInt32 := w >>> 9 ||| 0x3F800000
  ((Single.mk bits - Single.one) * d.scale + d.low, s)

end Uniform

end ParamExchange.Random
