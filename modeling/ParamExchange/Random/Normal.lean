/-
Normal numbers: the standard normal distribution in double precision by the ziggurat method,
stretched to a mean and a deviation in single precision.
-/
import ParamExchange.Number.Single
import ParamExchange.Random.Stream
import ParamExchange.Random.Ziggurat

namespace ParamExchange.Random

/-- A mean and a standard deviation. -/
structure Normal where
  mean : Single
  stdDev : Single
  deriving DecidableEq, Repr

/-- Why there is no normal distribution of a deviation. -/
inductive NormalError
  | badVariance
  deriving DecidableEq, Repr

/-- The diagnostic of a deviation. -/
def NormalError.message : NormalError → String
  | .badVariance => "variation parameter is non-finite in (log)normal distribution"

namespace Normal

/-! ## The standard normal distribution -/

/-- The next number strictly between zero and one. -/
def openUnit (s : Stream) : Float × Stream :=
  let (w, s) := s.doubleWord
  (Float.ofBits (w >>> 12 ||| 0x3FF0000000000000) - Float.ofBits 0x3FEFFFFFFFFFFFFF, s)

/-- The next number from zero up to but without one. -/
def halfOpenUnit (s : Stream) : Float × Stream :=
  let (w, s) := s.doubleWord
  ((w >>> 11).toFloat * Float.ofBits 0x3CA0000000000000, s)

/-- A number beyond the edge of the base layer, on the side that `u` is on. At most `fuel` pairs
are tried. -/
def tail (u : Float) (s : Stream) : Nat → Float × Stream
  | 0 => (0, s)
  | fuel + 1 =>
    let (a, s) := openUnit s
    let (b, s) := openUnit s
    let x := Float.log a / Ziggurat.edge 1
    let y := Float.log b
    if -2.0 * y < x * x then tail u s fuel
    else if u < 0.0 then (x - Ziggurat.edge 1, s)
    else (Ziggurat.edge 1 - x, s)

/-- How often a number is tried before the search is given up. A number is accepted at the first
try in all but about one case in a hundred. -/
def tries : Nat := 1000

/-- The next number of the standard normal distribution, after at most `fuel` tries. -/
def standard (s : Stream) : Nat → Float × Stream
  | 0 => (0, s)
  | fuel + 1 =>
    let (bits, s) := s.doubleWord
    let layer := (bits &&& 0xFF).toNat
    let u := Float.ofBits (bits >>> 12 ||| 0x4000000000000000) - 3.0
    let x := u * Ziggurat.edge layer
    if x.abs < Ziggurat.edge (layer + 1) then (x, s)
    else if layer = 0 then tail u s tries
    else
      let (r, s) := halfOpenUnit s
      let outer := Ziggurat.height (layer + 1)
      if outer + (Ziggurat.height layer - outer) * r < Float.exp (-x * x / 2.0) then (x, s)
      else standard s fuel

/-! ## Distributions -/

/-- The distribution with a mean and a deviation, which must be finite. -/
def make (mean stdDev : Single) : Except NormalError Normal :=
  if stdDev.isFinite then .ok ⟨mean, stdDev⟩ else .error .badVariance

/-- The next number of a distribution. -/
def draw (d : Normal) (s : Stream) : Single × Stream :=
  let (z, s) := standard s tries
  (d.mean + d.stdDev * Single.ofDouble z, s)

end Normal

end ParamExchange.Random
