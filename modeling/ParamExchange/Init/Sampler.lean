/-
Samplers: what fills a new parameter with values. A sampler is made from a generator's description
and then never fails.
-/
import ParamExchange.Config.Server
import ParamExchange.Random.Normal
import ParamExchange.Random.Uniform

namespace ParamExchange

open ParamExchange.Random

/-- Why a distribution can not be sampled: a range or a normal distribution is refused, or the
numbers of inputs and outputs have no word as their sum. -/
inductive SamplerError
  | normal (e : NormalError)
  | uniform (e : UniformError)
  | fanOverflow (fanIn fanOut : UInt64)
  deriving DecidableEq, Repr

namespace SamplerError

/-- The diagnostic of the cause. -/
def source? : SamplerError → Option String
  | normal e => some e.message
  | uniform e => some e.message
  | fanOverflow _ _ => none

/-- The diagnostic of a sampler error. -/
def message : SamplerError → String
  | normal e => "invalid normal distribution: " ++ e.message
  | uniform e => "invalid uniform distribution: " ++ e.message
  | fanOverflow fanIn fanOut => s!"{fanIn.toNat} inputs and {fanOut.toNat} outputs are too many"

end SamplerError

/-- What values are drawn from: one value, a range or a normal distribution. -/
inductive Sampler
  | constant (value : Single)
  | uniform (d : Uniform)
  | normal (d : Normal)
  deriving DecidableEq, Repr

namespace Sampler

/-! ## From descriptions -/

/-- The sampler of a range, if there is one. -/
def ofUniform (d : Except UniformError Uniform) : Except SamplerError Sampler :=
  match d with
  | .ok d => .ok (uniform d)
  | .error e => .error (.uniform e)

/-- The sampler of a normal distribution, if there is one. -/
def ofNormal (d : Except NormalError Normal) : Except SamplerError Sampler :=
  match d with
  | .ok d => .ok (normal d)
  | .error e => .error (.normal e)

/-- The number of inputs and outputs together. -/
def fan (fanIn fanOut : UInt64) : Except SamplerError UInt64 :=
  if fanIn.toNat + fanOut.toNat < UInt64.size then .ok (fanIn + fanOut)
  else .error (.fanOverflow fanIn fanOut)

/-- The square root of a numerator over a number of inputs or outputs. -/
def spread (numerator : UInt64) (fan : UInt64) : Single :=
  (Single.ofWord numerator / Single.ofWord fan).sqrt

/-- The sampler of the range between a number and its opposite. -/
def symmetric (bound : Single) : Except SamplerError Sampler :=
  ofUniform (Uniform.exclusive (-bound) bound)

/-- The sampler of a distribution. -/
def ofDistribution : Distribution → Except SamplerError Sampler
  | .uniform low high => ofUniform (Uniform.exclusive low high)
  | .uniformInclusive low high => ofUniform (Uniform.inclusive low high)
  | .xavierUniform fanIn fanOut => do symmetric (spread 6 (← fan fanIn fanOut))
  | .lecunUniform fanIn => symmetric (spread 3 fanIn)
  | .normal mean stdDev => ofNormal (Normal.make mean stdDev)
  | .kaiming fanIn => ofNormal (Normal.make 0 (spread 2 fanIn))
  | .xavier fanIn fanOut => do ofNormal (Normal.make 0 (spread 2 (← fan fanIn fanOut)))
  | .lecun fanIn => ofNormal (Normal.make 0 (spread 1 fanIn))

/-- The sampler of a generator. -/
def ofGenerator : Generator → Except SamplerError Sampler
  | .constant value => .ok (constant value)
  | .random d => ofDistribution d

/-! ## Values -/

/-- The next value. -/
def draw (sampler : Sampler) (s : Stream) : Single × Stream :=
  match sampler with
  | constant value => (value, s)
  | uniform d => d.draw s
  | normal d => d.draw s

/-- The next values, so many of them. -/
def fill (sampler : Sampler) (s : Stream) : Nat → List Single × Stream
  | 0 => ([], s)
  | count + 1 =>
    let (x, s) := sampler.draw s
    let (xs, s) := sampler.fill s count
    (x :: xs, s)

end Sampler

end ParamExchange
