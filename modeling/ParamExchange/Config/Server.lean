/-
What a server is told: how many workers to wait for, the seed, how parameters come into being and
how they are updated.
-/
import ParamExchange.Number.Single

namespace ParamExchange

/-! ## Initial values -/

/-- A distribution of initial values. The uniform and the normal ones are given by their range or
their deviation, all others derive it from the number of inputs and outputs of a layer. -/
inductive Distribution
  | uniform (low high : Single)
  | uniformInclusive (low high : Single)
  | xavierUniform (fanIn fanOut : UInt64)
  | lecunUniform (fanIn : UInt64)
  | normal (mean stdDev : Single)
  | kaiming (fanIn : UInt64)
  | xavier (fanIn fanOut : UInt64)
  | lecun (fanIn : UInt64)
  deriving DecidableEq, Repr

/-- Where initial values come from. -/
inductive Generator
  | constant (value : Single)
  | random (distribution : Distribution)
  deriving DecidableEq, Repr

/-- The generators of weights, of biases, and of the parameters that have one of their own. -/
structure InitConfig where
  weight : Generator
  bias : Generator
  overrides : List (String × Generator)
  deriving DecidableEq, Repr

/-- The generator of weights unless another one is given. -/
def InitConfig.defaultWeight : Generator := .random (.normal ⟨0⟩ ⟨0x3DCCCCCD⟩)

/-- The generator of biases unless another one is given. -/
def InitConfig.defaultBias : Generator := .constant ⟨0⟩

/-- What is used unless something else is given. -/
def InitConfig.default : InitConfig := ⟨defaultWeight, defaultBias, []⟩

/-! ## Updates -/

/-- How a pushed gradient changes a weight or a bias: it is added, it is subtracted in proportion
to the learning rate, or a velocity is that gathers the gradients and decays. -/
inductive Update (α : Type)
  | additive
  | descent (learningRate : α)
  | momentumDescent (learningRate momentum : α)
  deriving DecidableEq, Repr

/-- What a server is told. -/
structure ServerConfig where
  workers : UInt64
  seed : Option UInt64
  init : InitConfig
  update : Update Single
  momentum : Single
  deriving DecidableEq, Repr

/-- The decay of accumulators unless another one is given. -/
def ServerConfig.defaultMomentum : Single := ⟨0x3F400000⟩

end ParamExchange
