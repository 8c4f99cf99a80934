/-
The initial values of parameters. They depend on the key alone: accumulators start at zero, a key
with a generator of its own is filled by it, and all others by the generator of weights or of
biases. A generator that can not be sampled is refused before any parameter is made.
-/
import ParamExchange.Init.Sampler
import ParamExchange.Key.Basic

namespace ParamExchange

open ParamExchange.Random

/-- Why there are no initial values. -/
inductive InitError
  | sampler (e : SamplerError)
  | override (e : KeyError)
  | momentumOverride (key : String)
  deriving DecidableEq, Repr

namespace InitError

/-- The diagnostic of the cause. -/
def source? : InitError → Option String
  | sampler e => some e.message
  | override e => some e.message
  | momentumOverride _ => none

/-- The diagnostic of an initialization error. -/
def message : InitError → String
  | sampler e => e.message
  | override e => "invalid initialization override: " ++ e.message
  | momentumOverride key => s!"`{key}` is a momentum accumulator, it can't be overridden"

end InitError

/-- Samplers for all parameters, and the seed that their values are drawn with. -/
structure Initializer where
  seed : UInt64
  weight : Sampler
  bias : Sampler
  overrides : List (String × Sampler)
  deriving DecidableEq, Repr

namespace Initializer

/-! ## Acceptance -/

/-- A generator of its own may only be given to a weight or a bias. -/
def checkOverride (name : String) : Except InitError Unit :=
  match Key.ofName name with
  | .error e => .error (.override e)
  | .ok key => if key.role.isMomentum then .error (.momentumOverride name) else .ok ()

/-- The sampler of a generator. -/
def sampler (g : Generator) : Except InitError Sampler :=
  match Sampler.ofGenerator g with
  | .error e => .error (.sampler e)
  | .ok s => .ok s

/-- The samplers of the generators of single keys. -/
def samplers : List (String × Generator) → Except InitError (List (String × Sampler))
  | [] => .ok []
  | (name, g) :: rest => do
    let s ← sampler g
    let ss ← samplers rest
    pure ((name, s) :: ss)

/-- The names of single keys, looked at one after another. -/
def checkOverrides : List (String × Generator) → Except InitError Unit
  | [] => .ok ()
  | (name, _) :: rest => do
    checkOverride name
    checkOverrides rest

/-- The initializer of a configuration and a seed. -/
def ofConfig (config : InitConfig) (seed : UInt64) : Except InitError Initializer := do
  checkOverrides config.overrides
  let weight ← sampler config.weight
  let bias ← sampler config.bias
  let overrides ← samplers config.overrides
  pure ⟨seed, weight, bias, overrides⟩

/-! ## Values -/

/-- A word turned right by eight bits. -/
def turnRight (x : UInt64) : UInt64 := (x >>> 8) ||| (x <<< 56)

/-- The seed of a key: the role is mixed into the top bits and the index into the lower ones. -/
def keySeed (init : Initializer) (key : Key) : UInt64 :=
  init.seed ^^^ turnRight key.role.number ^^^ key.index

/-- The sampler of a key. -/
def samplerOf (init : Initializer) (key : Key) : Sampler :=
  if key.role.isMomentum then .constant 0
  else
    match init.overrides.lookup key.name with
    | some s => s
    | none => if key.role = .bias then init.bias else init.weight

/-- The initial values of a key of so many elements. -/
def values (init : Initializer) (key : Key) (length : Nat) : List Single :=
  ((init.samplerOf key).fill (Stream.ofSeed (init.keySeed key)) length).1

end Initializer

end ParamExchange
