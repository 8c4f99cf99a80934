/-
Initial values as a configuration describes them. To draw the values of a key from a configuration, a
sampler is made of the generator of the key, and its description may be refused. An initializer refuses
them all at the beginning: once there is one, drawing fails for no key, and gives the values of the
initializer.
-/
import ParamExchange.Proofs.Store.Constant

namespace ParamExchange

open ParamExchange.Random

namespace InitConfig

/-- The generator of a key: the one of its own, or the one of its role. -/
def generatorOf (config : InitConfig) (key : Key) : Generator :=
  match config.overrides.lookup key.name with
  | some g => g
  | none => if key.role = .bias then config.bias else config.weight

/-- Draws the initial values of a key from a stream. Accumulators are zero. -/
def draw (config : InitConfig) (key : Key) (s : Stream) (n : Nat) : Except SamplerError (List Single) :=
  if key.role.isMomentum then .ok (List.replicate n 0)
  else (Sampler.ofGenerator (config.generatorOf key)).map fun sampler => (sampler.fill s n).1

end InitConfig

namespace Initializer

theorem sampler_eq_ok_iff {g : Generator} {s : Sampler} :
    sampler g = .ok s ↔ Sampler.ofGenerator g = .ok s := by
  unfold sampler
  cases Sampler.ofGenerator g <;> simp

/-- A key has a sampler of its own if it has a generator of its own, and it is that of the generator. -/
theorem lookup_samplers {rows : List (String × Generator)} {made : List (String × Sampler)}
    (h : samplers rows = .ok made) (name : String) :
    (rows.lookup name = none ∧ made.lookup name = none) ∨
      ∃ g s, rows.lookup name = some g ∧ made.lookup name = some s ∧ sampler g = .ok s := by
  induction rows generalizing made with
  | nil =>
    cases h
    exact .inl ⟨rfl, rfl⟩
  | cons row rows ih =>
    obtain ⟨s, hs, h⟩ := ok_of_bind h
    obtain ⟨rest, hrest, h⟩ := ok_of_bind h
    cases h
    rw [List.lookup_cons, List.lookup_cons]
    by_cases hname : name == row.1
    · simp only [hname]
      exact .inr ⟨_, _, rfl, rfl, hs⟩
    · simp only [hname]
      exact ih hrest

/-- The sampler of a weight or a bias is that of its generator. -/
theorem ofGenerator_generatorOf {config : InitConfig} {seed : UInt64} {init : Initializer}
    (h : ofConfig config seed = .ok init) {key : Key} (hkey : key.role.isMomentum = false) :
    Sampler.ofGenerator (config.generatorOf key) = .ok (init.samplerOf key) := by
  obtain ⟨-, hweight, hbias, hoverrides, -⟩ := ofConfig_eq_ok_iff.1 h
  rw [← sampler_eq_ok_iff]
  unfold InitConfig.generatorOf samplerOf
  rcases lookup_samplers hoverrides key.name with ⟨hg, hs⟩ | ⟨g, s, hg, hs, hown⟩
  · rw [hg, hs, hkey]
    by_cases hrole : key.role = .bias <;> simp [hrole, hweight, hbias]
  · rw [hg, hs, hkey]
    simpa using hown

/-- Drawing from an accepted configuration fails for no key, and gives the values of the initializer. -/
theorem draw_ofConfig {config : InitConfig} {seed : UInt64} {init : Initializer}
    (h : ofConfig config seed = .ok init) (key : Key) (n : Nat) :
    config.draw key (Stream.ofSeed (init.keySeed key)) n = .ok (init.values key n) := by
  unfold InitConfig.draw values
  by_cases hkey : key.role.isMomentum = true
  · rw [if_pos hkey, samplerOf, if_pos hkey, fill_constant]
  · rw [if_neg hkey, ofGenerator_generatorOf h (by simpa using hkey)]
    rfl

end Initializer

end ParamExchange
