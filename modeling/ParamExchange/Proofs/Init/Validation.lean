/-
Validation. A configuration is accepted, with whatever seed, exactly if its overrides are for weights and biases
and every distribution in it can be sampled. A parameter that is made later selects one of its generators again,
with another seed, and makes a sampler of it again: as every generator that can be selected was looked at, this
fails for no key, and every element of the buffer is overwritten.
-/
import ParamExchange.Proofs.Init.Drawing
import ParamExchange.Proofs.Key.Partners
import ParamExchange.Proofs.Store.Lengths

namespace ParamExchange

open ParamExchange.Random

/-! ## Filling a buffer -/

/-- Overwrites the elements of a buffer, one after another, with the next values. -/
def Sampler.overwrite (sampler : Sampler) : List Single → Stream → List Single × Stream
  | [], s => ([], s)
  | _ :: rest, s =>
    let (x, s) := sampler.draw s
    let (xs, s) := sampler.overwrite rest s
    (x :: xs, s)

/-- Every element is overwritten, so what the buffer held does not matter. -/
theorem Sampler.overwrite_eq (sampler : Sampler) (buffer : List Single) (s : Stream) :
    sampler.overwrite buffer s = sampler.fill s buffer.length := by
  induction buffer generalizing s with
  | nil => rfl
  | cons x rest ih => simp only [overwrite, ih, List.length_cons, fill]

namespace InitConfig

/-- The seed of a key. -/
def keySeed (seed : UInt64) (key : Key) : UInt64 :=
  seed ^^^ Initializer.turnRight key.role.number ^^^ key.index

/-- Fills a buffer with the initial values of a key, as the configuration says. -/
def initLayer (config : InitConfig) (seed : UInt64) (key : Key) (buffer : List Single) :
    Except SamplerError (List Single) :=
  if key.role.isMomentum then .ok (buffer.map fun _ => 0)
  else
    match config.generatorOf key with
    | .constant value => .ok (buffer.map fun _ => value)
    | .random distribution => do
      let sampler ← Sampler.ofDistribution distribution
      pure (sampler.overwrite buffer (Stream.ofSeed (keySeed seed key))).1

/-- A configuration draws the values of a key into a buffer of any contents. -/
theorem initLayer_eq_draw (config : InitConfig) (seed : UInt64) (key : Key) (buffer : List Single) :
    config.initLayer seed key buffer = config.draw key (Stream.ofSeed (keySeed seed key)) buffer.length := by
  unfold initLayer draw
  split
  · rw [List.map_const']
  · cases config.generatorOf key with
    | constant value =>
      simp only [Sampler.ofGenerator, Except.map, Initializer.fill_constant, List.map_const']
    | random distribution =>
      simp only [Sampler.ofGenerator, Sampler.overwrite_eq]
      cases Sampler.ofDistribution distribution <;> rfl

end InitConfig

/-! ## Acceptance -/

/-- A generator whose distribution, if it has one, can be sampled. -/
def Generator.IsConstructible (g : Generator) : Prop :=
  ∀ distribution, g = .random distribution → ∃ sampler, Sampler.ofDistribution distribution = .ok sampler

/-- A configuration whose overrides are for weights and biases, and whose generators can all be constructed. -/
structure InitConfig.IsValid (config : InitConfig) : Prop where
  names : ∀ row ∈ config.overrides, ∃ key, Key.ofName row.1 = .ok key ∧ (key.role = .weight ∨ key.role = .bias)
  weight : config.weight.IsConstructible
  bias : config.bias.IsConstructible
  overrides : ∀ row ∈ config.overrides, row.2.IsConstructible

theorem Generator.isConstructible_iff {g : Generator} :
    g.IsConstructible ↔ ∃ sampler, Sampler.ofGenerator g = .ok sampler := by
  cases g with
  | constant value => exact iff_of_true nofun ⟨_, rfl⟩
  | random distribution =>
    constructor
    · intro h
      exact h distribution rfl
    · rintro h _ ⟨⟩
      exact h

theorem Role.isMomentum_eq_false_iff {role : Role} : role.isMomentum = false ↔ role = .weight ∨ role = .bias := by
  cases role <;> simp [isMomentum]

namespace Initializer

theorem checkOverride_eq_ok_iff {name : String} :
    checkOverride name = .ok () ↔ ∃ key, Key.ofName name = .ok key ∧ (key.role = .weight ∨ key.role = .bias) := by
  unfold checkOverride
  cases Key.ofName name with
  | error e => simp
  | ok key =>
    simp [← Role.isMomentum_eq_false_iff]

theorem checkOverrides_eq_ok_iff {rows : List (String × Generator)} :
    checkOverrides rows = .ok () ↔ ∀ row ∈ rows, checkOverride row.1 = .ok () := by
  induction rows with
  | nil => exact iff_of_true rfl nofun
  | cons row rows ih =>
    rw [List.forall_mem_cons, ← ih]
    show (checkOverride row.1 >>= fun _ => checkOverrides rows) = .ok () ↔ _
    rcases checkOverride row.1 with e | ⟨⟩
    · exact iff_of_false nofun fun h => nomatch h.1
    · exact (and_iff_right rfl).symm

theorem exists_samplers_iff {rows : List (String × Generator)} :
    (∃ made, samplers rows = .ok made) ↔ ∀ row ∈ rows, ∃ s, sampler row.2 = .ok s := by
  induction rows with
  | nil => exact iff_of_true ⟨[], rfl⟩ nofun
  | cons row rows ih =>
    rw [List.forall_mem_cons, ← ih]
    constructor
    · rintro ⟨made, h⟩
      obtain ⟨s, hs, h⟩ := ok_of_bind h
      obtain ⟨rest, hrest, -⟩ := ok_of_bind h
      exact ⟨⟨s, hs⟩, rest, hrest⟩
    · rintro ⟨⟨s, hs⟩, rest, hrest⟩
      refine ⟨(row.1, s) :: rest, ?_⟩
      rw [samplers, hs, hrest]
      rfl

/-- A configuration is accepted exactly if it is valid; the seed has no part in it. -/
theorem exists_ofConfig_iff {config : InitConfig} {seed : UInt64} :
    (∃ init, ofConfig config seed = .ok init) ↔ config.IsValid := by
  have hsampler : ∀ g, g.IsConstructible ↔ ∃ s, sampler g = .ok s := by
    intro g
    simp only [Generator.isConstructible_iff, sampler_eq_ok_iff]
  constructor
  · rintro ⟨init, h⟩
    obtain ⟨hcheck, hweight, hbias, hoverrides, -⟩ := ofConfig_eq_ok_iff.1 h
    refine ⟨fun row hrow => ?_, (hsampler _).2 ⟨_, hweight⟩, (hsampler _).2 ⟨_, hbias⟩, fun row hrow => ?_⟩
    · exact checkOverride_eq_ok_iff.1 (checkOverrides_eq_ok_iff.1 hcheck row hrow)
    · exact (hsampler _).2 (exists_samplers_iff.1 ⟨_, hoverrides⟩ row hrow)
  · intro h
    obtain ⟨weight, hweight⟩ := (hsampler _).1 h.weight
    obtain ⟨bias, hbias⟩ := (hsampler _).1 h.bias
    obtain ⟨overrides, hoverrides⟩ := exists_samplers_iff.2 fun row hrow => (hsampler _).1 (h.overrides row hrow)
    have hcheck := checkOverrides_eq_ok_iff.2 fun row hrow => checkOverride_eq_ok_iff.2 (h.names row hrow)
    exact ⟨⟨seed, weight, bias, overrides⟩, ofConfig_eq_ok_iff.2 ⟨hcheck, hweight, hbias, hoverrides, rfl⟩⟩

/-- The values that are made later are those of the initializer. -/
theorem initLayer_ofConfig {config : InitConfig} {seed : UInt64} {init : Initializer}
    (h : ofConfig config seed = .ok init) (key : Key) (buffer : List Single) :
    config.initLayer seed key buffer = .ok (init.values key buffer.length) := by
  obtain ⟨-, -, -, -, rfl⟩ := ofConfig_eq_ok_iff.1 h
  rw [InitConfig.initLayer_eq_draw]
  exact draw_ofConfig h key buffer.length

end Initializer

/-! ## Selection -/

/-- `Selects config key g`: a weight or a bias is made by a generator. -/
inductive Selects (config : InitConfig) (key : Key) : Generator → Prop
  | own {g : Generator} : config.overrides.lookup key.name = some g → Selects config key g
  | bias : (∀ row ∈ config.overrides, row.1 ≠ key.name) → key.role = .bias → Selects config key config.bias
  | weight : (∀ row ∈ config.overrides, row.1 ≠ key.name) → key.role = .weight → Selects config key config.weight

namespace InitConfig

variable {config : InitConfig} {key : Key}

theorem selects_generatorOf (hkey : key.role.isMomentum = false) : Selects config key (config.generatorOf key) := by
  unfold generatorOf
  rcases hlookup : config.overrides.lookup key.name with _ | g
  · have hothers : ∀ row ∈ config.overrides, row.1 ≠ key.name := by
      intro row hrow heq
      exact absurd (List.lookup_eq_none_iff.1 hlookup row hrow) (by simp [heq])
    rcases Role.isMomentum_eq_false_iff.1 hkey with hrole | hrole
    · simpa [hrole] using Selects.weight hothers hrole
    · simpa [hrole] using Selects.bias hothers hrole
  · exact .own hlookup

/-- An override under another name is not seen. -/
theorem initLayer_put {name : String} (h : key.name ≠ name) (g : Generator) (seed : UInt64) (buffer : List Single) :
    initLayer { config with overrides := Table.put name g config.overrides } seed key buffer =
      config.initLayer seed key buffer := by
  have hlookup : (Table.put name g config.overrides).lookup key.name = config.overrides.lookup key.name :=
    (Table.get?_put name key.name g config.overrides).trans (if_neg h)
  simp only [initLayer, generatorOf, hlookup]

/-- An accepted configuration fills every buffer for every key. -/
theorem IsValid.initLayer (h : config.IsValid) (seed : UInt64) (key : Key) (buffer : List Single) :
    ∃ values, config.initLayer seed key buffer = .ok values ∧ values.length = buffer.length ∧
      (key.role.isMomentum = true → values = List.replicate buffer.length 0) ∧
      (key.role.isMomentum = false → ∃ g sampler, Selects config key g ∧ Sampler.ofGenerator g = .ok sampler ∧
        values = (sampler.fill (Stream.ofSeed (keySeed seed key)) buffer.length).1) := by
  obtain ⟨init, hinit⟩ : ∃ init, Initializer.ofConfig config seed = .ok init := Initializer.exists_ofConfig_iff.2 h
  refine ⟨_, Initializer.initLayer_ofConfig hinit key buffer, Sampler.length_fill _ _ _, fun hkey => ?_,
    fun hkey => ⟨_, _, selects_generatorOf hkey, Initializer.ofGenerator_generatorOf hinit hkey, ?_⟩⟩
  · rw [Initializer.values, Initializer.samplerOf, if_pos hkey, Initializer.fill_constant]
  · obtain ⟨-, -, -, -, rfl⟩ := Initializer.ofConfig_eq_ok_iff.1 hinit
    rfl

end InitConfig

end ParamExchange
