/-
Servers whose generators are constant. Their initial values do not depend on the seed, so servers of
every rank are accepted alike and make the same entries, and a part of a parameter is made as the
whole parameter is.
-/
import ParamExchange.Proofs.Store.Slices
import ParamExchange.Server.Basic

namespace ParamExchange

open ParamExchange.Random

/-- What succeeded has parts that succeeded. -/
theorem ok_of_bind {ε α β : Type} {x : Except ε α} {f : α → Except ε β} {b : β}
    (h : (x >>= f) = .ok b) : ∃ a, x = .ok a ∧ f a = .ok b := by
  rcases x with e | a
  · cases h
  · exact ⟨a, rfl, h⟩

/-! ## Constant generators -/

/-- Every generator gives one value. -/
structure InitConfig.IsConstant (config : InitConfig) : Prop where
  weight : ∃ value, config.weight = .constant value
  bias : ∃ value, config.bias = .constant value
  overrides : ∀ row ∈ config.overrides, ∃ value, row.2 = .constant value

/-- Every sampler gives one value. -/
structure Initializer.IsConstant (init : Initializer) : Prop where
  weight : ∃ value, init.weight = .constant value
  bias : ∃ value, init.bias = .constant value
  overrides : ∀ row ∈ init.overrides, ∃ value, row.2 = .constant value

namespace Initializer

theorem sampler_constant {g : Generator} {s : Sampler} (h : sampler g = .ok s)
    (hg : ∃ value, g = .constant value) : ∃ value, s = .constant value := by
  obtain ⟨value, rfl⟩ := hg
  cases h
  exact ⟨value, rfl⟩

theorem samplers_constant {rows : List (String × Generator)} {made : List (String × Sampler)}
    (h : samplers rows = .ok made) (hrows : ∀ row ∈ rows, ∃ value, row.2 = .constant value) :
    ∀ row ∈ made, ∃ value, row.2 = .constant value := by
  induction rows generalizing made with
  | nil => cases h; nofun
  | cons row rows ih =>
    obtain ⟨s, hs, h⟩ := ok_of_bind h
    obtain ⟨rest, hrest, h⟩ := ok_of_bind h
    cases h
    intro other hother
    rcases List.mem_cons.1 hother with rfl | hother
    · exact sampler_constant hs (hrows row (List.mem_cons_self ..))
    · exact ih hrest (fun x hx => hrows x (List.mem_cons_of_mem _ hx)) other hother

/-- What an accepted configuration is made of. -/
theorem ofConfig_eq_ok_iff {config : InitConfig} {seed : UInt64} {init : Initializer} :
    ofConfig config seed = .ok init ↔
      checkOverrides config.overrides = .ok () ∧ sampler config.weight = .ok init.weight ∧
        sampler config.bias = .ok init.bias ∧ samplers config.overrides = .ok init.overrides ∧
        init.seed = seed := by
  constructor
  · intro h
    obtain ⟨⟨⟩, hcheck, h⟩ := ok_of_bind h
    obtain ⟨weight, hweight, h⟩ := ok_of_bind h
    obtain ⟨bias, hbias, h⟩ := ok_of_bind h
    obtain ⟨overrides, hoverrides, h⟩ := ok_of_bind h
    cases h
    exact ⟨hcheck, hweight, hbias, hoverrides, rfl⟩
  · rintro ⟨hcheck, hweight, hbias, hoverrides, rfl⟩
    unfold ofConfig
    rw [hcheck, hweight, hbias, hoverrides]
    rfl

theorem isConstant_ofConfig {config : InitConfig} {seed : UInt64} {init : Initializer}
    (h : ofConfig config seed = .ok init) (hconfig : config.IsConstant) : init.IsConstant := by
  obtain ⟨-, hweight, hbias, hoverrides, -⟩ := ofConfig_eq_ok_iff.1 h
  exact ⟨sampler_constant hweight hconfig.weight, sampler_constant hbias hconfig.bias,
    samplers_constant hoverrides hconfig.overrides⟩

theorem samplerOf_constant {init : Initializer} (h : init.IsConstant) (key : Key) :
    ∃ value, init.samplerOf key = .constant value := by
  unfold samplerOf
  split
  · exact ⟨0, rfl⟩
  · rcases hl : init.overrides.lookup key.name with _ | s
    · simp only
      split
      · exact h.bias
      · exact h.weight
    · obtain ⟨before, after, hrows, -⟩ := List.lookup_eq_some_iff.1 hl
      exact h.overrides (key.name, s) (by rw [hrows]; simp)

theorem fill_constant (value : Single) (s : Stream) (n : Nat) :
    ((Sampler.constant value).fill s n).1 = List.replicate n value := by
  induction n with
  | zero => rfl
  | succ n ih =>
    rw [List.replicate_succ, ← ih]
    rfl

/-- Constant samplers give the same values with every seed, and to every element. -/
theorem values_constant {init : Initializer} (h : init.IsConstant) (key : Key) :
    ∃ value, ∀ seed n, ({ init with seed := seed } : Initializer).values key n = List.replicate n value := by
  obtain ⟨value, hvalue⟩ := samplerOf_constant h key
  refine ⟨value, fun seed n => ?_⟩
  show ((init.samplerOf key).fill _ n).1 = _
  rw [hvalue, fill_constant]

end Initializer

/-! ## Plans and servers -/

namespace Store

theorem planOf_eq_ok {config : ServerConfig} {rank : UInt64} {plan : Plan Single}
    (h : planOf config rank = .ok plan) :
    ∃ init, Initializer.ofConfig config.init (serverSeed (config.seed.getD 0) rank) = .ok init ∧
      plan = ⟨init.values, config.update, config.momentum⟩ := by
  unfold planOf at h
  split at h
  · cases h
  · rename_i init hinit
    cases h
    exact ⟨init, hinit, rfl⟩

/-- With constant generators the servers of all ranks have one plan. -/
theorem planOf_rank {config : ServerConfig} {rank : UInt64} {plan : Plan Single}
    (h : planOf config rank = .ok plan) (hconfig : config.init.IsConstant) (other : UInt64) :
    planOf config other = .ok plan := by
  obtain ⟨init, hinit, rfl⟩ := planOf_eq_ok h
  obtain ⟨hcheck, hweight, hbias, hoverrides, hseed⟩ := Initializer.ofConfig_eq_ok_iff.1 hinit
  have hother : Initializer.ofConfig config.init (serverSeed (config.seed.getD 0) other) =
      .ok { init with seed := serverSeed (config.seed.getD 0) other } :=
    Initializer.ofConfig_eq_ok_iff.2 ⟨hcheck, hweight, hbias, hoverrides, rfl⟩
  have hvalues : ({ init with seed := serverSeed (config.seed.getD 0) other } : Initializer).values =
      init.values := by
    funext key n
    obtain ⟨value, hvalue⟩ :=
      Initializer.values_constant (Initializer.isConstant_ofConfig hinit hconfig) key
    rw [hvalue]
    exact (hvalue init.seed n).symm
  unfold planOf
  rw [hother]
  simp only [hvalues]

theorem isEven_planOf {config : ServerConfig} {rank : UInt64} {plan : Plan Single}
    (h : planOf config rank = .ok plan) (hconfig : config.init.IsConstant) : plan.IsEven := by
  obtain ⟨init, hinit, rfl⟩ := planOf_eq_ok h
  have hvalues := Initializer.values_constant (Initializer.isConstant_ofConfig hinit hconfig)
  refine ⟨fun key n => ?_, fun key n span hspan => ?_⟩
  · obtain ⟨value, hvalue⟩ := hvalues key
    have hwhole : init.values key n = List.replicate n value := hvalue init.seed n
    show (init.values key n).length = n
    rw [hwhole, List.length_replicate]
  · obtain ⟨value, hvalue⟩ := hvalues key
    have hwhole : init.values key n = List.replicate n value := hvalue init.seed n
    have hpart : init.values key span.length = List.replicate span.length value :=
      hvalue init.seed span.length
    show span.slice (init.values key n) = init.values key span.length
    rw [hwhole, hpart, Network.Span.slice_replicate hspan]

end Store

/-- Servers of all ranks are accepted if one is, and they are the same. -/
theorem Server.ofConfig_rank {config : ServerConfig} {rank : UInt64} {server : Server}
    (h : Server.ofConfig config rank = .ok server) (hconfig : config.init.IsConstant) :
    ∃ plan : Plan Single, plan.IsEven ∧ server = ⟨.empty plan, none⟩ ∧
      ∀ other, Server.ofConfig config other = .ok server := by
  unfold Server.ofConfig at h
  split at h
  · cases h
  · rename_i hworkers
    rcases hplan : Store.planOf config rank with e | plan
    · rw [Store.ofConfig, hplan] at h
      cases h
    · rw [Store.ofConfig, hplan] at h
      cases h
      refine ⟨plan, Store.isEven_planOf hplan hconfig, rfl, fun other => ?_⟩
      unfold Server.ofConfig Store.ofConfig
      rw [if_neg hworkers, Store.planOf_rank hplan hconfig other]
      rfl

end ParamExchange
