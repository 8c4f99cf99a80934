/-
Seeds. What a server makes of a key is drawn from the stream of one seed, into which the seed of the run, the rank
of the server, and the role and the index of the key are mixed. The role stands in the top octet and the index below
it, so on one server the seeds of two keys differ; the rank is multiplied by an odd number, which has an inverse
among the words, so for one key the seeds of two servers differ.
-/
import ParamExchange.Proofs.Init.Validation

namespace ParamExchange

open ParamExchange.Random

/-! ## The place of the role -/

namespace Role

theorem turnRight_number_shift (role : Role) : Initializer.turnRight role.number >>> 56 = role.number := by
  cases role <;> rfl

theorem number_injective {role other : Role} (h : role.number = other.number) : role = other := by
  cases role <;> cases other <;> first | rfl | exact absurd h (by decide)

end Role

/-- An index of seven octets leaves the top octet empty. -/
theorem shiftRight_eq_zero {index : UInt64} (h : index.toNat < 2 ^ 56) : index >>> 56 = 0 := by
  apply UInt64.toNat_inj.1
  rw [UInt64.toNat_shiftRight]
  exact Nat.shiftRight_eq_zero _ _ h

/-- The role of a key can be told from the top octet of its part of a seed, and then its index from the rest. -/
theorem turnRight_xor_eq_iff {role other : Role} {index index' : UInt64} (hindex : index.toNat < 2 ^ 56)
    (hindex' : index'.toNat < 2 ^ 56) :
    Initializer.turnRight role.number ^^^ index = Initializer.turnRight other.number ^^^ index' ↔
      role = other ∧ index = index' := by
  constructor
  · intro h
    have htop := congrArg (· >>> (56 : UInt64)) h
    simp only [UInt64.shiftRight_xor, Role.turnRight_number_shift, shiftRight_eq_zero hindex,
      shiftRight_eq_zero hindex', UInt64.xor_zero] at htop
    obtain rfl := Role.number_injective htop
    exact ⟨rfl, (UInt64.xor_right_inj _).1 h⟩
  · rintro ⟨rfl, rfl⟩
    rfl

/-! ## The part of the rank -/

/-- Factors that have an inverse can be told from a product. -/
theorem mul_left_inj_of_mul_eq_one {factor inverse a b : UInt64} (h : factor * inverse = 1) :
    a * factor = b * factor ↔ a = b := by
  constructor
  · intro hproduct
    have hcancelled := congrArg (· * inverse) hproduct
    simpa only [UInt64.mul_assoc, h, UInt64.mul_one] using hcancelled
  · rintro rfl
    rfl

theorem Store.serverSeed_eq_iff {run rank other : UInt64} :
    serverSeed run rank = serverSeed run other ↔ rank = other := by
  have hodd : (0x9E3779B97F4A7C15 : UInt64) * 0xF1DE83E19937733D = 1 := by decide
  rw [serverSeed, serverSeed, UInt64.xor_right_inj, mul_left_inj_of_mul_eq_one hodd]

/-! ## Seeds of keys on servers -/

/-- The seed of the stream that the server of a rank draws a key from. -/
def Store.streamSeed (run rank : UInt64) (key : Key) : UInt64 := InitConfig.keySeed (serverSeed run rank) key

/-- Seeds do not collide. On the server of any rank a key is drawn from the stream of one seed, and is what its
configuration draws from there. On one server two keys with indices of at most seven octets have the same seed
exactly if they have the same role and index; for one key two servers have the same seed exactly if they have the
same rank. -/
theorem streamSeed_distinct (run : UInt64) :
    (∀ (config : ServerConfig) (rank : UInt64) (store : Store Single), config.seed.getD 0 = run →
      Store.ofConfig config rank = .ok store → ∃ init,
        Initializer.ofConfig config.init (Store.serverSeed run rank) = .ok init ∧ ∀ key,
          init.keySeed key = Store.streamSeed run rank key ∧ ∀ n,
            store.plan.initial key n = init.values key n ∧
            config.init.draw key (Stream.ofSeed (Store.streamSeed run rank key)) n = .ok (store.plan.initial key n)) ∧
    (∀ (rank : UInt64) (key other : Key), key.index.toNat < 2 ^ 56 → other.index.toNat < 2 ^ 56 →
      (Store.streamSeed run rank key = Store.streamSeed run rank other ↔
        key.role = other.role ∧ key.index = other.index)) ∧
    ∀ (key : Key) (rank other : UInt64),
      Store.streamSeed run rank key = Store.streamSeed run other key ↔ rank = other := by
  refine ⟨fun config rank store hrun hstore => ?_, fun rank key other hkey hother => ?_, fun key rank other => ?_⟩
  · subst hrun
    obtain ⟨plan, hplan, rfl⟩ : ∃ plan, Store.planOf config rank = .ok plan ∧ store = .empty plan := by
      rw [Store.ofConfig] at hstore
      rcases hplan : Store.planOf config rank with e | plan <;> rw [hplan] at hstore <;> cases hstore
      exact ⟨plan, rfl, rfl⟩
    obtain ⟨init, hinit, rfl⟩ := Store.planOf_eq_ok hplan
    have hseed : init.seed = Store.serverSeed (config.seed.getD 0) rank :=
      (Initializer.ofConfig_eq_ok_iff.1 hinit).2.2.2.2
    have hkeySeed : ∀ key, init.keySeed key = Store.streamSeed (config.seed.getD 0) rank key := by
      intro key
      rw [Initializer.keySeed, hseed]
      rfl
    exact ⟨init, hinit, fun key => ⟨hkeySeed key, fun n => ⟨rfl, hkeySeed key ▸ Initializer.draw_ofConfig hinit key n⟩⟩⟩
  · rw [Store.streamSeed, Store.streamSeed, InitConfig.keySeed, InitConfig.keySeed, UInt64.xor_assoc, UInt64.xor_assoc,
      UInt64.xor_right_inj, turnRight_xor_eq_iff hkey hother]
  · rw [Store.streamSeed, Store.streamSeed, InitConfig.keySeed, InitConfig.keySeed, UInt64.xor_left_inj,
      UInt64.xor_left_inj, Store.serverSeed_eq_iff]

/-- An index that reaches into the top octet can undo a role. -/
example (run rank : UInt64) :
    Store.streamSeed run rank (.ofRole .weight 0) = Store.streamSeed run rank (.ofRole .bias (3 * 2 ^ 56)) := by
  rw [Store.streamSeed, Store.streamSeed, InitConfig.keySeed, InitConfig.keySeed, UInt64.xor_assoc, UInt64.xor_assoc]
  rfl

/-- A run with the usual generators. -/
def usualRun : ServerConfig := ⟨1, some 3, .default, .additive, ServerConfig.defaultMomentum⟩

/-- The slices of one weight are drawn from two streams by two servers, and a weight and a bias by one. -/
theorem streamSeed_distinct_usualRun :
    let weight := Key.ofRole .weight 0
    Store.streamSeed 3 0 weight ≠ Store.streamSeed 3 1 weight ∧
    Store.streamSeed 3 1 weight ≠ Store.streamSeed 3 1 (.ofRole .bias 0) ∧
    ∃ first second, Store.ofConfig usualRun 0 = .ok first ∧ Store.ofConfig usualRun 1 = .ok second ∧ ∀ n,
      usualRun.init.draw weight (Stream.ofSeed (Store.streamSeed 3 0 weight)) n = .ok (first.plan.initial weight n) ∧
      usualRun.init.draw weight (Stream.ofSeed (Store.streamSeed 3 1 weight)) n =
        .ok (second.plan.initial weight n) := by
  intro weight
  obtain ⟨hdrawn, hkeys, hranks⟩ := streamSeed_distinct 3
  obtain ⟨first, hfirst⟩ : ∃ store, Store.ofConfig usualRun 0 = .ok store := ⟨_, rfl⟩
  obtain ⟨second, hsecond⟩ : ∃ store, Store.ofConfig usualRun 1 = .ok store := ⟨_, rfl⟩
  obtain ⟨_, -, hweight⟩ := hdrawn usualRun 0 first rfl hfirst
  obtain ⟨_, -, hweight'⟩ := hdrawn usualRun 1 second rfl hsecond
  refine ⟨fun h => absurd ((hranks weight 0 1).1 h) (by decide), fun h => ?_, first, second, hfirst, hsecond,
    fun n => ⟨((hweight weight).2 n).2, ((hweight' weight).2 n).2⟩⟩
  exact absurd ((hkeys 1 weight (.ofRole .bias 0) (by decide) (by decide)).1 h).1 (by decide)

end ParamExchange
