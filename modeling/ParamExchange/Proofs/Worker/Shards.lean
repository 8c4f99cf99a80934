/-
The shards of a worker. Every `rankSize`-th shard from the rank on is the list of all shards whose
remainder is the rank, in increasing order.
-/
import Mathlib.Tactic
import ParamExchange.Worker.Shards

namespace ParamExchange.Identity

theorem rank_toNat_lt (i : Identity) : i.rank.toNat < i.rankSize.toNat := UInt64.lt_iff_toNat_lt.1 i.rank_lt

/-- The shards of a worker are those below the total that it owns. -/
theorem mem_owned {i : Identity} {total shard : Nat} :
    shard ∈ i.owned total ↔ shard < total ∧ i.owns shard = true := by
  have hrank := i.rank_toNat_lt
  have hsize : 0 < i.rankSize.toNat := by omega
  rw [owned, List.mem_range', owns, beq_iff_eq]
  constructor
  · rintro ⟨k, hk, rfl⟩
    -- there are `k + 1` shards of the worker up to this one
    have hcount := (Nat.le_div_iff_mul_le hsize).1 (Nat.succ_le_of_lt hk)
    rw [Nat.succ_mul, Nat.mul_comm k] at hcount
    rw [Nat.add_mul_mod_self_left, Nat.mod_eq_of_lt hrank]
    exact ⟨by omega, rfl⟩
  · rintro ⟨hlt, hmod⟩
    have hdiv := Nat.mod_add_div shard i.rankSize.toNat
    rw [hmod] at hdiv
    refine ⟨shard / i.rankSize.toNat, ?_, hdiv.symm⟩
    refine Nat.lt_of_succ_le ((Nat.le_div_iff_mul_le hsize).2 ?_)
    rw [Nat.succ_mul, Nat.mul_comm]
    omega

theorem pairwise_owned (i : Identity) (total : Nat) : (i.owned total).Pairwise (· < ·) := by
  have hsize : 0 < i.rankSize.toNat := Nat.zero_lt_of_lt i.rank_toNat_lt
  exact List.pairwise_lt_range' _ hsize

end ParamExchange.Identity
