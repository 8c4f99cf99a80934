/-
The data shards of a run: each one is processed by the worker whose rank is the remainder of the
shard by the number of ranks.
-/
import ParamExchange.Identity.Basic

namespace ParamExchange

/-- Whether the worker of a rank processes a shard; without ranks there is no answer. -/
def owns? (shard rank rankSize : Nat) : Option Bool :=
  if rankSize = 0 then none else some (shard % rankSize == rank)

namespace Identity

/-- Whether a worker processes a shard. -/
def owns (i : Identity) (shard : Nat) : Bool := shard % i.rankSize.toNat == i.rank.toNat

/-- The shards below `total` that a worker processes, in order: every `rankSize`-th one from its
rank on. -/
def owned (i : Identity) (total : Nat) : List Nat :=
  let count := (total - i.rank.toNat + i.rankSize.toNat - 1) / i.rankSize.toNat
  List.range' i.rank.toNat count i.rankSize.toNat

end Identity

end ParamExchange
