/-
Who a worker is: the name of its node, its rank, and the number of ranks of the run. The rank is
below the number of ranks in every identity.
-/
import ParamExchange.Text.Quoted

namespace ParamExchange

open Text

/-- A node, its rank and the number of ranks. -/
structure Identity where
  nodeId : String
  rank : UInt64
  rankSize : UInt64
  rank_lt : rank < rankSize
  deriving DecidableEq

/-- Why there is no identity. -/
inductive IdentityError
  | missing (name : String)
  | invalid (name value : String)
  | rankOutOfRange (rank rankSize : UInt64)
  deriving DecidableEq, Repr

/-- The diagnostic of an identity error. -/
def IdentityError.message : IdentityError → String
  | .missing name => s!"missing environment variable {name}"
  | .invalid name value =>
    s!"environment variable {name} is not a valid number: " ++ Quoted.text value
  | .rankOutOfRange rank rankSize =>
    s!"rank {rank.toNat} is out of range for rank size {rankSize.toNat}"

namespace Identity

/-- The identity of a node; a rank that is not below the number of ranks is refused. -/
def make (nodeId : String) (rank rankSize : UInt64) : Except IdentityError Identity :=
  if h : rank < rankSize then .ok ⟨nodeId, rank, rankSize, h⟩
  else .error (.rankOutOfRange rank rankSize)

/-- The line that shows an identity. -/
def text (i : Identity) : String :=
  s!"NodeID: {i.nodeId}, Rank: {i.rank.toNat}, RankSize: {i.rankSize.toNat}"

end Identity

end ParamExchange
