/-
Stores of configured servers. The rank of a server is mixed into the seed, so that the slices of
one tensor on different servers draw different values.
-/
import ParamExchange.Init.Initializer
import ParamExchange.Store.Basic

namespace ParamExchange

/-- Why a server can not be made. -/
inductive BuildError
  | init (e : InitError)
  | noWorkers
  deriving DecidableEq, Repr

namespace BuildError

/-- The diagnostic of the cause. -/
def source? : BuildError → Option String
  | init e => some e.message
  | noWorkers => none

/-- The diagnostic of a build error. -/
def message : BuildError → String
  | init e => "invalid initialization: " ++ e.message
  | noWorkers => "the server must wait for at least one worker"

end BuildError

namespace Store

/-- The seed of a server. -/
def serverSeed (seed rank : UInt64) : UInt64 := seed ^^^ rank * 0x9E3779B97F4A7C15

/-- The plan of a configuration on the server of a rank. Without a seed, zero is taken. -/
def planOf (config : ServerConfig) (rank : UInt64) : Except BuildError (Plan Single) :=
  match Initializer.ofConfig config.init (serverSeed (config.seed.getD 0) rank) with
  | .error e => .error (.init e)
  | .ok init => .ok ⟨init.values, config.update, config.momentum⟩

/-- The empty store of a configuration on the server of a rank. -/
def ofConfig (config : ServerConfig) (rank : UInt64) : Except BuildError (Store Single) :=
  (planOf config rank).map Store.empty

end Store

end ParamExchange
