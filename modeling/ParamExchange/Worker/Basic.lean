/-
Workers: the layers that a worker trains, its local copies of them, and the counters that tell
when gradients leave it.
-/
import ParamExchange.Worker.Accumulator
import ParamExchange.Worker.Backend
import ParamExchange.Worker.Convention
import ParamExchange.Worker.Shards
import ParamExchange.Worker.Trainer

namespace ParamExchange

/-- A tensor of the model under its key. -/
structure Layer where
  key : Key
  shape : List Nat
  deriving DecidableEq

/-- The layer of a configuration; accumulators can not be trained. -/
def Layer.ofConfig (config : LayerConfig) : Except WorkerError Layer :=
  match Key.ofName config.key with
  | .error e => .error (.key e)
  | .ok key =>
    if key.role.isMomentum then .error (.invalidLayer config.key) else .ok ⟨key, config.shape⟩

/-- A worker over a transport with state `σ` and a trainer with state `τ`. The global step counts
the steps of all epochs, `pending` those whose gradients were summed up and not pushed. -/
structure Worker (σ τ α : Type) where
  identity : Identity
  layers : List Layer
  devices : Positive
  backend : Backend
  sync : SyncMode
  convention : Convention α
  params : List (Tensor α)
  client : Client σ α
  trainer : τ
  accumulator : Accumulator α
  globalStep : Nat
  pending : Nat
  epoch : Nat

/-- The work of a worker. What happened before it stops stays. -/
abbrev Work (σ τ α β : Type) := ExceptT Stop (StateM (Worker σ τ α)) β

namespace Worker

variable {σ τ α : Type}

/-- A worker that has not done anything yet. -/
def start (identity : Identity) (layers : List Layer) (devices : Positive) (backend : Backend)
    (sync : SyncMode) (convention : Convention α) (link : σ) (trainer : τ) : Worker σ τ α where
  identity := identity
  layers := layers
  devices := devices
  backend := backend
  sync := sync
  convention := convention
  params := []
  client := Client.ofLink link
  trainer := trainer
  accumulator := Accumulator.empty
  globalStep := 0
  pending := 0
  epoch := 0

/-- The worker of a configuration; the first layer that can not be trained is reported. -/
def ofConfig (identity : Identity) (config : WorkerConfig) (link : σ) (trainer : τ) :
    Except WorkerError (Worker σ τ Single) := do
  let layers ← config.layers.mapM Layer.ofConfig
  pure (start identity layers config.devices config.backend config.sync config.convention link trainer)

/-! ## Parts of the work -/

/-- Runs an exchange of the client. -/
def exchange {β : Type} (e : Exchange σ α β) : Work σ τ α β :=
  fun worker =>
    let (result, client) := e.run.run worker.client
    (result, { worker with client := client })

/-- Computes the gradients of a shard on a device. -/
def train (trainer : Trainer τ α) (device shard : Nat) : Work σ τ α (List (Tensor α)) :=
  fun worker =>
    let (result, after) := trainer.gradients device shard worker.params worker.trainer
    (result.mapError .error, { worker with trainer := after })

/-- Refuses gradients that are not one for each layer, of its shape. -/
def checkGradients (worker : Worker σ τ α) (shard : Nat) (gradients : List (Tensor α)) :
    Except WorkerError Unit := do
  if gradients.length ≠ worker.layers.length then
    throw (.missingGradients shard worker.layers.length gradients.length)
  for (layer, gradient) in worker.layers.zip gradients do
    if gradient.shape ≠ layer.shape then
      throw (.shapeMismatch layer.key.name layer.shape gradient.shape)

variable [Scalar α]

/-- Pulls every layer. The local copies change only if none fails. -/
def init (t : Transport σ α) : Work σ τ α Unit := do
  let worker ← get
  let params ← worker.layers.mapM fun layer => exchange (Client.pull t layer.key layer.shape)
  modify fun worker => { worker with params := params }

/-- Pushes a gradient of the layer `i` and takes over its new value. -/
def syncLayer (t : Transport σ α) (i : Nat) (gradient : Tensor α) : Work σ τ α Unit := do
  let worker ← get
  match worker.layers[i]?, worker.params[i]? with
  | some layer, some weight =>
    let value ← exchange (worker.convention.sync t layer.key gradient weight)
    modify fun worker => { worker with params := worker.params.set i value }
  | _, _ => throw (.noCopy i)

/-- Lets go of the servers. -/
def shutdown (t : Transport σ α) : Work σ τ α Unit := exchange (Client.disconnect t)

end Worker

end ParamExchange
