/-
Guarded work. A worker that is guarded looks at the shapes before every operation that needs them: there is
one local copy for each layer, of its shape, when a trainer is asked; the gradients that are reduced are
there, and all have the shape of their layer; and what is summed up or handed over for a layer has the shape
of the layer and of its local copy. If one of them does not fit, it gives up. Otherwise it does what any
worker does.
-/
import ParamExchange.Proofs.Worker.Coherence

namespace ParamExchange

variable {σ τ α : Type}

namespace Worker

/-- One local copy for each layer, of its shape. -/
def HasCopies (w : Worker σ τ α) : Prop := w.params.map (·.shape) = w.layers.map (·.shape)

instance (w : Worker σ τ α) : Decidable w.HasCopies := inferInstanceAs (Decidable (_ = _))

/-- There are tensors, and all of them have the shape. -/
def AreUniform (shape : List Nat) (tensors : List (Tensor α)) : Prop :=
  tensors ≠ [] ∧ ∀ tensor ∈ tensors, tensor.shape = shape

instance (shape : List Nat) (tensors : List (Tensor α)) : Decidable (AreUniform shape tensors) :=
  inferInstanceAs (Decidable (_ ∧ _))

/-- Goes on if `p` holds, and gives up otherwise. -/
def require (stop : Stop) (p : Prop) [Decidable p] : Work σ τ α Unit := if p then pure () else throw stop

variable [Scalar α]

namespace Guarded

/-! ## Steps -/

/-- Pushes a gradient that has the shape of a layer and of its local copy. -/
def syncLayer (stop : Stop) (t : Transport σ α) (i : Nat) (gradient : Tensor α) : Work σ τ α Unit := do
  let worker ← get
  require stop (worker.layers[i]?.map (·.shape) = some gradient.shape ∧
    worker.params[i]?.map (·.shape) = some gradient.shape)
  Worker.syncLayer t i gradient

/-- Adds a gradient that has the shape of a layer to its sum. -/
def accumulateLayer (stop : Stop) (layer : Layer) (gradient : Tensor α) : Work σ τ α Unit := do
  require stop (gradient.shape = layer.shape)
  Worker.accumulateLayer layer gradient

/-- Pushes one gradient for each layer, from the layer `i` on, as long as they have the shapes of these. -/
def syncAll (stop : Stop) (t : Transport σ α) : Nat → List (Tensor α) → Work σ τ α Unit
  | _, [] => pure ()
  | i, gradient :: rest => do
    syncLayer stop t i gradient
    syncAll stop t (i + 1) rest

/-- Pushes the sums of some layers, from the layer `i` on, as long as they have the shapes of these, and counts
them. -/
def flushLayers (stop : Stop) (t : Transport σ α) : Nat → List Layer → Work σ τ α Nat
  | _, [] => pure 0
  | i, layer :: rest => do
    match ← takeSum layer.key with
    | none => flushLayers stop t (i + 1) rest
    | some sum => do
      syncLayer stop t i sum
      let synced ← flushLayers stop t (i + 1) rest
      pure (synced + 1)

/-- Pushes the sums of all layers if a step is pending, as long as they have the shapes of these. -/
def flush (stop : Stop) (t : Transport σ α) : Work σ τ α Nat := do
  let worker ← get
  if worker.pending = 0 then pure 0
  else
    let synced ← flushLayers stop t 0 worker.layers
    modify fun worker => { worker with pending := 0 }
    pure synced

/-- Makes a step of gradients that all have the shapes of the layers. -/
def step (stop : Stop) (t : Transport σ α) (group : List (List (Tensor α))) : Work σ τ α Nat := do
  let worker ← get
  require stop (∀ p ∈ worker.layers.zip (columns worker.layers.length group), AreUniform p.1.shape p.2)
  let reduced ← liftExcept ((columns worker.layers.length group).mapM worker.backend.reduce)
  modify fun worker => { worker with globalStep := worker.globalStep + 1 }
  match worker.sync with
  | .dense => do
    syncAll stop t 0 reduced
    pure reduced.length
  | .bulk cycle => do
    (worker.layers.zip reduced).forM fun p => accumulateLayer stop p.1 p.2
    modify fun worker => { worker with pending := worker.pending + 1 }
    if cycle.divides (worker.globalStep + 1) then flush stop t else pure 0

/-! ## Epochs -/

/-- Makes a step of the group at hand if all its gradients have the shapes of the layers. -/
def close (stop : Stop) (t : Transport σ α) (progress : Progress α) : Work σ τ α (Progress α) := do
  let synced ← step stop t progress.group
  pure ⟨[], progress.shards, progress.steps + 1, progress.syncs + synced⟩

/-- Takes a shard if there is one local copy for each layer, of its shape. -/
def visit (stop : Stop) (t : Transport σ α) (trainer : Trainer τ α) (progress : Progress α) (shard : Nat) :
    Work σ τ α (Progress α) := do
  let worker ← get
  require stop worker.HasCopies
  let gradients ← train trainer progress.group.length shard
  liftExcept ((worker.checkGradients shard gradients).mapError Stop.error)
  let next : Progress α :=
    ⟨progress.group ++ [gradients], progress.shards ++ [shard], progress.steps, progress.syncs⟩
  if next.group.length = worker.devices.val then close stop t next else pure next

/-- Pushes the sums that the steps of an epoch left, which are none if every step pushes. -/
def flushLast (stop : Stop) (t : Transport σ α) : SyncMode → Work σ τ α Nat
  | .dense => pure 0
  | .bulk _ => flush stop t

/-- An epoch of a worker that is guarded. -/
def runEpoch (stop : Stop) (t : Transport σ α) (trainer : Trainer τ α) (total : Nat) : Work σ τ α EpochReport :=
  get >>= fun w =>
    liftExcept (checkDevices w.devices) >>= fun _ =>
    (w.identity.owned total).foldlM (visit stop t trainer) Progress.start >>= fun visited =>
    (if visited.group.isEmpty then pure visited else close stop t visited) >>= fun progress =>
    flushLast stop t w.sync >>= fun last =>
    modify (fun w => { w with epoch := w.epoch + 1 }) >>= fun _ =>
    pure ⟨w.epoch, progress.shards, progress.steps, progress.syncs + last⟩

end Guarded

end Worker

end ParamExchange
