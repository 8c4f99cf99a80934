/-
Epochs: a worker takes its data shards in order, hands them to its devices in turns, and makes one
step of the gradients of all devices. The gradients of a step are pushed at once, or summed up and
pushed when a cycle of steps is over and at the end of the epoch.
-/
import ParamExchange.Worker.Basic

namespace ParamExchange

/-- What happened in an epoch: its number, the shards, the number of steps, and the number of
parameters that were pushed. -/
structure EpochReport where
  epoch : Nat
  shards : List Nat
  steps : Nat
  syncs : Nat
  deriving DecidableEq, Repr

namespace Worker

/-- How far an epoch is: the gradients of the devices that had their turn in the step at hand, the
shards so far, and the counts. -/
structure Progress (α : Type) where
  group : List (List (Tensor α))
  shards : List Nat
  steps : Nat
  syncs : Nat

/-- The beginning of an epoch. -/
def Progress.start {α : Type} : Progress α := ⟨[], [], 0, 0⟩

/-- The gradients of each layer, one from each device. -/
def columns {β : Type} (count : Nat) (group : List (List β)) : List (List β) :=
  (List.range count).map fun i => group.filterMap (·[i]?)

variable {σ τ α : Type} [Scalar α]

/-! ## Steps -/

/-- Pushes one gradient for each layer, from the layer `i` on. -/
def syncAll (t : Transport σ α) : Nat → List (Tensor α) → Work σ τ α Unit
  | _, [] => pure ()
  | i, gradient :: rest => do
    syncLayer t i gradient
    syncAll t (i + 1) rest

/-- Adds a gradient to the sum of a layer. -/
def accumulateLayer (layer : Layer) (gradient : Tensor α) : Work σ τ α Unit :=
  fun worker =>
    match worker.accumulator.accumulate layer.key gradient with
    | .ok acc => (.ok (), { worker with accumulator := acc })
    | .error e => (.error (.error e), worker)

/-- Takes the sum of a key. -/
def takeSum (key : Key) : Work σ τ α (Option (Tensor α)) :=
  fun worker =>
    let (sum, acc) := worker.accumulator.flush key
    (.ok sum, { worker with accumulator := acc })

/-- Pushes the sums of some layers, from the layer `i` on, and counts them. -/
def flushLayers (t : Transport σ α) : Nat → List Layer → Work σ τ α Nat
  | _, [] => pure 0
  | i, layer :: rest => do
    match ← takeSum layer.key with
    | none => flushLayers t (i + 1) rest
    | some sum => do
      syncLayer t i sum
      let synced ← flushLayers t (i + 1) rest
      pure (synced + 1)

/-- Pushes the sums of all layers if a step is pending. -/
def flush (t : Transport σ α) : Work σ τ α Nat := do
  let worker ← get
  if worker.pending = 0 then pure 0
  else
    let synced ← flushLayers t 0 worker.layers
    modify fun worker => { worker with pending := 0 }
    pure synced

/-- Makes a step of the gradients of some devices, and counts the parameters that were pushed. -/
def step (t : Transport σ α) (group : List (List (Tensor α))) : Work σ τ α Nat := do
  let worker ← get
  let reduced ← liftExcept ((columns worker.layers.length group).mapM worker.backend.reduce)
  modify fun worker => { worker with globalStep := worker.globalStep + 1 }
  match worker.sync with
  | .dense => do
    syncAll t 0 reduced
    pure reduced.length
  | .bulk cycle => do
    (worker.layers.zip reduced).forM fun p => accumulateLayer p.1 p.2
    modify fun worker => { worker with pending := worker.pending + 1 }
    if cycle.divides (worker.globalStep + 1) then flush t else pure 0

/-! ## Epochs -/

/-- Makes a step of the group at hand. -/
def close (t : Transport σ α) (progress : Progress α) : Work σ τ α (Progress α) := do
  let synced ← step t progress.group
  pure ⟨[], progress.shards, progress.steps + 1, progress.syncs + synced⟩

/-- Takes a shard, and makes a step when every device had its turn. -/
def visit (t : Transport σ α) (trainer : Trainer τ α) (progress : Progress α) (shard : Nat) :
    Work σ τ α (Progress α) := do
  let worker ← get
  let gradients ← train trainer progress.group.length shard
  liftExcept ((worker.checkGradients shard gradients).mapError Stop.error)
  let next : Progress α :=
    ⟨progress.group ++ [gradients], progress.shards ++ [shard], progress.steps, progress.syncs⟩
  if next.group.length = worker.devices.val then close t next else pure next

/-- The octets that the gradients of one device take up in a group, apart from their elements. -/
def groupWidth : Nat := 24

/-- Refuses so many devices that there is no room for the gradients of all of them. -/
def checkDevices (devices : Positive) : Except Stop Unit :=
  if hasRoom devices.val groupWidth then .ok () else .error (.tooManyDevices devices.val)

/-- Runs an epoch over the shards below `total`. The number of epochs grows only if it ends well. -/
def runEpoch (t : Transport σ α) (trainer : Trainer τ α) (total : Nat) :
    Work σ τ α EpochReport := do
  let worker ← get
  liftExcept (checkDevices worker.devices)
  let progress ← (worker.identity.owned total).foldlM (visit t trainer) Progress.start
  let progress ← if progress.group.isEmpty then pure progress else close t progress
  let last ← match worker.sync with
    | .dense => pure 0
    | .bulk _ => flush t
  modify fun worker => { worker with epoch := worker.epoch + 1 }
  pure ⟨worker.epoch, progress.shards, progress.steps, progress.syncs + last⟩

end Worker

end ParamExchange
