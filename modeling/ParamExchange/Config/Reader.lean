/-
Configurations as JSON documents.
-/
import ParamExchange.Config.Server
import ParamExchange.Config.Worker
import ParamExchange.Identity.Basic
import ParamExchange.Json.Record

namespace ParamExchange.Config

open Json

/-! ## Numbers -/

/-- A word. -/
def word : Reader UInt64 := do
  match ← number with
  | .natural n => pure n
  | _ => refuse .malformed

/-- A word as a natural number. -/
def natural : Reader Nat := do
  let n ← word
  pure n.toNat

/-- A word that is not zero. -/
def positive : Reader Positive := do
  let n ← natural
  if h : 0 < n then pure ⟨n, h⟩ else refuse .malformed

/-- A number of single precision: a whole number is rounded once, any other one first to double
precision. -/
def single : Reader Single := do
  match ← number with
  | .natural n => pure (Single.ofWord n)
  | .negative n => pure (-Single.ofWord n)
  | .real x => pure (Single.ofDouble x)

/-! ## Identities -/

/-- The fields of an identity that have been read. -/
structure IdentityDraft where
  nodeId : Option String := none
  rank : Option UInt64 := none
  rankSize : Option Positive := none

/-- An identity; one whose rank is out of range is refused. -/
def identity : Reader Identity :=
  record
    [.of "node_id" IdentityDraft.nodeId (fun d v => { d with nodeId := v }) string false,
     .of "rank" IdentityDraft.rank (fun d v => { d with rank := v }) word false,
     .of "rank_size" IdentityDraft.rankSize (fun d v => { d with rankSize := v }) positive false]
    {}
    (fun d => do
      let nodeId ← d.nodeId
      let rank ← d.rank
      let rankSize ← d.rankSize
      (Identity.make nodeId rank (UInt64.ofNat rankSize.val)).toOption)

/-! ## Records of numbers -/

/-- The record of one field. -/
def one {β α : Type} (name : String) (r : Reader β) (make : β → α) : Reader α :=
  record [.of name id (fun _ v => some v) r false] none (Option.map make)

/-- The record of two fields. -/
def two {β α : Type} (first second : String) (r : Reader β) (make : β → β → α) : Reader α :=
  record
    [.of first Prod.fst (fun d v => (some v, d.2)) r false,
     .of second Prod.snd (fun d v => (d.1, some v)) r false]
    (none, none)
    (fun d => do
      let a ← d.1
      let b ← d.2
      pure (make a b))

/-! ## Servers -/

/-- A distribution. -/
def distribution : Reader Distribution :=
  variant
    [("uniform", .content (two "low" "high" single .uniform)),
     ("uniform_inclusive", .content (two "low" "high" single .uniformInclusive)),
     ("xavier_uniform", .content (two "fan_in" "fan_out" word .xavierUniform)),
     ("lecun_uniform", .content (one "fan_in" word .lecunUniform)),
     ("normal", .content (two "mean" "std_dev" single .normal)),
     ("kaiming", .content (one "fan_in" word .kaiming)),
     ("xavier", .content (two "fan_in" "fan_out" word .xavier)),
     ("lecun", .content (one "fan_in" word .lecun))]

/-- A generator. -/
def generator : Reader Generator :=
  variant
    [("const", .content (one "value" single .constant)),
     ("rand", .content (one "distribution" distribution .random))]

/-- The fields of an initialization that have been read. -/
structure InitDraft where
  weight : Option Generator := none
  bias : Option Generator := none
  overrides : Option (List (String × Generator)) := none

/-- An initialization. -/
def init : Reader InitConfig :=
  record
    [.of "weight" InitDraft.weight (fun d v => { d with weight := v }) generator true,
     .of "bias" InitDraft.bias (fun d v => { d with bias := v }) generator true,
     .of "overrides" InitDraft.overrides (fun d v => { d with overrides := v }) (map generator)
       true]
    {}
    (fun d => some
      ⟨d.weight.getD InitConfig.defaultWeight, d.bias.getD InitConfig.defaultBias,
        d.overrides.getD []⟩)

/-- An update. -/
def update : Reader (Update Single) :=
  variant
    [("additive", .unit .additive),
     ("gradient_descent", .content (one "learning_rate" single .descent)),
     ("gradient_descent_with_momentum",
       .content (two "learning_rate" "momentum" single .momentumDescent))]

/-- The fields of a server's configuration that have been read. -/
structure ServerDraft where
  workers : Option UInt64 := none
  seed : Option (Option UInt64) := none
  init : Option InitConfig := none
  update : Option (Update Single) := none
  momentum : Option Single := none

/-- The configuration of a server. -/
def server : Reader ServerConfig :=
  record
    [.of "workers" ServerDraft.workers (fun d v => { d with workers := v }) word false,
     .of "seed" ServerDraft.seed (fun d v => { d with seed := some v }) (optional word) false,
     .of "init" ServerDraft.init (fun d v => { d with init := v }) init true,
     .of "update" ServerDraft.update (fun d v => { d with update := v }) update false,
     .of "momentum" ServerDraft.momentum (fun d v => { d with momentum := v }) single true]
    {}
    (fun d => do
      let workers ← d.workers
      let update ← d.update
      pure ⟨workers, d.seed.getD none, d.init.getD InitConfig.default, update,
        d.momentum.getD ServerConfig.defaultMomentum⟩)

/-! ## Workers -/

/-- A socket address. -/
def address : Reader Network.Address := do
  let text ← string
  match Network.Address.ofText? text with
  | some a => pure a
  | none => refuse .malformed

/-- The fields of a layer that have been read. -/
structure LayerDraft where
  key : Option String := none
  shape : Option (List Nat) := none

/-- A layer. -/
def layer : Reader LayerConfig :=
  record
    [.of "key" LayerDraft.key (fun d v => { d with key := v }) string false,
     .of "shape" LayerDraft.shape (fun d v => { d with shape := v }) (list natural) false]
    {}
    (fun d => do
      let key ← d.key
      let shape ← d.shape
      pure ⟨key, shape⟩)

/-- A backend. -/
def backend : Reader Backend :=
  variant [("cpu", .unit .cpu), ("unavailable", .unit .unavailable)]

/-- A mode of synchronization. -/
def syncMode : Reader SyncMode :=
  variant [("dense", .unit .dense), ("bulk", .content (one "cycle" positive .bulk))]

/-- The fields of a push with a client's momentum that have been read. -/
structure MomentumDraft where
  learningRate : Option Single := none
  weightDecay : Option Single := none

/-- A convention. -/
def convention : Reader (Convention Single) :=
  variant
    [("direct", .content
       (record
         [.of "learning_rate" id (fun _ v => some v) (optional single) false]
         none
         (fun d => some (.direct (d.getD none))))),
     ("client_momentum", .content
       (record
         [.of "learning_rate" MomentumDraft.learningRate (fun d v => { d with learningRate := v })
            single false,
          .of "weight_decay" MomentumDraft.weightDecay (fun d v => { d with weightDecay := v })
            single true]
         {}
         (fun d => d.learningRate.map fun rate => .clientMomentum rate (d.weightDecay.getD 0))))]

/-- The fields of a worker's configuration that have been read. -/
structure WorkerDraft where
  servers : Option (List Network.Address) := none
  layers : Option (List LayerConfig) := none
  devices : Option Positive := none
  backend : Option Backend := none
  sync : Option SyncMode := none
  convention : Option (Convention Single) := none
  epochs : Option Nat := none
  shards : Option Nat := none
  minSlice : Option Nat := none

/-- The configuration of a worker. -/
def worker : Reader WorkerConfig :=
  record
    [.of "servers" WorkerDraft.servers (fun d v => { d with servers := v }) (list address) false,
     .of "layers" WorkerDraft.layers (fun d v => { d with layers := v }) (list layer) false,
     .of "devices" WorkerDraft.devices (fun d v => { d with devices := v }) positive false,
     .of "backend" WorkerDraft.backend (fun d v => { d with backend := v }) backend true,
     .of "sync" WorkerDraft.sync (fun d v => { d with sync := v }) syncMode true,
     .of "convention" WorkerDraft.convention (fun d v => { d with convention := v }) convention
       false,
     .of "epochs" WorkerDraft.epochs (fun d v => { d with epochs := v }) natural false,
     .of "shards" WorkerDraft.shards (fun d v => { d with shards := v }) natural false,
     .of "min_slice_size" WorkerDraft.minSlice (fun d v => { d with minSlice := v }) natural true]
    {}
    (fun d => do
      let servers ← d.servers
      let layers ← d.layers
      let devices ← d.devices
      let convention ← d.convention
      let epochs ← d.epochs
      let shards ← d.shards
      pure ⟨servers, layers, devices, d.backend.getD .cpu, d.sync.getD .dense, convention, epochs,
        shards, d.minSlice.getD defaultMinSlice⟩)

end ParamExchange.Config
