/-
Coherence of a lone worker. Let a worker be alone with fresh parameter servers, or with the store of one at
hand. Once it has pulled its layers, its local copies are what the servers hold for them, bit for bit, after
every task, whether it ended well or not. Over a network this is so as long as no request fails: one that is
given up early leaves answers unread, and a later epoch may end well with copies that nobody holds.
-/
import ParamExchange.Proofs.Cluster.Copies

namespace ParamExchange

open Network

/-! ## Configured layers -/

/-- A layer of a configuration has its name, which is parsed and not that of an accumulator. -/
theorem Layer.ofConfig_ok {config : LayerConfig} {layer : Layer} (h : Layer.ofConfig config = .ok layer) :
    layer.key.name = config.key ∧ Key.ofName layer.key.name = .ok layer.key ∧ layer.key.role.isMomentum = false := by
  unfold Layer.ofConfig at h
  rcases hkey : Key.ofName config.key with e | key
  · rw [hkey] at h
    cases h
  have hname := Key.name_of_ofName hkey
  rw [hkey] at h
  dsimp only at h
  split at h
  · cases h
  · rename_i hmomentum
    cases h
    refine ⟨hname, ?_, by simpa using hmomentum⟩
    rw [hname, hkey]

/-- The layers were configured one by one. -/
def Configured : List LayerConfig → List Layer → Prop :=
  List.Forall₂ fun config layer => Layer.ofConfig config = .ok layer

namespace Configured

variable {configs : List LayerConfig} {layers : List Layer}

theorem of_mapM (h : configs.mapM Layer.ofConfig = .ok layers) : Configured configs layers := by
  obtain ⟨hlength, hall⟩ := getElem?_of_mapM_ok h
  refine List.forall₂_iff_get.2 ⟨hlength.symm, fun i hconfig hlayer => ?_⟩
  exact hall i _ _ (List.getElem?_eq_getElem hconfig) (List.getElem?_eq_getElem hlayer)

/-- The layers have the names of their configurations. -/
theorem names (h : Configured configs layers) : layers.map (·.key.name) = configs.map (·.key) := by
  induction h with
  | nil => rfl
  | cons hfirst _ ih => rw [List.map_cons, List.map_cons, ih, (Layer.ofConfig_ok hfirst).1]

theorem forall_mem (h : Configured configs layers) {P : Layer → Prop}
    (hP : ∀ config layer, Layer.ofConfig config = .ok layer → P layer) : ∀ layer ∈ layers, P layer := by
  induction h with
  | nil => nofun
  | cons hfirst _ ih => exact List.forall_mem_cons.2 ⟨hP _ _ hfirst, ih⟩

/-- Layers with distinct names can be trained. -/
theorem areTrained (h : Configured configs layers) (hdistinct : (configs.map (·.key)).Nodup) : AreTrained layers := by
  constructor
  · apply List.Nodup.of_map Key.name
    rw [List.map_map]
    exact h.names.symm ▸ hdistinct
  · exact h.forall_mem fun _ _ hconfig => (Layer.ofConfig_ok hconfig).2.1
  · exact h.forall_mem fun _ _ hconfig => (Layer.ofConfig_ok hconfig).2.2

end Configured

theorem Worker.ofConfig_ok {σ τ : Type} {identity : Identity} {config : WorkerConfig} {link : σ} {state : τ}
    {worker : Worker σ τ Single} (h : Worker.ofConfig identity config link state = .ok worker) :
    ∃ layers, Configured config.layers layers ∧
      worker = start identity layers config.devices config.backend config.sync config.convention link state := by
  unfold Worker.ofConfig at h
  rcases hlayers : config.layers.mapM Layer.ofConfig with e | layers
  · rw [hlayers] at h
    cases h
  · rw [hlayers] at h
    cases h
    exact ⟨layers, .of_mapM hlayers, rfl⟩

/-! ## The copies of a lone worker -/

/-- Services that hold nothing yet keep any layers. -/
theorem Cluster.Remembers.isKept {c : Cluster} {seat : Nat} {spread : Spread} (h : c.Remembers seat spread [])
    (hn : 0 < spread.servers) (hm : 0 < spread.minSlice) (layers : List Layer) : c.IsKept seat spread layers := by
  obtain ⟨servers, hattends, hsound, hasked⟩ := h
  refine ⟨⟨servers, hattends, hsound⟩, fun layer _ hsome => ?_⟩
  obtain ⟨span, rest, hroute⟩ := List.exists_cons_of_ne_nil
    (Spread.route_ne_nil hn hm layer.key (Shape.size layer.shape))
  have hserver : span.server < spread.servers := Spread.server_lt_of_mem_route (hroute ▸ List.mem_cons_self ..)
  rcases hvalue : c.value? span.server layer.key.name with _ | values
  · rw [slices?, hroute, List.mapM_cons, hvalue] at hsome
    cases hsome
  · rw [hattends.value? hserver] at hvalue
    obtain ⟨call, hcall, -⟩ := (hasked _ hserver layer.key.name values.length).1 ⟨values, hvalue, rfl⟩
    cases hcall

namespace Worker

/-- The local copies of a lone worker are what its parameter servers hold. Let a configuration with
distinct layer names be accepted, and let the worker be alone with `n ≥ 1` fresh servers of any
configurations, with or without having said hello, or with the store of one server at hand. Give it any
tasks, with any trainer. Once it has pulled its layers, it has for every layer a copy of its shape whose
elements in row-major order are what is held for the layer: the slices on the servers of its route one after
another, if no request has failed, and the value in the store at hand, whatever has failed. -/
theorem copies_coherent {τ : Type} (identity : Identity) (config : WorkerConfig)
    (hdistinct : (config.layers.map (·.key)).Nodup)
    (hroom : ∀ layer ∈ config.layers, (Text.Utf8.encode layer.key).length ≤ roomLimit)
    (trainer : Trainer τ Single) (state : τ) (tasks : List Task) :
    (∀ servers : List Server, (∀ server ∈ servers, ∃ config rank, Server.ofConfig config rank = .ok server) →
      0 < servers.length → ∀ (minSlice : Nat) (greeting? : Option Identity),
      (∀ identity ∈ greeting?, (Wire.Message.control (.hello identity)).body.length ≤ Wire.frameLimit) →
      let spread := Spread.ofMinSlice servers.length minSlice
      ∃ joined, greet (Cluster.links 0) spread greeting? (Cluster.join ⟨servers.map Service.start⟩) = (.ok (), joined) ∧
        ∀ worker, Worker.ofConfig identity config joined state = .ok worker →
          let run := performAll (Network.transport (Cluster.links 0) spread) trainer tasks worker
          (∀ ending ∈ run.1, ¬ ending.IsCut) → (∃ ending ∈ run.1, ending.IsReady) →
          ∀ (i : Nat) (layer : Layer), worker.layers[i]? = some layer → ∃ copy, run.2.params[i]? = some copy ∧
            copy.shape = layer.shape ∧
            run.2.client.link.slices? spread layer.key (Shape.size layer.shape) = some copy.elements) ∧
    (∀ config' rank server, Server.ofConfig config' rank = .ok server →
      ∀ worker, Worker.ofConfig identity config server.store state = .ok worker →
        let run := performAll Transport.ofStore trainer tasks worker
        (∃ ending ∈ run.1, ending.IsReady) →
        ∀ (i : Nat) (layer : Layer), worker.layers[i]? = some layer → ∃ copy, run.2.params[i]? = some copy ∧
          copy.shape = layer.shape ∧ run.2.client.link.value? layer.key.name = some copy.elements) := by
  constructor
  · -- over a network the invariant is lost with the first request that fails
    intro servers hservers hn minSlice greeting? hgreeting spread
    have hm : 0 < spread.minSlice := Nat.le_max_right minSlice 1
    have hfresh : ∀ server ∈ servers, server.IsFresh := fun server hmem => by
      obtain ⟨config, rank, hconfig⟩ := hservers server hmem
      exact Server.isFresh_ofConfig hconfig
    obtain ⟨joined, hgreet, hremembers⟩ := Cluster.Remembers.fresh spread hfresh rfl hn greeting? hgreeting
    refine ⟨joined, hgreet, ?_⟩
    intro worker hworker run hwhole hready i layer hlayer
    obtain ⟨layers, hconfigured, rfl⟩ := Worker.ofConfig_ok hworker
    have hlayers := hconfigured.areTrained hdistinct
    have hnames : ∀ layer ∈ layers, (Text.Utf8.encode layer.key.name).length ≤ roomLimit := by
      intro layer hlayer
      obtain ⟨config, hconfig, hname⟩ := List.mem_map.1 (hconfigured.names ▸ List.mem_map_of_mem hlayer)
      exact hname ▸ hroom config hconfig
    have hstart := Keeper.holds_start (k := Keeper.ofNetwork hlayers hnames 0 hn hm) identity config.devices
      config.backend config.sync config.convention state (hremembers.isKept hn hm layers)
    have hall := hstart.performAll hlayers.keys trainer tasks fun _ => hwhole
    exact (hall.imp fun _ => .inr hready).exists_copy hlayer
  · -- a store at hand has no answers that could be left unread
    intro config' rank server hserver worker hworker run hready i layer hlayer
    obtain ⟨layers, hconfigured, rfl⟩ := Worker.ofConfig_ok hworker
    have hlayers := hconfigured.areTrained hdistinct
    have hfresh := Server.isFresh_ofConfig hserver
    have hempty : server.store.IsSized layers := by
      intro layer _ values hvalues
      rw [Store.value?, hfresh.empty] at hvalues
      cases hvalues
    have hstart := Keeper.holds_start (k := Keeper.ofStore hlayers) identity config.devices config.backend config.sync
      config.convention state ⟨hfresh.sound, hempty⟩
    have hall := hstart.performAll hlayers.keys trainer tasks False.elim
    exact (hall.imp fun _ => .inr hready).exists_copy hlayer

/-- A worker that is alone, on one device. -/
def loneWorker : Identity := ⟨"worker-0", 0, 1, Nat.one_pos⟩

/-- It pushes every step under client momentum. -/
def loneConfig (layers : List LayerConfig) (minSlice : Nat) : WorkerConfig where
  servers := []
  layers := layers
  devices := ⟨1, by decide⟩
  backend := .cpu
  sync := .dense
  convention := .clientMomentum ⟨0x3E800000⟩ 0
  epochs := 1
  shards := 1
  minSlice := minSlice

/-- A weight that is cut in two, and a bias that is not, on two servers. -/
def lonePair : Worker Cluster Unit Single :=
  let config := loneConfig [] 0
  start loneWorker [⟨.ofRole .weight 0, [3]⟩, ⟨.ofRole .bias 0, [1]⟩] config.devices config.backend config.sync
    config.convention (Cluster.join ⟨serverPair.map Service.start⟩) ()

/-- The weight and the bias are pulled, and pushed once. -/
theorem copies_coherent_pair :
    let config := loneConfig [⟨"w_0", [3]⟩, ⟨"b_0", [1]⟩] 0
    let spread := Spread.ofMinSlice 2 0
    (config.layers.map (·.key)).Nodup ∧
      (∀ layer ∈ config.layers, (Text.Utf8.encode layer.key).length ≤ roomLimit) ∧
      ∃ joined worker,
        greet (Cluster.links 0) spread none (Cluster.join ⟨serverPair.map Service.start⟩) = (.ok (), joined) ∧
        Worker.ofConfig loneWorker config joined () = .ok worker ∧
        let run := performAll (Network.transport (Cluster.links 0) spread) .squares [.init, .epoch 1] worker
        (∀ ending ∈ run.1, ¬ ending.IsCut) ∧ (∃ ending ∈ run.1, ending.IsReady) ∧
          ∃ copy, run.2.params[0]? = some copy ∧ copy.shape = [3] ∧
            run.2.client.link.slices? spread (.ofRole .weight 0) 3 = some copy.elements := by
  intro config spread
  have hdistinct : (config.layers.map (·.key)).Nodup := by decide
  have hroom : ∀ layer ∈ config.layers, (Text.Utf8.encode layer.key).length ≤ roomLimit := by decide
  obtain ⟨hnetwork, -⟩ := copies_coherent loneWorker config hdistinct hroom .squares () [.init, .epoch 1]
  obtain ⟨joined, hgreet, hall⟩ := hnetwork serverPair serverPair_ofConfig (by decide) 0 none nofun
  obtain rfl : Cluster.join ⟨serverPair.map Service.start⟩ = joined := congrArg Prod.snd hgreet
  have hworker : Worker.ofConfig loneWorker config (Cluster.join ⟨serverPair.map Service.start⟩) () =
      .ok lonePair := rfl
  have hwhole : ∀ ending ∈ (performAll (Network.transport (Cluster.links 0) spread) .squares [.init, .epoch 1]
      lonePair).1, ¬ ending.IsCut := by decide +kernel
  have hready : ∃ ending ∈ (performAll (Network.transport (Cluster.links 0) spread) .squares [.init, .epoch 1]
      lonePair).1, ending.IsReady := by decide +kernel
  have hlayer : lonePair.layers[0]? = some ⟨.ofRole .weight 0, [3]⟩ := rfl
  exact ⟨hdistinct, hroom, _, lonePair, hgreet, hworker, hwhole, hready, hall lonePair hworker hwhole hready 0 _ hlayer⟩

/-- Two layers that share an accumulator, of which they ask for different lengths, make a request fail on one
server while the other one has answered. Its answer is read by later requests, until an epoch without
shards ends well: then the worker has another copy of a layer than the servers hold. -/
theorem copies_incoherent :
    let config := loneConfig [⟨"w_1", [1]⟩, ⟨"w_0", [3]⟩, ⟨"w_00", [4]⟩] 3
    let spread := Spread.ofMinSlice 2 3
    ∃ worker, Worker.ofConfig loneWorker config (Cluster.join ⟨serverPair.map Service.start⟩) () = .ok worker ∧
      let run := performAll (Network.transport (Cluster.links 0) spread) .squares
        [.init, .epoch 1, .epoch 1, .epoch 1, .epoch 0] worker
      run.1.map (·.result.isOk) = [true, false, false, false, true] ∧
        run.2.params[0]?.map (·.elements) = some [⟨0x3F000000⟩] ∧
        run.2.client.link.slices? spread (.ofRole .weight 1) 1 = some [⟨0xBE000000⟩] :=
  ⟨_, rfl, by decide +kernel⟩

end Worker

end ParamExchange
