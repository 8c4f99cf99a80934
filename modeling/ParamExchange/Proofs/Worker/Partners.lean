/-
Accumulators of layers. Under client momentum what a worker hands over for a layer is asked of its partner,
and the answer of the layer, so two layers share an accumulator exactly if they have the same partner. This is
so for layers whose names only spell the same index differently; layers with distinct plain names have
accumulators of their own, and no accumulator is a layer.
-/
import ParamExchange.Proofs.Cluster.Coherence
import ParamExchange.Proofs.Key.Plain
import ParamExchange.Proofs.Worker.Shapes

namespace ParamExchange

variable {σ τ α : Type} [Scalar α]

/-! ## Requests -/

/-- A push is one request. -/
theorem Client.asked_pushAndPull (t : Transport σ α) (key : Key) (delta : Tensor α)
    (client : Client (σ × List (Asked α)) α) :
    ((pushAndPull t.recorded key delta).outcome client).2.link.2 =
      client.link.2 ++ [⟨key, some delta.elements, List.replicate (Shape.size delta.shape) 0⟩] := by
  obtain ⟨scratch, hbuffer, houtcome⟩ := outcome_pushAndPull t.recorded key delta client
  rw [houtcome]
  rfl

/-- Under client momentum the partner of a key is asked, and then the key, unless something fails before. -/
theorem Convention.asked_sync (rate decay : α) (t : Transport σ α) (key : Key) (gradient weight : Tensor α)
    (client : Client (σ × List (Asked α)) α) :
    let done := ((clientMomentum rate decay).sync t.recorded key gradient weight).outcome client
    ∃ asked, done.2.link.2 = client.link.2 ++ asked ∧ asked.map (·.key) <+: [key.partner, key] ∧
      ∀ value, done.1 = .ok value → asked.map (·.key) = [key.partner, key] := by
  intro done
  simp only [done]
  rw [sync, Exchange.outcome_bind, Exchange.outcome_liftExcept]
  rcases decayed rate decay key gradient weight with stop | delta
  · exact ⟨[], (List.append_nil _).symm, List.nil_prefix, fun _ h => by cases h⟩
  have hfirst := Client.asked_pushAndPull t key.partner delta client
  dsimp only
  rw [Exchange.outcome_bind]
  rcases hpush : (Client.pushAndPull t.recorded key.partner delta).outcome client with ⟨stop | velocity, between⟩
  · rw [hpush] at hfirst
    exact ⟨_, hfirst, ⟨[key], rfl⟩, fun _ h => by cases h⟩
  · rw [hpush] at hfirst
    have hsecond := Client.asked_pushAndPull t key velocity between
    rw [hfirst, List.append_assoc] at hsecond
    exact ⟨_, hsecond, List.prefix_rfl, fun _ _ => rfl⟩

/-! ## Layers with accumulators of their own -/

namespace Worker

/-- Pairing spells an index anew, and keeps apart what is spelled plainly. Two keys share their partner
exactly if they have the same role and index and both names have an underscore or none has one; parsed keys
with different plain names do not, and twice the partner of a parsed key is the key exactly if its name is
plain. A worker of an accepted configuration, given any tasks over any transport, asks for nothing but its
layers and their partners. Under client momentum what it hands over for a layer is asked of the partner of
the layer and then of the layer itself. No layer is the partner of one, and layers with different plain names
have different partners. -/
theorem partners_distinct_of_plain :
    (∀ a b : Key, a.partner.name = b.partner.name ↔ a.Respells b) ∧
    (∀ (name other : String) (a b : Key), Key.ofName name = .ok a → Key.ofName other = .ok b →
      Key.IsPlain name → Key.IsPlain other → name ≠ other → a.partner.name ≠ b.partner.name) ∧
    (∀ (name : String) (key : Key), Key.ofName name = .ok key → (key.partner.partner = key ↔ Key.IsPlain name)) ∧
    (∀ (rate decay : α) (t : Transport σ α) (key : Key) (gradient weight : Tensor α)
      (client : Client (σ × List (Asked α)) α),
      let done := ((Convention.clientMomentum rate decay).sync t.recorded key gradient weight).outcome client
      ∃ asked, done.2.link.2 = client.link.2 ++ asked ∧ asked.map (·.key) <+: [key.partner, key] ∧
        ∀ value, done.1 = .ok value → asked.map (·.key) = [key.partner, key]) ∧
    ∀ (identity : Identity) (config : WorkerConfig) (link : σ) (state : τ)
      (worker : Worker (σ × List (Asked Single)) τ Single),
      Worker.ofConfig identity config (link, []) state = .ok worker →
      (∀ (t : Transport σ Single) (trainer : Trainer τ Single) (tasks : List Task),
        ∀ asked ∈ (performAll t.recorded trainer tasks worker).2.client.link.2, ∃ layer ∈ worker.layers,
          asked.key = layer.key ∨ asked.gradient?.isSome = true ∧ asked.key = layer.key.partner) ∧
      ∀ layer ∈ worker.layers, ∀ other ∈ worker.layers,
        other.key.name ≠ layer.key.partner.name ∧
        (layer.key.partner.name = other.key.partner.name ↔ layer.key.Respells other.key) ∧
        (Key.IsPlain layer.key.name → Key.IsPlain other.key.name → layer.key.name ≠ other.key.name →
          layer.key.partner.name ≠ other.key.partner.name) := by
  have hplain : ∀ (name other : String) (a b : Key), Key.ofName name = .ok a → Key.ofName other = .ok b →
      Key.IsPlain name → Key.IsPlain other → name ≠ other → a.partner.name ≠ b.partner.name := by
    intro name other a b ha hb hname hother hne hpartner
    have hsame := Key.eq_of_name_partner_eq ha hb hname hother hpartner
    exact hne ((Key.name_of_ofName ha).symm.trans ((congrArg Key.name hsame).trans (Key.name_of_ofName hb)))
  refine ⟨fun _ _ => Key.name_partner_eq_iff, hplain, fun name key hkey => ?_, Convention.asked_sync, ?_⟩
  · rw [Key.partner_partner]
    exact Key.usual_eq_iff hkey
  intro identity config link state worker hworker
  obtain ⟨layers, hconfigured, rfl⟩ := Worker.ofConfig_ok hworker
  have hparsed : ∀ layer ∈ layers, Key.ofName layer.key.name = .ok layer.key :=
    hconfigured.forall_mem fun _ _ hconfig => (Layer.ofConfig_ok hconfig).2.1
  have htrained : ∀ layer ∈ layers, layer.key.role.isMomentum = false :=
    hconfigured.forall_mem fun _ _ hconfig => (Layer.ofConfig_ok hconfig).2.2
  constructor
  · intro t trainer tasks asked hasked
    have hfitted := (fitted_start identity layers config.devices config.backend config.sync config.convention link
      state).performAll (t := t) trainer tasks
    obtain ⟨layer, hlayer, hfits⟩ := hfitted.asked asked hasked
    exact ⟨layer, hlayer, hfits.key⟩
  · intro layer hlayer other hother
    refine ⟨?_, Key.name_partner_eq_iff, hplain _ _ _ _ (hparsed layer hlayer) (hparsed other hother)⟩
    exact Key.name_ne_partner_name (htrained layer hlayer) (htrained other hother) (hparsed other hother)

/-- A worker with two weights of one element. -/
def weightPair (first second : String) : WorkerConfig := loneConfig [⟨first, [1]⟩, ⟨second, [1]⟩] 0

/-- Parameters that start with ones, under the additive rule. -/
def onesStore : Store Single := Store.empty ⟨fun _ n => List.replicate n ⟨0x3F800000⟩, .additive, 0⟩

/-- Two weights with plain names have accumulators of their own, over a store and over any transport. -/
theorem partners_distinct_w_0_w_1 :
    ∃ worker,
      Worker.ofConfig loneWorker (weightPair "w_0" "w_1") (onesStore, ([] : List (Asked Single))) () = .ok worker ∧
      Key.IsPlain "w_0" ∧ Key.IsPlain "w_1" ∧ (Key.ofRole .weight 0).partner.partner = .ofRole .weight 0 ∧
      (Key.ofRole .weight 0).partner.name ≠ (Key.ofRole .weight 1).partner.name ∧
      (∀ asked ∈ (performAll Transport.ofStore.recorded .squares [.init, .epoch 1] worker).2.client.link.2,
        ∃ layer ∈ worker.layers,
          asked.key = layer.key ∨ asked.gradient?.isSome = true ∧ asked.key = layer.key.partner) ∧
      ∀ layer ∈ worker.layers, ∀ other ∈ worker.layers, layer.key.name ≠ other.key.name →
        layer.key.partner.name ≠ other.key.partner.name := by
  obtain ⟨-, hplain, htwice, -, hworkers⟩ := partners_distinct_of_plain (σ := Store Single) (τ := Unit) (α := Single)
  have hfirst : Key.ofName "w_0" = .ok (.ofRole .weight 0) := by decide
  have hsecond : Key.ofName "w_1" = .ok (.ofRole .weight 1) := by decide
  have h₀ : Key.IsPlain "w_0" := by decide
  have h₁ : Key.IsPlain "w_1" := by decide
  obtain ⟨worker, hworker⟩ : ∃ worker, Worker.ofConfig loneWorker (weightPair "w_0" "w_1")
    (onesStore, ([] : List (Asked Single))) () = .ok worker := ⟨_, rfl⟩
  obtain ⟨hasked, hlayers⟩ := hworkers loneWorker _ onesStore () worker hworker
  refine ⟨worker, hworker, h₀, h₁, (htwice _ _ hfirst).2 h₀, hplain _ _ _ _ hfirst hsecond h₀ h₁ (by decide),
    hasked .ofStore .squares [.init, .epoch 1], fun layer hlayer other hother hne => ?_⟩
  have hnames : ∀ layer ∈ worker.layers, Key.IsPlain layer.key.name := by
    cases hworker
    decide
  exact (hlayers layer hlayer other hother).2.2 (hnames layer hlayer) (hnames other hother) hne

/-- Two weights whose names spell the same index differently have the same accumulator, and a worker that has
both hands over both to it. The second one is not the partner of its partner. -/
theorem partners_merged_w_0_w_00 :
    ∃ a b, Key.ofName "w_0" = .ok a ∧ Key.ofName "w_00" = .ok b ∧ a.name ≠ b.name ∧
      a.partner.name = "wd_0" ∧ b.partner.name = "wd_0" ∧ b.partner.partner ≠ b ∧
      ∃ worker,
        Worker.ofConfig loneWorker (weightPair "w_0" "w_00") (onesStore, ([] : List (Asked Single))) () = .ok worker ∧
        (performAll Transport.ofStore.recorded .squares [.init, .epoch 1] worker).2.client.link.2.map (·.key.name) =
          ["w_0", "w_00", "wd_0", "w_0", "wd_0", "w_00"] :=
  ⟨.ofRole .weight 0, ⟨"w_00", .weight, 0⟩, by decide, by decide, by decide, by decide, by decide, by decide, _, rfl,
    by decide +kernel⟩

end Worker

end ParamExchange
