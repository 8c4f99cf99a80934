/-
The deeds of a worker: it computes the gradients of a shard with its local copies, or it hands a
gradient to the update convention and takes over the new value of the layer. What happens depends on
the local copies, the client and the state of the trainer, and only deeds change these.
-/
import ParamExchange.Proofs.Worker.Work
import ParamExchange.Worker.Epoch

namespace ParamExchange

/-! ## Deeds -/

/-- A computation: the device, the shard, and the gradients that came out of it. -/
structure Turn (α : Type) where
  device : Nat
  shard : Nat
  gradients : List (Tensor α)

/-- Something that a worker does to what it trains. -/
inductive Deed (α : Type)
  | compute (turn : Turn α)
  | sync (layer : Nat) (gradient : Tensor α)

/-- The gradients of the layers from the layer `i` on are handed over. -/
def Deed.syncs {α : Type} : Nat → List (Tensor α) → List (Deed α)
  | _, [] => []
  | i, gradient :: rest => .sync i gradient :: syncs (i + 1) rest

/-- The local copies of the layers, the client and the state of the trainer. -/
structure Scene (σ τ α : Type) where
  params : List (Tensor α)
  client : Client σ α
  trainer : τ

variable {σ τ α : Type}

namespace Worker

/-- What deeds depend on. -/
def scene (w : Worker σ τ α) : Scene σ τ α := ⟨w.params, w.client, w.trainer⟩

/-- The same worker in another scene. -/
def withScene (w : Worker σ τ α) (s : Scene σ τ α) : Worker σ τ α :=
  { w with params := s.params, client := s.client, trainer := s.trainer }

end Worker

/-! ## Histories -/

variable [Scalar α] {t : Transport σ α} {trainer : Trainer τ α} {layers : List Layer} {convention : Convention α}

/-- `Happens t trainer layers convention s deed after`: in the scene `s` the deed ends well and leaves
the scene `after`. -/
inductive Happens (t : Transport σ α) (trainer : Trainer τ α) (layers : List Layer) (convention : Convention α) :
    Scene σ τ α → Deed α → Scene σ τ α → Prop
  | compute {s : Scene σ τ α} {turn : Turn α} {state : τ} :
      trainer.gradients turn.device turn.shard s.params s.trainer = (.ok turn.gradients, state) →
      Happens t trainer layers convention s (.compute turn) { s with trainer := state }
  | sync {s : Scene σ τ α} {i : Nat} {gradient weight value : Tensor α} {layer : Layer} {client : Client σ α} :
      layers[i]? = some layer → s.params[i]? = some weight →
      (convention.sync t layer.key gradient weight).outcome s.client = (.ok value, client) →
      Happens t trainer layers convention s (.sync i gradient)
        { s with params := s.params.set i value, client := client }

/-- The deeds happen one after another. -/
inductive History (t : Transport σ α) (trainer : Trainer τ α) (layers : List Layer) (convention : Convention α) :
    Scene σ τ α → List (Deed α) → Scene σ τ α → Prop
  | nil {s : Scene σ τ α} : History t trainer layers convention s [] s
  | cons {s between after : Scene σ τ α} {deed : Deed α} {deeds : List (Deed α)} :
      Happens t trainer layers convention s deed between →
      History t trainer layers convention between deeds after →
      History t trainer layers convention s (deed :: deeds) after

namespace History

variable {s between after : Scene σ τ α} {deed : Deed α} {deeds more : List (Deed α)}

theorem append (h : History t trainer layers convention s deeds between)
    (hmore : History t trainer layers convention between more after) :
    History t trainer layers convention s (deeds ++ more) after := by
  induction h with
  | nil => exact hmore
  | cons hdeed _ ih => exact .cons hdeed (ih hmore)

theorem snoc (h : History t trainer layers convention s deeds between)
    (hdeed : Happens t trainer layers convention between deed after) :
    History t trainer layers convention s (deeds ++ [deed]) after :=
  h.append (.cons hdeed .nil)

end History

/-! ## What the parts of the work do -/

namespace Worker

variable {w w' : Worker σ τ α}

/-- The trainer computes gradients, and nothing else changes. -/
theorem Gives.train (t : Transport σ α) {device shard : Nat} {gradients : List (Tensor α)}
    (h : Gives (train trainer device shard) w gradients w') :
    ∃ s, Happens t trainer w.layers w.convention w.scene (.compute ⟨device, shard, gradients⟩) s ∧
      w' = w.withScene s := by
  have hrun : outcome (Worker.train trainer device shard) w =
      ((trainer.gradients device shard w.params w.trainer).1.mapError .error,
        { w with trainer := (trainer.gradients device shard w.params w.trainer).2 }) := rfl
  unfold Gives at h
  rw [hrun] at h
  rcases htrain : trainer.gradients device shard w.params w.trainer with ⟨e | found, state⟩
  · rw [htrain] at h
    cases h
  · rw [htrain] at h
    cases h
    exact ⟨_, .compute htrain, rfl⟩

/-- A gradient of a layer is handed over, and nothing else changes. -/
theorem Gives.syncLayer (trainer : Trainer τ α) {i : Nat} {gradient : Tensor α} {u : Unit}
    (h : Gives (syncLayer t i gradient) w u w') :
    ∃ s, Happens t trainer w.layers w.convention w.scene (.sync i gradient) s ∧ w' = w.withScene s := by
  rw [Worker.syncLayer, gives_get_bind] at h
  rcases hlayer : w.layers[i]? with _ | layer
  · rw [hlayer] at h
    exact absurd h not_gives_throw
  rcases hweight : w.params[i]? with _ | weight
  · rw [hlayer, hweight] at h
    exact absurd h not_gives_throw
  rw [hlayer, hweight] at h
  obtain ⟨value, between, hexchange, hmodify⟩ := gives_bind.1 h
  obtain ⟨client, hsync, rfl⟩ := gives_exchange.1 hexchange
  obtain rfl := gives_modify.1 hmodify
  exact ⟨_, .sync hlayer hweight hsync, rfl⟩

/-- The gradients of all layers from the layer `i` on are handed over, in order. -/
theorem Gives.syncAll (trainer : Trainer τ α) {gradients : List (Tensor α)} {i : Nat} {u : Unit}
    (h : Gives (syncAll t i gradients) w u w') :
    ∃ s, History t trainer w.layers w.convention w.scene (Deed.syncs i gradients) s ∧ w' = w.withScene s := by
  induction gradients generalizing i w with
  | nil =>
    obtain ⟨-, rfl⟩ := gives_pure.1 h
    exact ⟨_, .nil, rfl⟩
  | cons gradient gradients ih =>
    obtain ⟨_, between, hfirst, hrest⟩ := gives_bind.1 h
    obtain ⟨s, hdeed, rfl⟩ := Gives.syncLayer trainer hfirst
    obtain ⟨s', hdeeds, rfl⟩ := ih hrest
    exact ⟨s', .cons hdeed hdeeds, rfl⟩

end Worker

end ParamExchange
