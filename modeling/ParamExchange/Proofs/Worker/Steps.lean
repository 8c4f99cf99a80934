/-
Steps of a worker. A step reduces the gradients of some computations to one gradient for each layer,
in the shape of the layer, and then hands these over or adds them to the sums. The sums are handed
over if a step is pending, and then no step is.
-/
import ParamExchange.Proofs.Worker.Reduction
import ParamExchange.Proofs.Worker.Sums

namespace ParamExchange

variable {σ τ α β γ ε : Type}

/-! ## Loops that refuse -/

/-- What every round of a loop needs in order to go on holds of all elements after the loop. -/
theorem forall_of_forIn_ok {P : γ → Prop} {f : γ → β → Except ε (ForInStep β)}
    (hround : ∀ x b next, f x b = .ok next → P x ∧ ∃ b', next = .yield b') {list : List γ} {b b' : β}
    (h : forIn list b f = .ok b') : ∀ x ∈ list, P x := by
  induction list generalizing b with
  | nil => nofun
  | cons x list ih =>
    rw [List.forIn_cons] at h
    rcases hx : f x b with e | next
    · rw [hx] at h
      cases h
    · obtain ⟨hP, between, rfl⟩ := hround x b next hx
      rw [hx] at h
      exact List.forall_mem_cons.2 ⟨hP, ih h⟩

theorem ok_of_bind_pure {x : Except ε β} {c : γ} (h : (x >>= fun _ => pure c) = .ok c) : ∃ b, x = .ok b := by
  cases x with
  | error e => cases h
  | ok b => exact ⟨b, rfl⟩

/-- The results of a list are those of its elements, one for each. -/
theorem getElem?_of_mapM_ok {f : γ → Except ε β} {list : List γ} {bs : List β} (h : list.mapM f = .ok bs) :
    bs.length = list.length ∧ ∀ (i : Nat) c b, list[i]? = some c → bs[i]? = some b → f c = .ok b := by
  induction list generalizing bs with
  | nil =>
    rw [List.mapM_nil] at h
    cases h
    exact ⟨rfl, nofun⟩
  | cons c list ih =>
    rw [List.mapM_cons] at h
    rcases hfirst : f c with e | b
    · rw [hfirst] at h
      cases h
    rcases hrest : list.mapM f with e | rest
    · rw [hfirst, hrest] at h
      cases h
    rw [hfirst, hrest] at h
    cases h
    obtain ⟨hlen, hall⟩ := ih hrest
    refine ⟨by rw [List.length_cons, List.length_cons, hlen], fun i c' b' hc hb => ?_⟩
    cases i with
    | zero =>
      cases hc
      cases hb
      exact hfirst
    | succ i => exact hall i c' b' hc hb

/-! ## Gradients of a step -/

theorem Positive.divides_iff {cycle : Positive} {step : Nat} : cycle.divides step = true ↔ cycle.val ∣ step := by
  rw [Positive.divides, beq_iff_eq, Nat.dvd_iff_mod_eq_zero]

/-- One gradient for each layer, of its shape. -/
structure Turn.IsChecked (turn : Turn α) (layers : List Layer) : Prop where
  length : turn.gradients.length = layers.length
  shape : ∀ (i : Nat) (layer : Layer) gradient, layers[i]? = some layer → turn.gradients[i]? = some gradient →
    gradient.shape = layer.shape

/-- Gradients that are not refused are one for each layer, of its shape. -/
theorem Worker.isChecked_of_checkGradients {w : Worker σ τ α} (device : Nat) {shard : Nat}
    {gradients : List (Tensor α)} (h : w.checkGradients shard gradients = .ok ()) :
    (⟨device, shard, gradients⟩ : Turn α).IsChecked w.layers := by
  unfold Worker.checkGradients at h
  by_cases hlen : gradients.length = w.layers.length
  · rw [if_neg (not_not_intro hlen)] at h
    refine ⟨hlen, fun i layer gradient hlayer hgradient => ?_⟩
    have hpair : (layer, gradient) ∈ w.layers.zip gradients :=
      List.mem_of_getElem? (List.getElem?_zip_eq_some.2 ⟨hlayer, hgradient⟩ : (w.layers.zip gradients)[i]? = _)
    obtain ⟨u, hloop⟩ := ok_of_bind_pure h
    refine forall_of_forIn_ok (P := fun p : Layer × Tensor α => p.2.shape = p.1.shape) ?_ hloop _ hpair
    rintro ⟨layer, gradient⟩ _ next hround
    by_cases hshape : gradient.shape = layer.shape
    · simp only [if_neg (not_not_intro hshape)] at hround
      cases hround
      exact ⟨hshape, _, rfl⟩
    · simp only [ne_eq, hshape, not_false_eq_true, if_true] at hround
      cases hround
  · rw [if_pos hlen] at h
    cases h

/-- A step: the computations of some devices, and what their gradients were reduced to. -/
structure Step (α : Type) where
  turns : List (Turn α)
  reduced : List (Tensor α)

variable [Scalar α]

/-- The gradients of a step are those of its computations, one gradient for each layer: the sum of
the tree over the devices, in the shape of the layer. -/
structure Step.IsReduction (step : Step α) (backend : Backend) (layers : List Layer) : Prop where
  checked : ∀ turn ∈ step.turns, turn.IsChecked layers
  length : step.reduced.length = layers.length
  tree : ∀ (i : Nat) gradient, step.reduced[i]? = some gradient →
    Reduction.tree backend.add (step.turns.filterMap (·.gradients[i]?)) = .ok gradient
  shape : ∀ (i : Nat) (layer : Layer) gradient, layers[i]? = some layer → step.reduced[i]? = some gradient →
    gradient.shape = layer.shape

theorem Step.IsReduction.exists_gradient {step : Step α} {backend : Backend} {layers : List Layer}
    (h : step.IsReduction backend layers) {i : Nat} {layer : Layer} (hlayer : layers[i]? = some layer) :
    ∃ gradient, step.reduced[i]? = some gradient := by
  obtain ⟨hi, -⟩ := List.getElem?_eq_some_iff.1 hlayer
  exact ⟨_, List.getElem?_eq_getElem (h.length.symm ▸ hi)⟩

theorem Backend.shape_add {backend : Backend} {x y s : Tensor α} (h : backend.add x y = .ok s) :
    s.shape = x.shape := by
  unfold Backend.add at h
  cases backend with
  | unavailable => cases h
  | cpu =>
    rcases hsum : x.add? y with _ | sum
    · simp only [hsum] at h
      cases h
    · simp only [hsum] at h
      cases h
      exact Tensor.shape_add? hsum

theorem isReduction_of_mapM {backend : Backend} {layers : List Layer} {turns : List (Turn α)}
    {reduced : List (Tensor α)} (hchecked : ∀ turn ∈ turns, turn.IsChecked layers)
    (h : (Worker.columns layers.length (turns.map (·.gradients))).mapM backend.reduce = .ok reduced) :
    (⟨turns, reduced⟩ : Step α).IsReduction backend layers := by
  obtain ⟨hlen, hall⟩ := getElem?_of_mapM_ok h
  have hlength : reduced.length = layers.length := by
    rw [hlen, Worker.columns, List.length_map, List.length_range]
  have htree : ∀ (i : Nat) gradient, reduced[i]? = some gradient →
      Reduction.tree backend.add (turns.filterMap (·.gradients[i]?)) = .ok gradient := by
    intro i gradient hgradient
    have hi : i < layers.length := hlength ▸ (List.getElem?_eq_some_iff.1 hgradient).1
    refine Backend.reduce_ok (hall i _ gradient ?_ hgradient)
    rw [Worker.columns, List.getElem?_map, List.getElem?_range hi, Option.map_some, List.filterMap_map]
    rfl
  refine ⟨hchecked, hlength, htree, fun i layer gradient hlayer hgradient => ?_⟩
  refine Reduction.of_tree_ok (P := fun x : Tensor α => x.shape = layer.shape)
    (fun x y s hx _ hs => (Backend.shape_add hs).trans hx) ?_ (htree i gradient hgradient)
  intro x hx
  obtain ⟨turn, hturn, hget⟩ := List.mem_filterMap.1 hx
  exact (hchecked turn hturn).shape i layer x hlayer hget

namespace Worker

variable {w w' : Worker σ τ α} {n : Nat} {t : Transport σ α} {turns : List (Turn α)}

/-! ## What a step does -/

/-- A step that pushes at once: the gradients are handed over, one for each layer in order. -/
theorem Gives.step_dense (trainer : Trainer τ α) (hsync : w.sync = .dense)
    (hchecked : ∀ turn ∈ turns, turn.IsChecked w.layers) (h : Gives (step t (turns.map (·.gradients))) w n w') :
    ∃ reduced s, (⟨turns, reduced⟩ : Step α).IsReduction w.backend w.layers ∧ n = w.layers.length ∧
      History t trainer w.layers w.convention w.scene (Deed.syncs 0 reduced) s ∧
      w' = { w.withScene s with globalStep := w.globalStep + 1 } := by
  rw [step, gives_get_bind, hsync] at h
  obtain ⟨reduced, same, hreduce, h⟩ := gives_bind.1 h
  obtain ⟨hreduced, hsame⟩ := gives_liftExcept.1 hreduce
  subst same
  obtain ⟨_, counted, hcount, h⟩ := gives_bind.1 h
  obtain rfl := gives_modify.1 hcount
  obtain ⟨_, _, hpush, h⟩ := gives_bind.1 h
  obtain ⟨s, hdeeds, rfl⟩ := Gives.syncAll trainer hpush
  obtain ⟨rfl, rfl⟩ := gives_pure.1 h
  have hreduction := isReduction_of_mapM hchecked hreduced
  exact ⟨reduced, s, hreduction, hreduction.length, hdeeds, rfl⟩

/-- A step that sums up: the gradients are added to the sums and the step is pending. When a cycle
is over the sums are handed over. -/
theorem Gives.step_bulk {cycle : Positive} (hsync : w.sync = .bulk cycle)
    (hchecked : ∀ turn ∈ turns, turn.IsChecked w.layers)
    (h : Gives (step t (turns.map (·.gradients))) w n w') :
    ∃ reduced acc summed, (⟨turns, reduced⟩ : Step α).IsReduction w.backend w.layers ∧
      w.accumulator.Adds w.layers reduced acc ∧
      summed = { w with globalStep := w.globalStep + 1, accumulator := acc, pending := w.pending + 1 } ∧
      if cycle.val ∣ w.globalStep + 1 then Gives (flush t) summed n w' else n = 0 ∧ w' = summed := by
  rw [step, gives_get_bind, hsync] at h
  obtain ⟨reduced, same, hreduce, h⟩ := gives_bind.1 h
  obtain ⟨hreduced, hsame⟩ := gives_liftExcept.1 hreduce
  subst same
  obtain ⟨_, counted, hcount, h⟩ := gives_bind.1 h
  obtain rfl := gives_modify.1 hcount
  have hreduction := isReduction_of_mapM hchecked hreduced
  obtain ⟨_, _, hadd, h⟩ := gives_bind.1 h
  obtain ⟨acc, hadds, rfl⟩ := Gives.accumulateAll hreduction.length hadd
  obtain ⟨_, summed, hpending, h⟩ := gives_bind.1 h
  refine ⟨reduced, acc, summed, hreduction, hadds, gives_modify.1 hpending, ?_⟩
  split
  · rename_i hdvd
    rwa [if_pos (Positive.divides_iff.2 hdvd)] at h
  · rename_i hdvd
    rw [if_neg (mt Positive.divides_iff.1 hdvd)] at h
    exact gives_pure.1 h

/-- If no step is pending, nothing is handed over. -/
theorem Gives.flush_none (hpending : w.pending = 0) (h : Gives (flush t) w n w') : n = 0 ∧ w' = w := by
  rw [flush, gives_get_bind, if_pos hpending] at h
  exact gives_pure.1 h

/-- If a step is pending, the sums of all layers are handed over, and no step is pending any more. -/
theorem Gives.flush_some (trainer : Trainer τ α) (hpending : w.pending ≠ 0)
    (hheld : ∀ layer ∈ w.layers, ∃ sum, w.accumulator.sum? layer.key = some sum)
    (h : Gives (flush t) w n w') :
    n = w.layers.length ∧ ∃ handed s acc, w.accumulator.Takes w.layers handed acc ∧
      History t trainer w.layers w.convention w.scene (Deed.syncs 0 handed) s ∧
      w' = { w.withScene s with accumulator := acc, pending := 0 } := by
  rw [flush, gives_get_bind, if_neg hpending] at h
  obtain ⟨_, between, hflush, h⟩ := gives_bind.1 h
  obtain ⟨rfl, handed, s, acc, htakes, hdeeds, rfl⟩ := Gives.flushLayers trainer hheld hflush
  obtain ⟨_, last, hreset, h⟩ := gives_bind.1 h
  obtain rfl := gives_modify.1 hreset
  obtain ⟨rfl, rfl⟩ := gives_pure.1 h
  exact ⟨rfl, handed, s, acc, htakes, hdeeds, rfl⟩

end Worker

end ParamExchange
