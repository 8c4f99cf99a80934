/-
The sums of a worker. Gradients are added to the sum of their layer one after another; where the
sums are taken, each layer is handed what was added up for it, and starts again from zeros of the
same shape. Layers have sums of their own if their keys are distinct.
-/
import ParamExchange.Proofs.Store.Requests
import ParamExchange.Proofs.Tensor.Layout
import ParamExchange.Proofs.Worker.Deeds

namespace ParamExchange

variable {σ τ α : Type} [Scalar α]

/-! ## Tensors -/

namespace Tensor

theorem shape_add? {x y s : Tensor α} (h : x.add? y = some s) : s.shape = x.shape := (of_zip? h).2.1

/-- The sum of some gradients, added one after another to a sum if there is one. -/
def addAll? : Option (Tensor α) → List (Tensor α) → Option (Tensor α)
  | some sum, gradients => gradients.foldlM add? sum
  | none, first :: gradients => gradients.foldlM add? first
  | none, [] => none

theorem shape_foldlM_add? {gradients : List (Tensor α)} {first s : Tensor α}
    (h : gradients.foldlM add? first = some s) : s.shape = first.shape := by
  induction gradients generalizing first with
  | nil =>
    cases h
    rfl
  | cons gradient gradients ih =>
    rw [List.foldlM_cons] at h
    obtain ⟨next, hnext, hrest⟩ := Option.bind_eq_some_iff.1 h
    exact (ih hrest).trans (shape_add? hnext)

/-- The sum has the shape of what is summed up. -/
theorem shape_addAll? {start : Option (Tensor α)} {gradients : List (Tensor α)} {s : Tensor α} {shape : List Nat}
    (hstart : ∀ sum, start = some sum → sum.shape = shape)
    (hgradients : ∀ gradient ∈ gradients, gradient.shape = shape) (h : addAll? start gradients = some s) :
    s.shape = shape := by
  cases start with
  | some sum => exact (shape_foldlM_add? h).trans (hstart sum rfl)
  | none =>
    cases gradients with
    | nil => cases h
    | cons first gradients => exact (shape_foldlM_add? h).trans (hgradients first (List.mem_cons_self ..))

/-- A sum with one more gradient. -/
def more? : Option (Tensor α) → Tensor α → Option (Tensor α)
  | none, gradient => some gradient
  | some sum, gradient => sum.add? gradient

theorem foldlM_add?_concat {gradients : List (Tensor α)} {first sum gradient : Tensor α}
    (h : gradients.foldlM add? first = some sum) :
    (gradients ++ [gradient]).foldlM add? first = sum.add? gradient := by
  rw [List.foldlM_append, h]
  show ([gradient].foldlM add? sum) = _
  rw [List.foldlM_cons]
  exact bind_pure (sum.add? gradient)

/-- `Summed start gradients sum`: nothing was added to `start` yet, or `sum` is what it became. -/
def Summed (start : Option (Tensor α)) (gradients : List (Tensor α)) (sum : Option (Tensor α)) : Prop :=
  gradients = [] ∧ sum = start ∨ ∃ s, addAll? start gradients = some s ∧ sum = some s

theorem Summed.more {start sum : Option (Tensor α)} {gradients : List (Tensor α)} {gradient s : Tensor α}
    (h : Summed start gradients sum) (hmore : more? sum gradient = some s) :
    addAll? start (gradients ++ [gradient]) = some s := by
  rw [← hmore]
  obtain ⟨rfl, rfl⟩ | ⟨held, hheld, rfl⟩ := h
  · cases sum with
    | none => rfl
    | some held => exact foldlM_add?_concat rfl
  · cases start with
    | some first => exact foldlM_add?_concat hheld
    | none =>
      cases gradients with
      | nil => cases hheld
      | cons first gradients => exact foldlM_add?_concat hheld

end Tensor

/-! ## Accumulators -/

namespace Accumulator

omit [Scalar α] in
theorem sum?_put (acc : Accumulator α) (key other : Key) (sum : Tensor α) :
    (acc.put key sum).sum? other = if other = key then some sum else acc.sum? other :=
  Table.get?_put key other sum acc.sums

theorem accumulate_ok {acc after : Accumulator α} {key : Key} {gradient : Tensor α}
    (h : acc.accumulate key gradient = .ok after) :
    ∃ s, Tensor.more? (acc.sum? key) gradient = some s ∧ after = acc.put key s := by
  unfold accumulate at h
  rcases hheld : acc.sum? key with _ | sum
  · rw [hheld] at h
    cases h
    exact ⟨gradient, rfl, rfl⟩
  · rcases hsum : sum.add? gradient with _ | s
    · simp only [hheld, hsum] at h
      cases h
    · simp only [hheld, hsum] at h
      cases h
      exact ⟨s, hsum, rfl⟩

theorem flush_some {acc : Accumulator α} {key : Key} {sum : Tensor α} (h : acc.sum? key = some sum) :
    acc.flush key = (some sum, acc.put key (Tensor.zeros sum.shape)) := by
  unfold flush
  rw [h]

/-- One gradient for each layer was added to the sum of the layer. -/
structure Adds (acc : Accumulator α) (layers : List Layer) (gradients : List (Tensor α))
    (after : Accumulator α) : Prop where
  held : ∀ layer ∈ layers, ∃ sum, after.sum? layer.key = some sum
  sums : (layers.map (·.key)).Nodup → ∀ (i : Nat) (layer : Layer) gradient, layers[i]? = some layer →
    gradients[i]? = some gradient →
    ∃ sum, Tensor.more? (acc.sum? layer.key) gradient = some sum ∧ after.sum? layer.key = some sum
  others : ∀ key ∉ layers.map (·.key), after.sum? key = acc.sum? key

/-- The sums of the layers were taken. -/
structure Takes (acc : Accumulator α) (layers : List Layer) (handed : List (Tensor α))
    (after : Accumulator α) : Prop where
  length : handed.length = layers.length
  sums : (layers.map (·.key)).Nodup → ∀ (i : Nat) (layer : Layer), layers[i]? = some layer →
    ∃ sum, acc.sum? layer.key = some sum ∧ handed[i]? = some sum ∧
      after.sum? layer.key = some (Tensor.zeros sum.shape)
  others : ∀ key ∉ layers.map (·.key), after.sum? key = acc.sum? key

variable {acc after : Accumulator α} {layer : Layer} {layers : List Layer} {gradient sum : Tensor α}
  {gradients handed : List (Tensor α)}

omit [Scalar α] in
/-- The sum of a layer is not touched by what is done to layers with other keys. -/
theorem sum?_of_others (hothers : ∀ key ∉ layers.map (·.key), after.sum? key = (acc.put layer.key sum).sum? key)
    (hfresh : layer.key ∉ layers.map (·.key)) : after.sum? layer.key = some sum := by
  rw [hothers _ hfresh, sum?_put, if_pos rfl]

omit [Scalar α] in
theorem sum?_put_of_fresh {i : Nat} {other : Layer} (hfresh : layer.key ∉ layers.map (·.key))
    (hother : layers[i]? = some other) : (acc.put layer.key sum).sum? other.key = acc.sum? other.key := by
  rw [sum?_put, if_neg]
  exact fun heq => hfresh (heq ▸ List.mem_map_of_mem (List.mem_of_getElem? hother))

omit [Scalar α] in
theorem others_cons (hothers : ∀ key ∉ layers.map (·.key), after.sum? key = (acc.put layer.key sum).sum? key) :
    ∀ key ∉ (layer :: layers).map (·.key), after.sum? key = acc.sum? key := by
  intro key hkey
  rw [List.map_cons, List.mem_cons, not_or] at hkey
  rw [hothers key hkey.2, sum?_put, if_neg hkey.1]

theorem Adds.cons (hsum : Tensor.more? (acc.sum? layer.key) gradient = some sum)
    (h : (acc.put layer.key sum).Adds layers gradients after) :
    acc.Adds (layer :: layers) (gradient :: gradients) after := by
  refine ⟨fun other hother => ?_, fun hdistinct i other added hother hadded => ?_, others_cons h.others⟩
  · by_cases hmem : other.key ∈ layers.map (·.key)
    · obtain ⟨same, hsame, heq⟩ := List.mem_map.1 hmem
      exact heq ▸ h.held same hsame
    · obtain rfl : other = layer :=
        (List.mem_cons.1 hother).resolve_right fun hlater => hmem (List.mem_map_of_mem hlater)
      exact ⟨sum, sum?_of_others h.others hmem⟩
  · rw [List.map_cons, List.nodup_cons] at hdistinct
    cases i with
    | zero =>
      cases hother
      cases hadded
      exact ⟨sum, hsum, sum?_of_others h.others hdistinct.1⟩
    | succ i =>
      rw [← sum?_put_of_fresh hdistinct.1 hother]
      exact h.sums hdistinct.2 i other added hother hadded

theorem Takes.cons (hsum : acc.sum? layer.key = some sum)
    (h : (acc.put layer.key (Tensor.zeros sum.shape)).Takes layers handed after) :
    acc.Takes (layer :: layers) (sum :: handed) after := by
  refine ⟨by rw [List.length_cons, List.length_cons, h.length], fun hdistinct i other hother => ?_,
    others_cons h.others⟩
  rw [List.map_cons, List.nodup_cons] at hdistinct
  cases i with
  | zero =>
    cases hother
    exact ⟨sum, hsum, rfl, sum?_of_others h.others hdistinct.1⟩
  | succ i =>
    rw [← sum?_put_of_fresh hdistinct.1 hother]
    exact h.sums hdistinct.2 i other hother

end Accumulator

/-! ## Layers -/

namespace Worker

variable {w w' : Worker σ τ α} {u : Unit} {t : Transport σ α}

theorem outcome_accumulateLayer_error {layer : Layer} {gradient : Tensor α} {e : WorkerError}
    (h : w.accumulator.accumulate layer.key gradient = .error e) :
    outcome (accumulateLayer layer gradient) w = (.error (.error e), w) := by
  show accumulateLayer layer gradient w = _
  unfold accumulateLayer
  rw [h]

theorem outcome_accumulateLayer_ok {layer : Layer} {gradient : Tensor α} {acc : Accumulator α}
    (h : w.accumulator.accumulate layer.key gradient = .ok acc) :
    outcome (accumulateLayer layer gradient) w = (.ok (), { w with accumulator := acc }) := by
  show accumulateLayer layer gradient w = _
  unfold accumulateLayer
  rw [h]

theorem Gives.accumulateLayer {layer : Layer} {gradient : Tensor α}
    (h : Gives (accumulateLayer layer gradient) w u w') :
    ∃ s, Tensor.more? (w.accumulator.sum? layer.key) gradient = some s ∧
      w' = { w with accumulator := w.accumulator.put layer.key s } := by
  rcases hacc : w.accumulator.accumulate layer.key gradient with e | acc
  · exact absurd h (not_gives_of_outcome (outcome_accumulateLayer_error hacc))
  · obtain ⟨s, hs, rfl⟩ := Accumulator.accumulate_ok hacc
    exact ⟨s, hs, ((gives_of_outcome (outcome_accumulateLayer_ok hacc)).1 h).2⟩

/-- One gradient for each layer is added to the sum of the layer, and nothing else changes. -/
theorem Gives.accumulateAll {layers : List Layer} {gradients : List (Tensor α)}
    (hlen : gradients.length = layers.length)
    (h : Gives ((layers.zip gradients).forM fun p => Worker.accumulateLayer p.1 p.2) w u w') :
    ∃ acc, w.accumulator.Adds layers gradients acc ∧ w' = { w with accumulator := acc } := by
  induction layers generalizing gradients w with
  | nil =>
    obtain ⟨-, rfl⟩ := gives_pure.1 h
    exact ⟨w'.accumulator, ⟨nofun, fun _ => nofun, fun _ _ => rfl⟩, rfl⟩
  | cons layer layers ih =>
    rcases gradients with _ | ⟨gradient, gradients⟩
    · cases hlen
    obtain ⟨_, between, hfirst, hrest⟩ := gives_bind.1 h
    obtain ⟨s, hs, rfl⟩ := Gives.accumulateLayer hfirst
    obtain ⟨acc, hadds, rfl⟩ := ih (Nat.succ.inj hlen) hrest
    exact ⟨acc, hadds.cons hs, rfl⟩

theorem Gives.takeSum {key : Key} {sum : Tensor α} {taken : Option (Tensor α)}
    (hsum : w.accumulator.sum? key = some sum) (h : Gives (takeSum key) w taken w') :
    taken = some sum ∧ w' = { w with accumulator := w.accumulator.put key (Tensor.zeros sum.shape) } := by
  have hrun : outcome (Worker.takeSum key : Work σ τ α _) w =
      (.ok (w.accumulator.flush key).1, { w with accumulator := (w.accumulator.flush key).2 }) := rfl
  rw [Accumulator.flush_some hsum] at hrun
  exact (gives_of_outcome hrun).1 h

/-- The sums of the layers from the layer `i` on are handed over, in order, and start again. -/
theorem Gives.flushLayers (trainer : Trainer τ α) {layers : List Layer} {i n : Nat}
    (hheld : ∀ layer ∈ layers, ∃ sum, w.accumulator.sum? layer.key = some sum)
    (h : Gives (flushLayers t i layers) w n w') :
    n = layers.length ∧ ∃ handed s acc, w.accumulator.Takes layers handed acc ∧
      History t trainer w.layers w.convention w.scene (Deed.syncs i handed) s ∧
      w' = { w.withScene s with accumulator := acc } := by
  induction layers generalizing i n w with
  | nil =>
    obtain ⟨rfl, rfl⟩ := gives_pure.1 h
    exact ⟨rfl, [], _, w'.accumulator, ⟨rfl, fun _ => nofun, fun _ _ => rfl⟩, .nil, rfl⟩
  | cons layer layers ih =>
    obtain ⟨sum, hsum⟩ := hheld layer (List.mem_cons_self ..)
    obtain ⟨taken, between, htake, h⟩ := gives_bind.1 h
    obtain ⟨rfl, rfl⟩ := Gives.takeSum hsum htake
    obtain ⟨_, synced, hsync, h⟩ := gives_bind.1 h
    obtain ⟨s, hdeed, rfl⟩ := Gives.syncLayer trainer hsync
    obtain ⟨count, last, hrest, hpure⟩ := gives_bind.1 h
    obtain ⟨rfl, rfl⟩ := gives_pure.1 hpure
    -- a layer whose key is that of the first one has the zeros that were left there
    have hstill : ∀ other ∈ layers,
        ∃ held, (w.accumulator.put layer.key (Tensor.zeros sum.shape)).sum? other.key = some held := by
      intro other hother
      rw [Accumulator.sum?_put]
      split
      · exact ⟨_, rfl⟩
      · exact hheld other (List.mem_cons_of_mem _ hother)
    obtain ⟨rfl, handed, s', acc, htakes, hdeeds, rfl⟩ := ih hstill hrest
    exact ⟨rfl, sum :: handed, s', acc, htakes.cons hsum, .cons hdeed hdeeds, rfl⟩

end Worker

end ParamExchange
