/-
Blocks of steps. The steps whose gradients leave a worker together are a block: a single step if the
worker pushes at once, the steps since the sums were last taken if it sums up. The ledger of an epoch
tells the blocks that left, the rest that is summed up, and how the worker stands to them; it is kept
by every computation, by every step, and by what is done at the end.
-/
import ParamExchange.Proofs.Worker.Cuts
import ParamExchange.Proofs.Worker.Steps

namespace ParamExchange

open Tensor (addAll? more? Summed shape_addAll?)

variable {σ τ α : Type}

/-- Steps whose gradients left the worker together, and what was handed over, one gradient for each
layer. -/
structure Block (α : Type) where
  steps : List (Step α)
  handed : List (Tensor α)

/-- A step that is handed over as it is. -/
def Step.alone (step : Step α) : Block α := ⟨[step], step.reduced⟩

/-- The computations of some steps. -/
def turnsOf (steps : List (Step α)) : List (Turn α) := steps.flatMap (·.turns)

/-- The steps of some blocks. -/
def stepsOf (blocks : List (Block α)) : List (Step α) := (blocks.map (·.steps)).flatten

/-- The gradients of a layer in some steps. -/
def column (i : Nat) (steps : List (Step α)) : List (Tensor α) := steps.filterMap (·.reduced[i]?)

/-- The deeds of a block: all its computations, and then its gradients are handed over. -/
def Block.deeds (block : Block α) : List (Deed α) :=
  (turnsOf block.steps).map .compute ++ Deed.syncs 0 block.handed

@[simp]
theorem turnsOf_append (steps more : List (Step α)) : turnsOf (steps ++ more) = turnsOf steps ++ turnsOf more :=
  List.flatMap_append

@[simp]
theorem turnsOf_singleton (step : Step α) : turnsOf [step] = step.turns := List.flatMap_singleton ..

@[simp]
theorem stepsOf_append (blocks : List (Block α)) (block : Block α) :
    stepsOf (blocks ++ [block]) = stepsOf blocks ++ block.steps := by
  rw [stepsOf, List.map_append, List.flatten_append, List.map_singleton, List.flatten_singleton, stepsOf]

theorem eq_map_alone {blocks : List (Block α)} (h : ∀ block ∈ blocks, ∃ step, block = Step.alone step) :
    blocks = (stepsOf blocks).map Step.alone := by
  induction blocks with
  | nil => rfl
  | cons block blocks ih =>
    obtain ⟨⟨step, rfl⟩, hblocks⟩ := List.forall_mem_cons.1 h
    have hrest := ih hblocks
    rw [stepsOf] at hrest ⊢
    rw [List.map_cons, List.flatten_cons, List.map_append, ← hrest]
    rfl

theorem column_concat {i : Nat} {steps : List (Step α)} {step : Step α} {gradient : Tensor α}
    (h : step.reduced[i]? = some gradient) : column i (steps ++ [step]) = column i steps ++ [gradient] := by
  rw [column, List.filterMap_append, List.filterMap_cons, h]
  rfl

/-- The number of steps from one push to the next. -/
def SyncMode.cycle : SyncMode → Nat
  | .dense => 1
  | .bulk cycle => cycle.val

theorem SyncMode.cycle_pos (sync : SyncMode) : 0 < sync.cycle := by
  cases sync with
  | dense => exact Nat.one_pos
  | bulk cycle => exact cycle.property

variable [Scalar α]

/-- What the sum of a layer starts from: nothing in the first block of a worker, and zeros in all later
ones. It only matters whether there was anything earlier, so steps and blocks may be counted together. -/
def sumStart (earlier : Nat) (shape : List Nat) : Option (Tensor α) :=
  if earlier = 0 then none else some (Tensor.zeros shape)

/-! ## Sums -/

namespace Worker

/-- How the sums of a worker stand to the blocks of an epoch and the rest; there were `earlier` steps
before the epoch. Sums are those of a layer if no other layer has the same key. -/
structure Tally (earlier : Nat) (blocks : List (Block α)) (rest : List (Step α)) (w : Worker σ τ α) : Prop where
  pending : w.pending = rest.length
  held : rest ≠ [] → ∀ layer ∈ w.layers, ∃ sum, w.accumulator.sum? layer.key = some sum
  running : (w.layers.map (·.key)).Nodup → ∀ (i : Nat) (layer : Layer), w.layers[i]? = some layer →
    Summed (sumStart (earlier + blocks.length) layer.shape) (column i rest) (w.accumulator.sum? layer.key)
  taken : (w.layers.map (·.key)).Nodup → ∀ (j : Nat) block, blocks[j]? = some block →
    ∀ (i : Nat) (layer : Layer), w.layers[i]? = some layer →
      block.handed[i]? = addAll? (sumStart (earlier + j) layer.shape) (column i block.steps)

namespace Tally

variable {earlier : Nat} {blocks : List (Block α)} {rest : List (Step α)} {w : Worker σ τ α}

theorem add (h : Tally earlier blocks rest w) {step : Step α} {acc : Accumulator α} {number : Nat}
    (hstep : step.IsReduction w.backend w.layers) (hadds : w.accumulator.Adds w.layers step.reduced acc) :
    Tally earlier blocks (rest ++ [step])
      { w with globalStep := number, accumulator := acc, pending := w.pending + 1 } := by
  refine ⟨?_, fun _ => hadds.held, fun hdistinct i layer hlayer => ?_, h.taken⟩
  · show w.pending + 1 = _
    rw [h.pending, List.length_append, List.length_singleton]
  · obtain ⟨gradient, hgradient⟩ := hstep.exists_gradient hlayer
    obtain ⟨sum, hsum, hafter⟩ := hadds.sums hdistinct i layer _ hlayer hgradient
    rw [column_concat hgradient]
    exact .inr ⟨sum, (h.running hdistinct i layer hlayer).more hsum, hafter⟩

/-- What was running when the sums are taken is what was added up. -/
theorem addAll?_of_running (h : Tally earlier blocks rest w) (hrest : rest ≠ [])
    (hsteps : ∀ step ∈ rest, step.IsReduction w.backend w.layers) (hdistinct : (w.layers.map (·.key)).Nodup)
    {i : Nat} {layer : Layer} (hlayer : w.layers[i]? = some layer) {sum : Tensor α}
    (hsum : w.accumulator.sum? layer.key = some sum) :
    addAll? (sumStart (earlier + blocks.length) layer.shape) (column i rest) = some sum ∧
      sum.shape = layer.shape := by
  have hfirst : column i rest ≠ [] := by
    obtain ⟨step, hstep⟩ := List.exists_mem_of_ne_nil rest hrest
    obtain ⟨gradient, hgradient⟩ := (hsteps step hstep).exists_gradient hlayer
    exact List.ne_nil_of_mem (List.mem_filterMap.2 ⟨step, hstep, hgradient⟩)
  obtain ⟨hnil, -⟩ | ⟨s, hall, heq⟩ := h.running hdistinct i layer hlayer
  · exact absurd hnil hfirst
  · obtain rfl : sum = s := Option.some.inj (hsum.symm.trans heq)
    refine ⟨hall, shape_addAll? (fun start hstart => ?_) (fun gradient hgradient => ?_) hall⟩
    · unfold sumStart at hstart
      split at hstart
      · cases hstart
      · cases hstart
        rfl
    · obtain ⟨step, hstep, hget⟩ := List.mem_filterMap.1 hgradient
      exact (hsteps step hstep).shape i layer gradient hlayer hget

theorem take (h : Tally earlier blocks rest w) (hrest : rest ≠ [])
    (hsteps : ∀ step ∈ rest, step.IsReduction w.backend w.layers) {handed : List (Tensor α)}
    {acc : Accumulator α} {s : Scene σ τ α} (htakes : w.accumulator.Takes w.layers handed acc) :
    Tally earlier (blocks ++ [⟨rest, handed⟩]) [] { w.withScene s with accumulator := acc, pending := 0 } := by
  refine ⟨rfl, fun hne => absurd rfl hne, fun hdistinct i layer hlayer => ?_,
    fun hdistinct j block hblock i layer hlayer => ?_⟩
  · obtain ⟨sum, hsum, -, hafter⟩ := htakes.sums hdistinct i layer hlayer
    have hshape := (h.addAll?_of_running hrest hsteps hdistinct hlayer hsum).2
    refine .inl ⟨rfl, ?_⟩
    rw [sumStart, List.length_append, List.length_singleton, if_neg (by omega), ← hshape]
    exact hafter
  · obtain ⟨sum, hsum, hhanded, -⟩ := htakes.sums hdistinct i layer hlayer
    rcases Nat.lt_or_ge j blocks.length with hlt | hge
    · rw [List.getElem?_append_left hlt] at hblock
      exact h.taken hdistinct j block hblock i layer hlayer
    · obtain ⟨hlt, -⟩ := List.getElem?_eq_some_iff.1 hblock
      rw [List.length_append, List.length_singleton] at hlt
      obtain rfl : j = blocks.length := by omega
      rw [List.getElem?_concat_length] at hblock
      cases hblock
      rw [(h.addAll?_of_running hrest hsteps hdistinct hlayer hsum).1]
      exact hhanded

end Tally

/-! ## The ledger -/

/-- What a worker does when there are no more steps. -/
def flushLast (t : Transport σ α) : SyncMode → Work σ τ α Nat
  | .dense => pure 0
  | .bulk _ => flush t

/-- What does not change in an epoch. -/
structure Setup (α : Type) where
  identity : Identity
  layers : List Layer
  devices : Positive
  backend : Backend
  sync : SyncMode
  convention : Convention α
  epoch : Nat

/-- The setup of a worker. -/
def setup (w : Worker σ τ α) : Setup α :=
  ⟨w.identity, w.layers, w.devices, w.backend, w.sync, w.convention, w.epoch⟩

/-- How the worker `w` stands to the blocks that left since the worker was `w₀`, the rest of the steps
and the computations that are in no step yet; `pushed` counts the gradients that were handed over. -/
structure Ledger (t : Transport σ α) (trainer : Trainer τ α) (w₀ : Worker σ τ α) (blocks : List (Block α))
    (rest : List (Step α)) (current : List (Turn α)) (pushed : Nat) (w : Worker σ τ α) : Prop where
  setup : w.setup = w₀.setup
  history : History t trainer w₀.layers w₀.convention w₀.scene
    (blocks.flatMap Block.deeds ++ (turnsOf rest ++ current).map .compute) w.scene
  globalStep : w.globalStep = w₀.globalStep + (stepsOf blocks ++ rest).length
  reductions : ∀ step ∈ stepsOf blocks ++ rest, step.IsReduction w₀.backend w₀.layers
  handed : ∀ block ∈ blocks, block.handed.length = w₀.layers.length
  pushed : pushed = blocks.length * w₀.layers.length
  dense : w₀.sync = .dense → ∀ block ∈ blocks, ∃ step, block = Step.alone step
  bulk : ∀ cycle, w₀.sync = .bulk cycle → Tally w₀.globalStep blocks rest w

namespace Ledger

variable {t : Transport σ α} {trainer : Trainer τ α} {w₀ w w' : Worker σ τ α} {blocks : List (Block α)}
  {rest : List (Step α)} {current : List (Turn α)} {pushed n : Nat}

theorem layers (h : Ledger t trainer w₀ blocks rest current pushed w) : w.layers = w₀.layers :=
  congrArg Setup.layers h.setup

theorem backend (h : Ledger t trainer w₀ blocks rest current pushed w) : w.backend = w₀.backend :=
  congrArg Setup.backend h.setup

theorem sync (h : Ledger t trainer w₀ blocks rest current pushed w) : w.sync = w₀.sync :=
  congrArg Setup.sync h.setup

theorem convention (h : Ledger t trainer w₀ blocks rest current pushed w) : w.convention = w₀.convention :=
  congrArg Setup.convention h.setup

/-- A computation changes the trainer only. -/
theorem compute (h : Ledger t trainer w₀ blocks rest current pushed w) {device shard : Nat}
    {gradients : List (Tensor α)} (hgives : Gives (train trainer device shard) w gradients w') :
    Ledger t trainer w₀ blocks rest (current ++ [⟨device, shard, gradients⟩]) pushed w' := by
  obtain ⟨s, hdeed, rfl⟩ := Gives.train t hgives
  rw [h.layers, h.convention] at hdeed
  refine ⟨h.setup, ?_, h.globalStep, h.reductions, h.handed, h.pushed, h.dense, fun cycle hcycle => ?_⟩
  · have hdeeds := h.history.snoc hdeed
    rwa [List.append_assoc, ← List.map_singleton (f := Deed.compute), ← List.map_append,
      List.append_assoc] at hdeeds
  · obtain ⟨hpending, hheld, hrunning, htaken⟩ := h.bulk cycle hcycle
    exact ⟨hpending, hheld, hrunning, htaken⟩

/-- A step that pushes at once is a block. -/
theorem step_dense (h : Ledger t trainer w₀ blocks [] current pushed w) (hsync : w₀.sync = .dense)
    (hchecked : ∀ turn ∈ current, turn.IsChecked w₀.layers)
    (hgives : Gives (step t (current.map (·.gradients))) w n w') :
    ∃ reduced, Ledger t trainer w₀ (blocks ++ [⟨[⟨current, reduced⟩], reduced⟩]) [] [] (pushed + n) w' := by
  obtain ⟨reduced, s, hreduction, hn, hdeeds, rfl⟩ := Gives.step_dense trainer
    (h.sync.trans hsync) (h.layers ▸ hchecked) hgives
  rw [h.backend, h.layers] at hreduction
  rw [h.layers, h.convention] at hdeeds
  refine ⟨reduced, h.setup, ?_, ?_, ?_, ?_, ?_, ?_, fun cycle hcycle => ?_⟩
  · have hall := h.history.append hdeeds
    simp only [turnsOf, List.flatMap_nil, List.nil_append, List.append_nil, List.map_nil, List.flatMap_append,
      List.flatMap_singleton, Block.deeds, List.append_assoc] at hall ⊢
    exact hall
  · show w.globalStep + 1 = _
    rw [h.globalStep, stepsOf_append, List.append_nil, List.append_nil, List.length_append, List.length_singleton,
      Nat.add_assoc]
  · rw [List.append_nil, stepsOf_append]
    exact List.forall_mem_append.2 ⟨List.append_nil (stepsOf blocks) ▸ h.reductions,
      List.forall_mem_singleton.2 hreduction⟩
  · exact List.forall_mem_append.2 ⟨h.handed, List.forall_mem_singleton.2 hreduction.length⟩
  · rw [h.pushed, hn, h.layers, List.length_append, List.length_singleton, Nat.succ_mul]
  · exact fun _ => List.forall_mem_append.2 ⟨h.dense hsync, List.forall_mem_singleton.2 ⟨_, rfl⟩⟩
  · rw [hsync] at hcycle
    cases hcycle

/-- A step that is summed up goes to the rest. -/
theorem add (h : Ledger t trainer w₀ blocks rest current pushed w) {reduced : List (Tensor α)}
    {acc : Accumulator α} (hstep : (⟨current, reduced⟩ : Step α).IsReduction w.backend w.layers)
    (hadds : w.accumulator.Adds w.layers reduced acc) :
    Ledger t trainer w₀ blocks (rest ++ [⟨current, reduced⟩]) [] pushed
      { w with globalStep := w.globalStep + 1, accumulator := acc, pending := w.pending + 1 } := by
  refine ⟨h.setup, ?_, ?_, ?_, h.handed, h.pushed, h.dense, fun cycle hcycle => ?_⟩
  · rw [turnsOf_append, turnsOf_singleton, List.append_nil]
    exact h.history
  · show w.globalStep + 1 = _
    simp only [h.globalStep, List.length_append, List.length_singleton, Nat.add_assoc]
  · rw [h.layers, h.backend] at hstep
    rw [← List.append_assoc]
    exact List.forall_mem_append.2 ⟨h.reductions, List.forall_mem_singleton.2 hstep⟩
  · exact (h.bulk cycle hcycle).add hstep hadds

/-- When the sums are taken, the rest is a block. -/
theorem take (h : Ledger t trainer w₀ blocks rest [] pushed w) (hrest : rest ≠ []) {cycle : Positive}
    (hsync : w₀.sync = .bulk cycle) (hgives : Gives (flush t) w n w') :
    ∃ handed, Ledger t trainer w₀ (blocks ++ [⟨rest, handed⟩]) [] [] (pushed + n) w' := by
  have htally := h.bulk cycle hsync
  have hpending : w.pending ≠ 0 := by
    rw [htally.pending]
    exact fun hlen => hrest (List.length_eq_zero_iff.1 hlen)
  obtain ⟨hn, handed, s, acc, htakes, hdeeds, rfl⟩ := Gives.flush_some trainer hpending
    (htally.held hrest) hgives
  rw [h.layers, h.convention] at hdeeds
  refine ⟨handed, h.setup, ?_, ?_, ?_, ?_, ?_, fun hdense => ?_, fun cycle hcycle => ?_⟩
  · have hall := h.history.append hdeeds
    simp only [turnsOf, List.flatMap_nil, List.append_nil, List.map_nil, List.flatMap_append,
      List.flatMap_singleton, Block.deeds, List.append_assoc] at hall ⊢
    exact hall
  · rw [stepsOf_append, List.append_nil]
    exact h.globalStep
  · rw [stepsOf_append, List.append_nil]
    exact h.reductions
  · exact List.forall_mem_append.2 ⟨h.handed, List.forall_mem_singleton.2 (h.layers ▸ htakes.length)⟩
  · rw [h.pushed, hn, h.layers, List.length_append, List.length_singleton, Nat.succ_mul]
  · rw [hsync] at hdense
    cases hdense
  · have hsteps : ∀ step ∈ rest, step.IsReduction w.backend w.layers := by
      rw [h.layers, h.backend]
      exact fun step hstep => h.reductions step (List.mem_append_right _ hstep)
    exact (h.bulk cycle hcycle).take hrest hsteps htakes

/-- A step goes to a block that is closed with it when a cycle is over, and to the rest otherwise. -/
theorem step (h : Ledger t trainer w₀ blocks rest current pushed w)
    (hcut : IsCut w₀.sync.cycle w₀.globalStep (blocks.map (·.steps)) rest)
    (hchecked : ∀ turn ∈ current, turn.IsChecked w₀.layers)
    (hgives : Gives (step t (current.map (·.gradients))) w n w') :
    ∃ reduced blocks' rest', stepsOf blocks' ++ rest' = stepsOf blocks ++ rest ++ [⟨current, reduced⟩] ∧
      Ledger t trainer w₀ blocks' rest' [] (pushed + n) w' ∧
      IsCut w₀.sync.cycle w₀.globalStep (blocks'.map (·.steps)) rest' := by
  have hnumber : w.globalStep + 1 =
      w₀.globalStep + ((blocks.map (·.steps)).flatten.length + rest.length + 1) := by
    rw [h.globalStep, List.length_append, stepsOf, Nat.add_assoc]
  rcases hsync : w₀.sync with _ | cycle
  · -- the rest is empty, as every step closes a block
    rw [hsync] at hcut
    obtain rfl : rest = [] := List.length_eq_zero_iff.1 (Nat.lt_one_iff.1 (hcut.length_rest_lt Nat.one_pos))
    obtain ⟨reduced, hledger⟩ := h.step_dense hsync hchecked hgives
    refine ⟨reduced, _, [], ?_, hledger, ?_⟩
    · rw [stepsOf_append, List.append_nil, List.append_nil]
    · rw [List.map_append, List.map_singleton]
      exact hcut.close Nat.one_pos (one_dvd _)
  · rw [hsync] at hcut
    obtain ⟨reduced, acc, summed, hreduction, hadds, rfl, hflush⟩ := Gives.step_bulk (h.sync.trans hsync)
      (h.layers ▸ hchecked) hgives
    have hadded := h.add hreduction hadds
    split at hflush
    · rename_i hdvd
      rw [hnumber] at hdvd
      have hrest : rest ++ [⟨current, reduced⟩] ≠ [] := List.append_ne_nil_of_right_ne_nil _ (List.cons_ne_nil _ _)
      obtain ⟨handed, hledger⟩ := hadded.take hrest hsync hflush
      refine ⟨reduced, _, [], ?_, hledger, ?_⟩
      · rw [stepsOf_append, List.append_nil, List.append_assoc]
      · rw [List.map_append, List.map_singleton]
        exact hcut.close cycle.property hdvd
    · rename_i hdvd
      rw [hnumber] at hdvd
      obtain ⟨rfl, rfl⟩ := hflush
      exact ⟨reduced, blocks, _, (List.append_assoc ..).symm, hadded, hcut.push hdvd⟩

/-- What is done when there are no more steps: the rest leaves the worker as well. -/
theorem finish (h : Ledger t trainer w₀ blocks rest [] pushed w)
    (hcut : IsCut w₀.sync.cycle w₀.globalStep (blocks.map (·.steps)) rest)
    (hgives : Gives (flushLast t w₀.sync) w n w') :
    ∃ blocks', stepsOf blocks' = stepsOf blocks ++ rest ∧ Ledger t trainer w₀ blocks' [] [] (pushed + n) w' ∧
      (∀ k, EndsAt (blocks'.map (·.steps)) k ↔ 0 < k ∧ k ≤ (stepsOf blocks').length ∧
        (w₀.sync.cycle ∣ w₀.globalStep + k ∨ k = (stepsOf blocks').length)) ∧
      ∀ block ∈ blocks', 0 < block.steps.length ∧ block.steps.length ≤ w₀.sync.cycle := by
  rcases eq_or_ne rest [] with rfl | hrest
  · have hnothing : n = 0 ∧ w' = w := by
      rcases hsync : w₀.sync with _ | cycle
      · rw [hsync] at hgives
        exact gives_pure.1 hgives
      · rw [hsync] at hgives
        exact Gives.flush_none (h.bulk cycle hsync).pending hgives
    obtain ⟨rfl, rfl⟩ := hnothing
    exact ⟨blocks, (List.append_nil _).symm, h, hcut.finish_nil, List.forall_mem_map.1 hcut.short⟩
  · obtain ⟨cycle, hsync⟩ : ∃ cycle, w₀.sync = .bulk cycle := by
      rcases hsync : w₀.sync with _ | cycle
      · have hlt := hcut.length_rest_lt w₀.sync.cycle_pos
        rw [hsync] at hlt
        exact absurd (List.length_eq_zero_iff.1 (Nat.lt_one_iff.1 hlt)) hrest
      · exact ⟨cycle, rfl⟩
    rw [hsync] at hgives
    obtain ⟨handed, hledger⟩ := h.take hrest hsync hgives
    obtain ⟨hends, hshort⟩ := hcut.finish w₀.sync.cycle_pos hrest
    have hblocks : (blocks ++ [(⟨rest, handed⟩ : Block α)]).map (·.steps) = blocks.map (·.steps) ++ [rest] :=
      List.map_append
    rw [← hblocks] at hends hshort
    exact ⟨_, stepsOf_append .., hledger, hends, List.forall_mem_map.1 hshort⟩

end Ledger

end Worker

end ParamExchange
