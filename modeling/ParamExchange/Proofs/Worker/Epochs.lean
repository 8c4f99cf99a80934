/-
Epochs of a worker that end well. A worker visits the shards that it owns in increasing order and deals
them out to its devices in turns; the gradients of all devices make a step, and no gradient is lost: the
steps of an epoch are cut into blocks, and what is handed over for a layer at the end of a block are the
gradients of the block. The induction is on the shards of the epoch, and then on the epochs before.
-/
import ParamExchange.Proofs.Worker.Blocks
import ParamExchange.Proofs.Worker.Shards

namespace ParamExchange

open Tensor (addAll?)

variable {σ τ α : Type}

/-! ## Dealing out -/

/-- The shards are dealt out to `devices` devices in turns. -/
structure Dealt (devices : Nat) (turns : List (Turn α)) (shards : List Nat) : Prop where
  shard : turns.map (·.shard) = shards
  device : turns.map (·.device) = (List.range shards.length).map (· % devices)

theorem Dealt.nil (devices : Nat) : Dealt devices ([] : List (Turn α)) [] := ⟨rfl, rfl⟩

theorem Dealt.length {devices : Nat} {turns : List (Turn α)} {shards : List Nat}
    (h : Dealt devices turns shards) : turns.length = shards.length := by
  rw [← h.shard, List.length_map]

theorem Dealt.snoc {devices : Nat} {turns : List (Turn α)} {shards : List Nat} {turn : Turn α}
    (h : Dealt devices turns shards) (hturn : turn.device = turns.length % devices) :
    Dealt devices (turns ++ [turn]) (shards ++ [turn.shard]) := by
  refine ⟨by rw [List.map_append, h.shard, List.map_singleton], ?_⟩
  rw [List.map_append, h.device, List.map_singleton, hturn, h.length, List.length_append, List.length_singleton,
    List.range_succ, List.map_append, List.map_singleton]

/-- Steps of a turn on every device, and less turns since. -/
structure IsEven (devices : Nat) (steps : List (Step α)) (current : List (Turn α)) : Prop where
  full : ∀ step ∈ steps, step.turns.length = devices
  short : current.length < devices

theorem length_turnsOf {devices : Nat} {steps : List (Step α)} (h : ∀ step ∈ steps, step.turns.length = devices) :
    (turnsOf steps).length = devices * steps.length := by
  induction steps with
  | nil => rfl
  | cons step steps ih =>
    obtain ⟨hstep, hsteps⟩ := List.forall_mem_cons.1 h
    have hrest := ih hsteps
    rw [turnsOf] at hrest ⊢
    rw [List.flatMap_cons, List.length_append, hstep, hrest, List.length_cons, Nat.mul_succ, Nat.add_comm]

theorem IsEven.length_mod {devices : Nat} {steps : List (Step α)} {current : List (Turn α)}
    (h : IsEven devices steps current) : (turnsOf steps ++ current).length % devices = current.length := by
  rw [List.length_append, length_turnsOf h.full, Nat.mul_add_mod, Nat.mod_eq_of_lt h.short]

/-- All steps but the last one have a turn on every device, and the last one has at least one turn. -/
structure IsDealtInSteps (devices : Nat) (steps : List (Step α)) : Prop where
  full : ∀ step ∈ steps.dropLast, step.turns.length = devices
  short : ∀ step ∈ steps, 0 < step.turns.length ∧ step.turns.length ≤ devices

theorem IsEven.finish {devices : Nat} {steps : List (Step α)} (h : IsEven devices steps []) :
    IsDealtInSteps devices steps ∧ steps.length = ((turnsOf steps).length + devices - 1) / devices := by
  have hpos : 0 < devices := h.short
  refine ⟨⟨fun step hstep => h.full step (List.mem_of_mem_dropLast hstep), fun step hstep => ?_⟩, ?_⟩
  · rw [h.full step hstep]
    exact ⟨hpos, le_refl _⟩
  · rw [length_turnsOf h.full, Nat.add_sub_assoc hpos, Nat.mul_add_div hpos,
      Nat.div_eq_of_lt (by omega), Nat.add_zero]

theorem IsEven.finish_with {devices : Nat} {steps : List (Step α)} (last : Step α)
    (h : IsEven devices steps last.turns) (hlast : last.turns ≠ []) :
    IsDealtInSteps devices (steps ++ [last]) ∧
      (steps ++ [last]).length = ((turnsOf (steps ++ [last])).length + devices - 1) / devices := by
  have hpos : 0 < last.turns.length := List.length_pos_of_ne_nil hlast
  have hshort := h.short
  refine ⟨⟨?_, fun step hstep => ?_⟩, ?_⟩
  · rw [List.dropLast_concat]
    exact h.full
  · rcases List.mem_append.1 hstep with hstep | hstep
    · rw [h.full step hstep]
      exact ⟨by omega, le_refl _⟩
    · rw [List.mem_singleton.1 hstep]
      exact ⟨hpos, le_of_lt hshort⟩
  · have hlen : (turnsOf (steps ++ [last])).length + devices - 1 =
        devices * steps.length + (devices + (last.turns.length - 1)) := by
      rw [turnsOf_append, turnsOf_singleton, List.length_append, length_turnsOf h.full]
      omega
    rw [hlen, Nat.mul_add_div (by omega), Nat.add_div_left _ (by omega), Nat.div_eq_of_lt (by omega),
      List.length_append, List.length_singleton]

namespace Worker

variable [Scalar α]

/-! ## Specification -/

/-- An epoch that ended well, from the worker `w` to `w'`. The shards are all that the worker owns, in
increasing order, each once; they are dealt out to the devices in turns, and every turn computes with the
copies that the last push before it left behind, as the deeds follow on each other. All devices make a
step, and what is left a last one; a step has the sum of the tree over its gradients for each layer. The
blocks are the steps of the epoch in order. If the worker pushes at once, each step is a block. If it sums
up, a block ends after every step whose number is a multiple of the cycle, counted from the first step of
the worker, and after the last step of the epoch, and what is handed over for a layer is the sum of the
gradients of the block, if layers have keys of their own. -/
structure IsEpoch (t : Transport σ α) (trainer : Trainer τ α) (w : Worker σ τ α) (total : Nat)
    (blocks : List (Block α)) (report : EpochReport) (w' : Worker σ τ α) : Prop where
  number : report.epoch = w.epoch
  increasing : report.shards.Pairwise (· < ·)
  owned : ∀ shard, shard ∈ report.shards ↔ shard < total ∧ w.identity.owns shard = true
  history : History t trainer w.layers w.convention w.scene (blocks.flatMap Block.deeds) w'.scene
  dealt : Dealt w.devices.val (turnsOf (stepsOf blocks)) report.shards
  inSteps : IsDealtInSteps w.devices.val (stepsOf blocks)
  reductions : ∀ step ∈ stepsOf blocks, step.IsReduction w.backend w.layers
  steps : report.steps = (stepsOf blocks).length
  count : report.steps = (report.shards.length + w.devices.val - 1) / w.devices.val
  handed : ∀ block ∈ blocks, block.handed.length = w.layers.length
  syncs : report.syncs = blocks.length * w.layers.length
  dense : w.sync = .dense →
    blocks = (stepsOf blocks).map Step.alone ∧ report.syncs = report.steps * w.layers.length
  bulk : ∀ cycle, w.sync = .bulk cycle →
    (∀ block ∈ blocks, 0 < block.steps.length ∧ block.steps.length ≤ cycle.val) ∧
    (∀ k, EndsAt (blocks.map (·.steps)) k ↔
      0 < k ∧ k ≤ report.steps ∧ (cycle.val ∣ w.globalStep + k ∨ k = report.steps)) ∧
    ((w.layers.map (·.key)).Nodup → ∀ (j : Nat) block, blocks[j]? = some block →
      ∀ (i : Nat) (layer : Layer), w.layers[i]? = some layer →
        block.handed[i]? = addAll? (sumStart (w.globalStep + j) layer.shape) (column i block.steps))
  globalStep : w'.globalStep = w.globalStep + report.steps

/-! ## Progress -/

/-- How far an epoch is: the ledger of its blocks, with the gradients at hand and the counts. -/
structure Underway (t : Transport σ α) (trainer : Trainer τ α) (w₀ : Worker σ τ α) (blocks : List (Block α))
    (rest : List (Step α)) (current : List (Turn α)) (shards : List Nat) (progress : Progress α)
    (w : Worker σ τ α) : Prop where
  ledger : Ledger t trainer w₀ blocks rest current progress.syncs w
  cut : IsCut w₀.sync.cycle w₀.globalStep (blocks.map (·.steps)) rest
  group : progress.group = current.map (·.gradients)
  visited : progress.shards = shards
  steps : progress.steps = (stepsOf blocks ++ rest).length
  checked : ∀ turn ∈ current, turn.IsChecked w₀.layers
  dealt : Dealt w₀.devices.val (turnsOf (stepsOf blocks ++ rest) ++ current) shards

/-- The sums of a worker between two epochs: nothing is pending. -/
def IsRested (w : Worker σ τ α) : Prop := ∀ cycle, w.sync = .bulk cycle → Tally w.globalStep [] [] w

/-- Some shards were visited, and a group is at hand that lacks a device. -/
def Visits (t : Transport σ α) (trainer : Trainer τ α) (w₀ : Worker σ τ α) (shards : List Nat)
    (progress : Progress α) (w : Worker σ τ α) : Prop :=
  ∃ blocks rest current, Underway t trainer w₀ blocks rest current shards progress w ∧
    IsEven w₀.devices.val (stepsOf blocks ++ rest) current

namespace Underway

variable {t : Transport σ α} {trainer : Trainer τ α} {w₀ w w' : Worker σ τ α} {blocks : List (Block α)}
  {rest : List (Step α)} {current : List (Turn α)} {shards : List Nat} {progress next : Progress α}

theorem start (h : w₀.IsRested) : Underway t trainer w₀ [] [] [] [] Progress.start w₀ where
  ledger := ⟨rfl, .nil, rfl, nofun, nofun, (Nat.zero_mul _).symm, fun _ => nofun, h⟩
  cut := .empty _ _
  group := rfl
  visited := rfl
  steps := rfl
  checked := nofun
  dealt := .nil _

theorem close (h : Underway t trainer w₀ blocks rest current shards progress w)
    (hgives : Gives (close t progress) w next w') :
    ∃ reduced blocks' rest', stepsOf blocks' ++ rest' = stepsOf blocks ++ rest ++ [⟨current, reduced⟩] ∧
      Underway t trainer w₀ blocks' rest' [] shards next w' := by
  obtain ⟨n, between, hstep, hpure⟩ := gives_bind.1 hgives
  obtain ⟨rfl, rfl⟩ := gives_pure.1 hpure
  rw [h.group] at hstep
  obtain ⟨reduced, blocks', rest', hsteps, hledger, hcut⟩ := h.ledger.step h.cut h.checked hstep
  refine ⟨reduced, blocks', rest', hsteps, hledger, hcut, rfl, h.visited, ?_, nofun, ?_⟩
  · rw [hsteps, List.length_append, List.length_singleton, h.steps]
  · rw [hsteps, turnsOf_append, turnsOf_singleton, List.append_nil]
    exact h.dealt

/-- What a visit leads to, before the group at hand makes a step. -/
theorem turn (h : Underway t trainer w₀ blocks rest current shards progress w)
    (heven : IsEven w₀.devices.val (stepsOf blocks ++ rest) current) {shard : Nat} {gradients : List (Tensor α)}
    (hgives : Gives (train trainer progress.group.length shard) w gradients w')
    (hcheck : w.checkGradients shard gradients = .ok ()) :
    Underway t trainer w₀ blocks rest (current ++ [⟨current.length, shard, gradients⟩]) (shards ++ [shard])
      ⟨progress.group ++ [gradients], progress.shards ++ [shard], progress.steps, progress.syncs⟩ w' := by
  rw [h.group, List.length_map] at hgives
  have hchecked := isChecked_of_checkGradients current.length hcheck
  rw [h.ledger.layers] at hchecked
  refine ⟨h.ledger.compute hgives, h.cut, ?_, ?_, h.steps, ?_, ?_⟩
  · rw [h.group, List.map_append, List.map_singleton]
  · rw [h.visited]
  · exact List.forall_mem_append.2 ⟨h.checked, List.forall_mem_singleton.2 hchecked⟩
  · rw [← List.append_assoc]
    exact h.dealt.snoc heven.length_mod.symm

theorem visit (h : Underway t trainer w₀ blocks rest current shards progress w)
    (heven : IsEven w₀.devices.val (stepsOf blocks ++ rest) current) {shard : Nat}
    (hgives : Gives (visit t trainer progress shard) w next w') :
    Visits t trainer w₀ (shards ++ [shard]) next w' := by
  rw [Worker.visit, gives_get_bind] at hgives
  obtain ⟨gradients, trained, htrain, hrest⟩ := gives_bind.1 hgives
  obtain ⟨_, same, hlift, hnext⟩ := gives_bind.1 hrest
  obtain ⟨hcheck, rfl⟩ := gives_liftExcept.1 hlift
  have hok : w.checkGradients shard gradients = .ok () := by
    rcases hresult : w.checkGradients shard gradients with e | _
    · rw [hresult] at hcheck
      cases hcheck
    · rfl
  have hturn := h.turn heven htrain hok
  have hgroup : progress.group ++ [gradients] = _ := hturn.group
  have hlen := heven.short
  have hdevices : w.devices = w₀.devices := congrArg Setup.devices h.ledger.setup
  rw [hdevices] at hnext
  dsimp only at hnext
  split at hnext
  · rename_i hfull
    rw [hgroup, List.length_map] at hfull
    obtain ⟨reduced, blocks', rest', hsteps, hclosed⟩ := hturn.close hnext
    refine ⟨blocks', rest', [], hclosed, ?_, w₀.devices.property⟩
    rw [hsteps]
    exact List.forall_mem_append.2 ⟨heven.full, List.forall_mem_singleton.2 hfull⟩
  · rename_i hfull
    rw [hgroup, List.length_map, List.length_append, List.length_singleton] at hfull
    obtain ⟨rfl, rfl⟩ := gives_pure.1 hnext
    refine ⟨blocks, rest, _, hturn, heven.full, ?_⟩
    rw [List.length_append, List.length_singleton]
    omega

/-- When there are no more shards, the group at hand makes a step, unless it is empty. -/
theorem close_last (h : Underway t trainer w₀ blocks rest current shards progress w)
    (heven : IsEven w₀.devices.val (stepsOf blocks ++ rest) current)
    (hgives : Gives (if progress.group.isEmpty then pure progress else Worker.close t progress) w next w') :
    ∃ blocks' rest', Underway t trainer w₀ blocks' rest' [] shards next w' ∧
      IsDealtInSteps w₀.devices.val (stepsOf blocks' ++ rest') ∧
      (stepsOf blocks' ++ rest').length =
        ((turnsOf (stepsOf blocks' ++ rest')).length + w₀.devices.val - 1) / w₀.devices.val := by
  rw [h.group, List.isEmpty_map] at hgives
  rcases eq_or_ne current [] with rfl | hcurrent
  · obtain ⟨rfl, rfl⟩ := gives_pure.1 hgives
    exact ⟨blocks, rest, h, heven.finish⟩
  · rw [if_neg (mt List.isEmpty_iff.1 hcurrent)] at hgives
    obtain ⟨reduced, blocks', rest', hsteps, hclosed⟩ := h.close hgives
    refine ⟨blocks', rest', hclosed, ?_⟩
    rw [hsteps]
    exact heven.finish_with ⟨current, reduced⟩ hcurrent

end Underway

/-! ## Whole epochs -/

variable {t : Transport σ α} {trainer : Trainer τ α} {w w' : Worker σ τ α} {total : Nat} {report : EpochReport}

/-- An epoch is its visits, the last step, what is done with the sums, and the count. -/
theorem runEpoch_eq (t : Transport σ α) (trainer : Trainer τ α) (total : Nat) :
    (runEpoch t trainer total : Work σ τ α EpochReport) = get >>= fun w =>
      liftExcept (checkDevices w.devices) >>= fun _ =>
      (w.identity.owned total).foldlM (visit t trainer) Progress.start >>= fun visited =>
      (if visited.group.isEmpty then pure visited else close t visited) >>= fun progress =>
      flushLast t w.sync >>= fun last =>
      modify (fun w => { w with epoch := w.epoch + 1 }) >>= fun _ =>
      pure ⟨w.epoch, progress.shards, progress.steps, progress.syncs + last⟩ := by
  unfold runEpoch
  refine bind_congr fun w => bind_congr fun _ => bind_congr fun visited => ?_
  cases visited.group.isEmpty <;> cases w.sync <;> rfl

theorem gives_runEpoch (h : Gives (runEpoch t trainer total) w report w') :
    ∃ visited progress w₁ w₂ w₃ n,
      Gives ((w.identity.owned total).foldlM (visit t trainer) Progress.start) w visited w₁ ∧
      Gives (if visited.group.isEmpty then pure visited else close t visited) w₁ progress w₂ ∧
      Gives (flushLast t w.sync) w₂ n w₃ ∧
      report = ⟨w.epoch, progress.shards, progress.steps, progress.syncs + n⟩ ∧
      w' = { w₃ with epoch := w₃.epoch + 1 } := by
  rw [runEpoch_eq, gives_get_bind] at h
  obtain ⟨_, same, hroom, h⟩ := gives_bind.1 h
  obtain ⟨-, hsame⟩ := gives_liftExcept.1 hroom
  subst same
  obtain ⟨visited, w₁, hvisits, h⟩ := gives_bind.1 h
  obtain ⟨progress, w₂, hclose, h⟩ := gives_bind.1 h
  obtain ⟨n, w₃, hflush, h⟩ := gives_bind.1 h
  obtain ⟨_, w₄, hcount, h⟩ := gives_bind.1 h
  obtain rfl := gives_modify.1 hcount
  obtain ⟨rfl, rfl⟩ := gives_pure.1 h
  exact ⟨visited, progress, w₁, w₂, w₃, n, hvisits, hclose, hflush, rfl, rfl⟩

/-- Between two epochs all sums were handed over. -/
theorem Tally.rest {earlier : Nat} {blocks : List (Block α)} (h : Tally earlier blocks [] w)
    (hblocks : ∀ block ∈ blocks, 0 < block.steps.length) (epoch : Nat) :
    Tally (earlier + (stepsOf blocks).length) [] [] { w with epoch := epoch } := by
  refine ⟨h.pending, fun hne => absurd rfl hne, fun hdistinct i layer hlayer => ?_, fun _ => nofun⟩
  have hstart : sumStart (earlier + blocks.length) layer.shape =
      sumStart (α := α) (earlier + (stepsOf blocks).length + 0) layer.shape := by
    rcases blocks with _ | ⟨block, blocks⟩
    · rfl
    · have hpos := hblocks block (List.mem_cons_self ..)
      rw [stepsOf, List.map_cons, List.flatten_cons, List.length_append, List.length_cons, sumStart, sumStart,
        if_neg (by omega), if_neg (by omega)]
  rw [List.length_nil, ← hstart]
  exact h.running hdistinct i layer hlayer

/-- An epoch ends well when all shards were visited, the steps are made, and the sums are handed over. -/
theorem Underway.isEpoch {w₀ : Worker σ τ α} {blocks : List (Block α)} {rest : List (Step α)}
    {progress : Progress α} {n : Nat}
    (h : Underway t trainer w₀ blocks rest [] (w₀.identity.owned total) progress w)
    (hsteps : IsDealtInSteps w₀.devices.val (stepsOf blocks ++ rest))
    (hlength : (stepsOf blocks ++ rest).length =
      ((turnsOf (stepsOf blocks ++ rest)).length + w₀.devices.val - 1) / w₀.devices.val)
    (hflush : Gives (flushLast t w₀.sync) w n w') :
    ∃ all, IsEpoch t trainer w₀ total all ⟨w₀.epoch, progress.shards, progress.steps, progress.syncs + n⟩
        { w' with epoch := w'.epoch + 1 } ∧
      IsRested { w' with epoch := w'.epoch + 1 } ∧
      w'.setup = w₀.setup := by
  obtain ⟨all, hall, hledger, hends, hshort⟩ := h.ledger.finish h.cut hflush
  rw [← hall] at hsteps hlength
  have hmade : progress.steps = (stepsOf all).length := by rw [h.steps, hall]
  have hdealt : Dealt w₀.devices.val (turnsOf (stepsOf all)) progress.shards := by
    rw [hall, h.visited, ← List.append_nil (turnsOf _)]
    exact h.dealt
  have hnumber : w'.globalStep = w₀.globalStep + progress.steps := by
    rw [hledger.globalStep, List.append_nil, hmade]
  refine ⟨all, ⟨rfl, ?_, ?_, ?_, hdealt, hsteps, ?_, hmade, ?_, hledger.handed, hledger.pushed, fun hsync => ?_,
    fun cycle hsync => ⟨?_, ?_, ?_⟩, hnumber⟩, fun cycle hsync => ?_, hledger.setup⟩
  · rw [h.visited]
    exact Identity.pairwise_owned _ _
  · intro shard
    rw [h.visited]
    exact Identity.mem_owned
  · have hdeeds := hledger.history
    rwa [turnsOf, List.flatMap_nil, List.append_nil, List.map_nil, List.append_nil] at hdeeds
  · exact List.append_nil (stepsOf all) ▸ hledger.reductions
  · rw [hmade, hlength, hdealt.length]
  · have halone := eq_map_alone (hledger.dense hsync)
    have hblocks : all.length = (stepsOf all).length := (congrArg List.length halone).trans (List.length_map _)
    exact ⟨halone, by rw [hledger.pushed, hblocks, hmade]⟩
  · rw [hsync] at hshort
    exact hshort
  · rw [hsync] at hends
    rw [hmade]
    exact hends
  · rw [← hledger.layers]
    exact (hledger.bulk cycle hsync).taken
  · have htally := hledger.bulk cycle (hledger.sync.symm.trans hsync)
    have hrest := htally.rest (fun block hblock => (hshort block hblock).1) (w'.epoch + 1)
    rwa [← hmade, ← hnumber] at hrest

/-- An epoch of a rested worker is as specified, and leaves the worker rested. -/
theorem Gives.runEpoch (hrested : w.IsRested) (h : Gives (runEpoch t trainer total) w report w') :
    ∃ blocks, IsEpoch t trainer w total blocks report w' ∧ w'.IsRested ∧
      w'.setup = { w.setup with epoch := w.epoch + 1 } := by
  obtain ⟨visited, progress, w₁, w₂, w₃, n, hvisits, hclose, hflush, rfl, rfl⟩ := gives_runEpoch h
  have hstart : Visits t trainer w [] Progress.start w :=
    ⟨[], [], [], .start hrested, nofun, w.devices.property⟩
  have hvisited : Visits t trainer w (w.identity.owned total) visited w₁ := by
    refine Gives.foldlM (P := Visits t trainer w) ?_ hstart hvisits
    rintro shards progress w shard next w' ⟨blocks, rest, current, hunderway, heven⟩ hvisit
    exact hunderway.visit heven hvisit
  obtain ⟨_, _, _, hunderway, heven⟩ := hvisited
  obtain ⟨blocks, rest, hclosed, hsteps, hlength⟩ := hunderway.close_last heven hclose
  obtain ⟨all, hepoch, hrest, hsetup⟩ := hclosed.isEpoch hsteps hlength hflush
  refine ⟨all, hepoch, hrest, ?_⟩
  show { w₃.setup with epoch := w₃.setup.epoch + 1 } = { w.setup with epoch := w.setup.epoch + 1 }
  rw [hsetup]

/-! ## All epochs -/

/-- The epochs of a rested worker leave it rested, and their steps are counted. -/
theorem Gives.epochs {totals : List Nat} {reports : List EpochReport} (hrested : w.IsRested)
    (h : Gives (totals.mapM (Worker.runEpoch t trainer)) w reports w') :
    w'.IsRested ∧ w'.setup = { w.setup with epoch := w.epoch + totals.length } ∧
      w'.globalStep = w.globalStep + (reports.map (·.steps)).sum := by
  induction totals generalizing w reports with
  | nil =>
    obtain ⟨rfl, rfl⟩ := gives_pure.1 h
    exact ⟨hrested, rfl, rfl⟩
  | cons total totals ih =>
    obtain ⟨report, rest, between, rfl, hepoch, hepochs⟩ := gives_mapM_cons.1 h
    obtain ⟨_, hisEpoch, hbetween, hsetup⟩ := Gives.runEpoch hrested hepoch
    obtain ⟨hlast, hlastSetup, hlastStep⟩ := ih hbetween hepochs
    have hnumber : between.epoch = w.epoch + 1 := congrArg Setup.epoch hsetup
    refine ⟨hlast, ?_, ?_⟩
    · rw [hlastSetup, hsetup, hnumber, List.length_cons, Nat.add_assoc, Nat.add_comm 1]
    · rw [hlastStep, hisEpoch.globalStep, List.map_cons, List.sum_cons, Nat.add_assoc]

theorem Gives.pullAll {layers : List Layer} {params : List (Tensor α)}
    (h : Gives (layers.mapM fun layer => exchange (Client.pull t layer.key layer.shape)) w params w') :
    ∃ client, w' = { w with client := client } := by
  induction layers generalizing w params with
  | nil =>
    obtain ⟨-, rfl⟩ := gives_pure.1 h
    exact ⟨_, rfl⟩
  | cons layer layers ih =>
    obtain ⟨_, _, between, -, hpull, hrest⟩ := gives_mapM_cons.1 h
    obtain ⟨client, -, rfl⟩ := gives_exchange.1 hpull
    obtain ⟨last, rfl⟩ := ih hrest
    exact ⟨last, rfl⟩

/-- The local copies are all that a worker has after it was initialized. -/
theorem Gives.init {u : Unit} (h : Gives (init t) w u w') : ∃ s, w' = w.withScene s := by
  rw [Worker.init, gives_get_bind] at h
  obtain ⟨params, between, hpulls, hmodify⟩ := gives_bind.1 h
  obtain ⟨client, rfl⟩ := Gives.pullAll hpulls
  obtain rfl := gives_modify.1 hmodify
  exact ⟨⟨params, client, w.trainer⟩, rfl⟩

/-- No gradient is lost. After a worker was initialized and some epochs ended well, an epoch that ends well
is one of the specification, and the steps before it are those of the epochs before. -/
theorem runEpoch_conserves {identity : Identity} {layers : List Layer} {devices : Positive} {backend : Backend}
    {sync : SyncMode} {convention : Convention α} {link : σ} {state : τ} {ready : Worker σ τ α}
    {before : List Nat} {reports : List EpochReport}
    (hinit : Gives (init t) (start identity layers devices backend sync convention link state) () ready)
    (hbefore : Gives (before.mapM (runEpoch t trainer)) ready reports w)
    (hepoch : Gives (runEpoch t trainer total) w report w') :
    w.setup = ⟨identity, layers, devices, backend, sync, convention, before.length⟩ ∧
      w.globalStep = (reports.map (·.steps)).sum ∧
      ∃ blocks, IsEpoch t trainer w total blocks report w' := by
  obtain ⟨s, rfl⟩ := Gives.init hinit
  have hready : ((start identity layers devices backend sync convention link state).withScene s).IsRested :=
    fun _ _ => ⟨rfl, fun hne => absurd rfl hne, fun _ _ _ _ => .inl ⟨rfl, rfl⟩, fun _ => nofun⟩
  obtain ⟨hrested, hsetup, hsteps⟩ := Gives.epochs hready hbefore
  obtain ⟨blocks, hisEpoch, -, -⟩ := Gives.runEpoch hrested hepoch
  refine ⟨hsetup.trans ?_, hsteps.trans (Nat.zero_add _), blocks, hisEpoch⟩
  show (⟨identity, layers, devices, backend, sync, convention, 0 + before.length⟩ : Setup α) = _
  rw [Nat.zero_add]

/-- A worker with two devices that sums up two steps. -/
def summing : Worker (Store Rat) Unit Rat :=
  start ⟨"worker-0", 0, 1, by decide⟩ [⟨.ofRole .weight 0, [1]⟩, ⟨.ofRole .bias 0, [1]⟩] ⟨2, by decide⟩ .cpu
    (.bulk ⟨2, by decide⟩) (.direct (some (1 / 4))) (Store.empty ⟨fun _ n => List.replicate n 1, .additive, 0⟩) ()

/-- The worker after its initialization. -/
def summingReady : Worker (Store Rat) Unit Rat := (outcome (init .ofStore) summing).2

/-- The worker after an epoch of two steps. -/
def summingOnce : Worker (Store Rat) Unit Rat :=
  (outcome (([3] : List Nat).mapM (runEpoch .ofStore .squares)) summingReady).2

/-- Five shards make three steps, the second of which is the fourth of the worker: two blocks. -/
theorem runEpoch_conserves_five :
    Gives (init .ofStore) summing () summingReady ∧
    Gives (([3] : List Nat).mapM (runEpoch .ofStore .squares)) summingReady [⟨0, [0, 1, 2], 2, 2⟩] summingOnce ∧
    Gives (runEpoch .ofStore .squares 5) summingOnce ⟨1, [0, 1, 2, 3, 4], 3, 4⟩
      (outcome (runEpoch .ofStore .squares 5) summingOnce).2 ∧
    ∃ blocks, IsEpoch .ofStore .squares summingOnce 5 blocks ⟨1, [0, 1, 2, 3, 4], 3, 4⟩
      (outcome (runEpoch .ofStore .squares 5) summingOnce).2 := by
  have hinit : Gives (init .ofStore) summing () summingReady := gives_of_ok (by decide +kernel)
  have hbefore : Gives (([3] : List Nat).mapM (runEpoch .ofStore .squares)) summingReady
      [⟨0, [0, 1, 2], 2, 2⟩] summingOnce := gives_of_ok (by decide +kernel)
  have hepoch : Gives (runEpoch .ofStore .squares 5) summingOnce ⟨1, [0, 1, 2, 3, 4], 3, 4⟩
      (outcome (runEpoch .ofStore .squares 5) summingOnce).2 := gives_of_ok (by decide +kernel)
  exact ⟨hinit, hbefore, hepoch, (runEpoch_conserves hinit hbefore hepoch).2.2⟩

end Worker

end ParamExchange
