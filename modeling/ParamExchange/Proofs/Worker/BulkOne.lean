/-
Summing up one step is pushing at once. A worker that sums up its gradients and hands the sums over after
every step does what a worker does that pushes its gradients: each sum starts from zeros, so it has the
elements of the gradient, and after the step nothing is pending. The two workers go in lockstep through
every step, every epoch and every task, whatever the transport and the trainer do, until one of them stops,
and then the other one stops for the same reason. Of addition this needs that zero on the left changes
nothing.
-/
import ParamExchange.Proofs.Worker.Alike
import ParamExchange.Proofs.Worker.Epochs

namespace ParamExchange

variable {σ τ α : Type} [Scalar α]

/-! ## Sums of one gradient -/

/-- Zeros with a gradient added to them have the elements of the gradient. -/
theorem Tensor.same_zeros_add (hzero : ∀ x : α, 0 + x = x) {shape : List Nat} {gradient sum : Tensor α}
    (h : (zeros shape).add? gradient = some sum) : Same gradient sum := by
  obtain ⟨hshape, hsum, -, -⟩ := of_zip? h
  refine ⟨hshape.trans hsum.symm, ?_⟩
  have hlen : gradient.elements.length = Shape.size shape := gradient.length_elements.trans (congrArg Shape.size hshape)
  rw [elements_zip? h]
  apply List.ext_getElem
  · simp [zeros, hlen]
  · simp [zeros, hzero]

theorem Tensor.same_more (hzero : ∀ x : α, 0 + x = x) {shape : List Nat} {held : Option (Tensor α)}
    {gradient sum : Tensor α} (hheld : ∀ s, held = some s → s = zeros shape) (h : more? held gradient = some sum) :
    Same gradient sum := by
  cases held with
  | none =>
    cases h
    exact .refl gradient
  | some s =>
    rw [hheld s rfl] at h
    exact same_zeros_add hzero h

/-- What was summed up over one step has the elements of the gradients. -/
theorem Accumulator.Adds.same (hzero : ∀ x : α, 0 + x = x) {layers : List Layer}
    {gradients : List (Tensor α)} {acc after : Accumulator α} (h : acc.Adds layers gradients after)
    (hkeys : (layers.map (·.key)).Nodup)
    (hzeros : ∀ layer ∈ layers, ∀ sum, acc.sum? layer.key = some sum → sum = Tensor.zeros layer.shape) :
    ∀ p ∈ layers.zip gradients, ∃ sum, after.sum? p.1.key = some sum ∧ Tensor.Same p.2 sum := by
  intro p hp
  obtain ⟨i, hi⟩ := List.mem_iff_getElem?.1 hp
  obtain ⟨hlayer, hgradient⟩ := List.getElem?_zip_eq_some.1 hi
  obtain ⟨sum, hmore, hafter⟩ := h.sums hkeys i p.1 p.2 hlayer hgradient
  exact ⟨sum, hafter, Tensor.same_more hzero (hzeros p.1 (List.mem_of_getElem? hlayer)) hmore⟩

namespace Worker

variable {t : Transport σ α} {trainer : Trainer τ α} {layers : List Layer} {d b w : Worker σ τ α}
  {gradients : List (Tensor α)}

/-- No layer has another sum than zeros of its shape. -/
def HasZeros (layers : List Layer) (w : Worker σ τ α) : Prop :=
  ∀ layer ∈ layers, ∀ sum, w.accumulator.sum? layer.key = some sum → sum = Tensor.zeros layer.shape

/-- Gradients that fit are added to sums of zeros. -/
theorem gives_accumulateAll (hkeys : (layers.map (·.key)).Nodup) (hzeros : w.HasZeros layers)
    (hfit : ∀ p ∈ layers.zip gradients, p.2.shape = p.1.shape) :
    ∃ after, Gives ((layers.zip gradients).forM fun p => accumulateLayer p.1 p.2) w () after := by
  induction layers generalizing gradients w with
  | nil => exact ⟨w, rfl⟩
  | cons layer layers ih =>
    rcases gradients with _ | ⟨gradient, gradients⟩
    · exact ⟨w, rfl⟩
    rw [List.map_cons, List.nodup_cons] at hkeys
    rw [List.zip_cons_cons] at hfit
    obtain ⟨hshape, hfit⟩ := List.forall_mem_cons.1 hfit
    obtain ⟨sum, hsum⟩ : ∃ sum,
        w.accumulator.accumulate layer.key gradient = .ok (w.accumulator.put layer.key sum) := by
      unfold Accumulator.accumulate
      rcases hheld : w.accumulator.sum? layer.key with _ | sum
      · exact ⟨_, rfl⟩
      · obtain rfl := hzeros layer (List.mem_cons_self ..) sum hheld
        obtain ⟨s, hs⟩ := Tensor.exists_zip? (fun x y => x + y) (t := Tensor.zeros layer.shape) hshape
        have hadd : (Tensor.zeros layer.shape).add? gradient = some s := hs
        exact ⟨s, by simp only [hadd]⟩
    have hfirst : Gives (accumulateLayer layer gradient) w ()
        { w with accumulator := w.accumulator.put layer.key sum } := outcome_accumulateLayer_ok hsum
    have hrest : ({ w with accumulator := w.accumulator.put layer.key sum } : Worker σ τ α).HasZeros layers := by
      intro other hother held hheld
      have hne : other.key ≠ layer.key := fun heq => hkeys.1 (heq ▸ List.mem_map_of_mem hother)
      rw [Accumulator.sum?_put, if_neg hne] at hheld
      exact hzeros other (List.mem_cons_of_mem _ hother) held hheld
    obtain ⟨after, hafter⟩ := ih hkeys.2 hrest hfit
    exact ⟨after, gives_bind.2 ⟨(), _, hfirst, hafter⟩⟩

/-! ## Layers -/

/-- A gradient and a sum with the same elements are handed over alike. -/
theorem alike_syncLayer (i : Nat) {gradient sum : Tensor α} (hsame : Tensor.Same gradient sum)
    (hview : d.view = b.view) :
    Alike (fun _ _ d' b' => d'.view = b'.view) (outcome (syncLayer t i gradient) d)
      (outcome (syncLayer t i sum) b) := by
  have hlayers : d.layers = b.layers := congrArg View.layers hview
  have hparams : d.params = b.params := congrArg View.params hview
  have hconvention : d.convention = b.convention := congrArg View.convention hview
  rw [syncLayer, syncLayer, outcome_get_bind, outcome_get_bind, hlayers, hparams]
  rcases b.layers[i]? with _ | layer
  · exact .error hview
  rcases b.params[i]? with _ | weight
  · exact .error hview
  refine (alike_exchange hview ?_).bind ?_
  · rw [hconvention]
    exact Convention.sync_matches b.convention layer.key hsame weight (congrArg View.link hview)
  · rintro value _ d' b' ⟨rfl, hview'⟩
    refine .ok ?_
    show { d'.view with params := d'.view.params.set i value } = { b'.view with params := b'.view.params.set i value }
    rw [hview']

/-- The sums of all layers are handed over as gradients with the same elements are. -/
theorem alike_flushLayers (trainer : Trainer τ α) (i : Nat) (hkeys : (layers.map (·.key)).Nodup)
    (hlen : gradients.length = layers.length) (hview : d.view = b.view)
    (hsums : ∀ p ∈ layers.zip gradients, ∃ sum, b.accumulator.sum? p.1.key = some sum ∧ Tensor.Same p.2 sum) :
    Alike (fun _ n d' b' => n = layers.length ∧ d'.view = b'.view)
      (outcome (syncAll t i gradients) d) (outcome (flushLayers t i layers) b) := by
  induction layers generalizing gradients i d b with
  | nil =>
    obtain rfl := List.length_eq_zero_iff.1 hlen
    exact .ok ⟨rfl, hview⟩
  | cons layer layers ih =>
    obtain ⟨gradient, gradients, rfl⟩ := List.exists_cons_of_length_eq_add_one hlen
    rw [List.map_cons, List.nodup_cons] at hkeys
    rw [List.zip_cons_cons] at hsums
    obtain ⟨⟨sum, hheld, hsame⟩, hsums⟩ := List.forall_mem_cons.1 hsums
    have htake : outcome (takeSum layer.key : Work σ τ α _) b = (.ok (some sum),
        { b with accumulator := b.accumulator.put layer.key (Tensor.zeros sum.shape) }) := by
      show (Except.ok (b.accumulator.flush layer.key).1,
        ({ b with accumulator := (b.accumulator.flush layer.key).2 } : Worker σ τ α)) = _
      rw [Accumulator.flush_some hheld]
    -- the sums of the other layers are still there
    have hothers : ∀ p ∈ layers.zip gradients, ∃ held,
        (b.accumulator.put layer.key (Tensor.zeros sum.shape)).sum? p.1.key = some held ∧ Tensor.Same p.2 held := by
      intro p hp
      have hne : p.1.key ≠ layer.key := fun heq => hkeys.1 (heq ▸ List.mem_map_of_mem (List.of_mem_zip hp).1)
      rw [Accumulator.sum?_put, if_neg hne]
      exact hsums p hp
    rw [syncAll, flushLayers, outcome_bind (takeSum layer.key), htake]
    have hsync := (alike_syncLayer (t := t) (d := d)
      (b := { b with accumulator := b.accumulator.put layer.key (Tensor.zeros sum.shape) }) i hsame hview).imp
        fun _ _ d' b' hview' _ hgives => And.intro hview' hgives
    refine hsync.bind ?_
    rintro _ _ d' b' ⟨hview', hgives⟩
    obtain ⟨s, -, rfl⟩ := Gives.syncLayer trainer hgives
    rw [← bind_pure (syncAll t (i + 1) gradients)]
    refine (ih (i + 1) hkeys.2 (Nat.succ.inj hlen) hview' hothers).bind ?_
    rintro _ n d'' b'' ⟨rfl, hview''⟩
    exact .ok ⟨rfl, hview''⟩

/-! ## Steps -/

/-- A worker that pushes at once, and one that sums up one step, between two steps. -/
structure Lockstep (layers : List Layer) (d b : Worker σ τ α) : Prop where
  view : d.view = b.view
  same : d.layers = layers
  dense : d.sync = .dense
  bulk : b.sync = .bulk ⟨1, Nat.one_pos⟩
  pending : b.pending = 0
  zeros : b.HasZeros layers

theorem Lockstep.same' (h : Lockstep layers d b) : b.layers = layers := (congrArg View.layers h.view).symm.trans h.same

/-- A step of gradients that were checked keeps the workers in lockstep. -/
theorem Lockstep.step (hzero : ∀ x : α, 0 + x = x) (hkeys : (layers.map (·.key)).Nodup) (h : Lockstep layers d b)
    (trainer : Trainer τ α) {turns : List (Turn α)} (hchecked : ∀ turn ∈ turns, turn.IsChecked layers) :
    Alike (fun n m d' b' => n = m ∧ Lockstep layers d' b') (outcome (step t (turns.map (·.gradients))) d)
      (outcome (step t (turns.map (·.gradients))) b) := by
  obtain rfl := h.same'
  have hbackend : d.backend = b.backend := congrArg View.backend h.view
  have hdivides : Positive.divides ⟨1, Nat.one_pos⟩ (b.globalStep + 1) = true := Positive.divides_iff.2 (one_dvd _)
  rw [Worker.step, outcome_get_bind, outcome_get_bind, h.same, hbackend, h.dense, h.bulk]
  refine Alike.liftExcept_bind h.view fun reduced hreduced => ?_
  have hreduction := isReduction_of_mapM hchecked hreduced
  have hfit : ∀ p ∈ b.layers.zip reduced, p.2.shape = p.1.shape := by
    intro p hp
    obtain ⟨i, hi⟩ := List.mem_iff_getElem?.1 hp
    obtain ⟨hlayer, hgradient⟩ := List.getElem?_zip_eq_some.1 hi
    exact hreduction.shape i p.1 p.2 hlayer hgradient
  -- the worker that sums up takes the gradients in
  obtain ⟨after, haccumulate⟩ := gives_accumulateAll (w := { b with globalStep := b.globalStep + 1 }) hkeys h.zeros hfit
  obtain ⟨acc, hadds, rfl⟩ := Gives.accumulateAll hreduction.length haccumulate
  have hsums := hadds.same hzero hkeys h.zeros
  rw [outcome_modify_bind, outcome_modify_bind, haccumulate.outcome_bind, outcome_modify_bind, if_pos hdivides, flush,
    outcome_get_bind, if_neg (Nat.succ_ne_zero _)]
  -- and hands the sums over at once
  have hview : ({ d with globalStep := d.globalStep + 1 } : Worker σ τ α).view =
      ({ b with globalStep := b.globalStep + 1, accumulator := acc, pending := b.pending + 1 } :
        Worker σ τ α).view := by
    show { d.view with globalStep := d.view.globalStep + 1 } = { b.view with globalStep := b.view.globalStep + 1 }
    rw [h.view]
  refine ((alike_flushLayers (t := t) trainer 0 hkeys hreduction.length hview hsums).imp
    fun _ n d' b' hends hd hb => And.intro hends (And.intro hd hb)).bind ?_
  rintro _ n d' b' ⟨⟨rfl, hview'⟩, hd, hb⟩
  obtain ⟨s, -, rfl⟩ := Gives.syncAll trainer hd
  obtain ⟨-, handed, s', final, htakes, -, rfl⟩ := Gives.flushLayers trainer hadds.held hb
  refine .ok ⟨hreduction.length, hview', h.same, h.dense, h.bulk, rfl, ?_⟩
  intro layer hlayer sum hsum
  obtain ⟨i, hi⟩ := List.mem_iff_getElem?.1 hlayer
  obtain ⟨taken, htaken, -, hzeros⟩ := htakes.sums hkeys i layer hi
  obtain ⟨gradient, hgradient⟩ := hreduction.exists_gradient hi
  obtain ⟨added, hadded, hsame⟩ := hsums (layer, gradient)
    (List.mem_of_getElem? (List.getElem?_zip_eq_some.2 ⟨hi, hgradient⟩))
  have hshape : taken.shape = layer.shape := by
    rw [Option.some.inj (htaken.symm.trans hadded), ← hsame.shape]
    exact hreduction.shape i layer gradient hi hgradient
  rw [Option.some.inj (hsum.symm.trans hzeros), hshape]

/-! ## Epochs -/

/-- The gradients of a step at hand were checked. -/
def Progress.IsChecked (layers : List Layer) (progress : Progress α) : Prop :=
  ∃ turns : List (Turn α), progress.group = turns.map (·.gradients) ∧ ∀ turn ∈ turns, turn.IsChecked layers

omit [Scalar α] in
/-- A turn whose gradients are not refused is added to those that were checked. -/
theorem Progress.IsChecked.visited {progress : Progress α} (h : progress.IsChecked layers) (hlayers : w.layers = layers)
    {shard : Nat} {u : Unit} (hcheck : (w.checkGradients shard gradients).mapError Stop.error = .ok u)
    (shards : List Nat) (steps syncs : Nat) :
    Progress.IsChecked layers ⟨progress.group ++ [gradients], shards, steps, syncs⟩ := by
  have hok : w.checkGradients shard gradients = .ok () := by
    rcases hresult : w.checkGradients shard gradients with e | _
    · rw [hresult] at hcheck
      cases hcheck
    · rfl
  obtain ⟨turns, hgroup, hchecked⟩ := h
  have hturn := isChecked_of_checkGradients progress.group.length hok
  rw [hlayers] at hturn
  refine ⟨turns ++ [⟨progress.group.length, shard, gradients⟩], by simp [hgroup], ?_⟩
  exact List.forall_mem_append.2 ⟨hchecked, List.forall_mem_singleton.2 hturn⟩

omit [Scalar α] in
theorem checkGradients_congr (h : d.layers = b.layers) (shard : Nat) (gradients : List (Tensor α)) :
    d.checkGradients shard gradients = b.checkGradients shard gradients := by
  unfold checkGradients
  rw [h]

theorem Lockstep.close (hzero : ∀ x : α, 0 + x = x) (hkeys : (layers.map (·.key)).Nodup) (h : Lockstep layers d b)
    (trainer : Trainer τ α) {progress : Progress α} (hprogress : progress.IsChecked layers) :
    Alike (fun p q d' b' => p = q ∧ p.IsChecked layers ∧ Lockstep layers d' b') (outcome (close t progress) d)
      (outcome (close t progress) b) := by
  obtain ⟨turns, hgroup, hchecked⟩ := hprogress
  unfold Worker.close
  rw [hgroup]
  refine (h.step hzero hkeys trainer hchecked).bind ?_
  rintro n _ d' b' ⟨rfl, h'⟩
  exact .ok ⟨rfl, ⟨[], rfl, nofun⟩, h'⟩

theorem Lockstep.train (h : Lockstep layers d b) (trainer : Trainer τ α) (device shard : Nat) :
    Alike (fun x y d' b' => x = y ∧ Lockstep layers d' b') (outcome (train trainer device shard) d)
      (outcome (train trainer device shard) b) := by
  have hsame : trainer.gradients device shard d.params d.trainer =
      trainer.gradients device shard b.params b.trainer := by
    rw [show d.params = b.params from congrArg View.params h.view,
      show d.trainer = b.trainer from congrArg View.trainer h.view]
  have hrun : ∀ w : Worker σ τ α, outcome (Worker.train trainer device shard) w =
      ((trainer.gradients device shard w.params w.trainer).1.mapError .error,
        { w with trainer := (trainer.gradients device shard w.params w.trainer).2 }) := fun _ => rfl
  rw [hrun, hrun, hsame]
  have hview : ({ d with trainer := (trainer.gradients device shard b.params b.trainer).2 } : Worker σ τ α).view =
      ({ b with trainer := (trainer.gradients device shard b.params b.trainer).2 } : Worker σ τ α).view := by
    exact congrArg
      (fun v : View σ τ α => { v with trainer := (trainer.gradients device shard b.params b.trainer).2 }) h.view
  rcases (trainer.gradients device shard b.params b.trainer).1 with e | gradients
  · exact .error hview
  · exact .ok ⟨rfl, hview, h.same, h.dense, h.bulk, h.pending, h.zeros⟩

theorem Lockstep.visit (hzero : ∀ x : α, 0 + x = x) (hkeys : (layers.map (·.key)).Nodup) (h : Lockstep layers d b)
    (trainer : Trainer τ α) {progress : Progress α} (hprogress : progress.IsChecked layers) (shard : Nat) :
    Alike (fun p q d' b' => p = q ∧ p.IsChecked layers ∧ Lockstep layers d' b')
      (outcome (visit t trainer progress shard) d) (outcome (visit t trainer progress shard) b) := by
  have hdevices : d.devices = b.devices := congrArg View.devices h.view
  rw [Worker.visit, outcome_get_bind, outcome_get_bind, hdevices]
  refine (h.train trainer progress.group.length shard).bind ?_
  rintro gradients _ d' b' ⟨rfl, h'⟩
  rw [checkGradients_congr (h.same.trans h.same'.symm)]
  refine Alike.liftExcept_bind h'.view fun _ hcheck => ?_
  have hnext := hprogress.visited h.same' hcheck (progress.shards ++ [shard]) progress.steps progress.syncs
  dsimp only
  split
  · exact h'.close hzero hkeys trainer hnext
  · exact .ok ⟨rfl, hnext, h'⟩

/-- An epoch keeps the workers in lockstep, or both stop in it. -/
theorem Lockstep.runEpoch (hzero : ∀ x : α, 0 + x = x) (hkeys : (layers.map (·.key)).Nodup) (h : Lockstep layers d b)
    (trainer : Trainer τ α) (total : Nat) :
    Alike (fun x y d' b' => x = y ∧ Lockstep layers d' b') (outcome (runEpoch t trainer total) d)
      (outcome (runEpoch t trainer total) b) := by
  have hidentity : d.identity = b.identity := congrArg View.identity h.view
  have hdevices : d.devices = b.devices := congrArg View.devices h.view
  have hepoch : d.epoch = b.epoch := congrArg View.epoch h.view
  rw [runEpoch_eq, outcome_get_bind, outcome_get_bind, hdevices, hidentity, hepoch, h.dense, h.bulk]
  refine Alike.liftExcept_bind h.view fun _ _ => ?_
  refine (Alike.foldlM (I := fun progress d b => progress.IsChecked layers ∧ Lockstep layers d b) ?_ _
    ⟨⟨[], rfl, nofun⟩, h⟩).bind ?_
  · rintro progress shard d b ⟨hprogress, h⟩
    exact h.visit hzero hkeys trainer hprogress shard
  rintro visited _ d₁ b₁ ⟨rfl, hvisited, h₁⟩
  have hclose : Alike (fun p q d' b' => p = q ∧ Lockstep layers d' b')
      (outcome (if visited.group.isEmpty then pure visited else Worker.close t visited) d₁)
      (outcome (if visited.group.isEmpty then pure visited else Worker.close t visited) b₁) := by
    split
    · exact .ok ⟨rfl, h₁⟩
    · exact (h₁.close hzero hkeys trainer hvisited).imp fun p q d' b' hends _ _ => ⟨hends.1, hends.2.2⟩
  refine hclose.bind ?_
  rintro progress _ d₂ b₂ ⟨rfl, h₂⟩
  -- nothing is pending at the end of the epoch
  have hflush : Alike (fun n m d' b' => n = m ∧ Lockstep layers d' b') (outcome (flushLast t .dense) d₂)
      (outcome (flushLast t (.bulk ⟨1, Nat.one_pos⟩)) b₂) := by
    rw [flushLast, flushLast, flush, outcome_get_bind, if_pos h₂.pending]
    exact .ok ⟨rfl, h₂⟩
  refine hflush.bind ?_
  rintro n _ d₃ b₃ ⟨rfl, h₃⟩
  refine .ok ⟨rfl, ?_, h₃.same, h₃.dense, h₃.bulk, h₃.pending, h₃.zeros⟩
  show { d₃.view with epoch := d₃.view.epoch + 1 } = { b₃.view with epoch := b₃.view.epoch + 1 }
  rw [h₃.view]

/-- Pulling the layers keeps the workers in lockstep, or both stop. -/
theorem Lockstep.init (h : Lockstep layers d b) :
    Alike (fun _ _ d' b' => Lockstep layers d' b') (outcome (init t) d) (outcome (init t) b) := by
  rw [Worker.init, outcome_get_bind, outcome_get_bind, h.same, h.same']
  refine (Alike.mapM (I := fun d b => Lockstep layers d b) ?_ layers h).bind ?_
  · intro layer d b h
    refine (alike_exchange h.view (Client.pull_matches layer.key layer.shape (congrArg View.link h.view))).imp ?_
    rintro value _ d' b' ⟨rfl, hview⟩ hd hb
    obtain ⟨c, -, rfl⟩ := gives_exchange.1 hd
    obtain ⟨c', -, rfl⟩ := gives_exchange.1 hb
    exact ⟨rfl, hview, h.same, h.dense, h.bulk, h.pending, h.zeros⟩
  · rintro params _ d' b' ⟨rfl, h'⟩
    refine .ok ⟨?_, h'.same, h'.dense, h'.bulk, h'.pending, h'.zeros⟩
    show { d'.view with params := params } = { b'.view with params := params }
    rw [h'.view]

end Worker

/-! ## Requests -/

/-- What a worker asks of a transport: a pull into a buffer, or a push if there is a gradient. -/
structure Asked (α : Type) where
  key : Key
  gradient? : Option (List α)
  buffer : List α
  deriving DecidableEq

/-- A transport with a record of what was asked of it, in order. -/
def Transport.recorded (t : Transport σ α) : Transport (σ × List (Asked α)) α where
  pull key buffer s :=
    let filled := t.pull key buffer s.1
    ⟨filled.result, filled.buffer, filled.state, s.2 ++ [⟨key, none, buffer⟩]⟩
  push key gradient buffer s :=
    let filled := t.push key gradient buffer s.1
    ⟨filled.result, filled.buffer, filled.state, s.2 ++ [⟨key, some gradient, buffer⟩]⟩
  disconnect s :=
    let (result, after) := t.disconnect s.1
    (result, after, s.2)
  length_pull key buffer s := t.length_pull key buffer s.1
  length_push key gradient buffer s := t.length_push key gradient buffer s.1

namespace Worker

/-- What can be asked of a worker: to pull its layers, or to run an epoch over some shards. -/
inductive Task
  | init
  | epoch (total : Nat)
  deriving DecidableEq

/-- Does a task, and reports if it is an epoch. -/
def perform (t : Transport σ α) (trainer : Trainer τ α) : Task → Work σ τ α (Option EpochReport)
  | .init => do
    init t
    pure none
  | .epoch total => do
    let report ← runEpoch t trainer total
    pure (some report)

/-- A worker that sums up single steps does what a worker does that pushes at once. Let the layers have
keys of their own, and let the transport and the trainer be whatever they are. However many tasks the two
workers are given, both do all of them and report the same, or both stop in the same task for the same
reason; and then they have asked the transport for the same, in the same order and with the same elements,
they are over the same link, and they have the same local copies. -/
theorem bulk_one_eq_dense (hzero : ∀ x : α, 0 + x = x) (layers : List Layer) (hkeys : (layers.map (·.key)).Nodup)
    (identity : Identity) (devices : Positive) (backend : Backend) (convention : Convention α) (t : Transport σ α)
    (trainer : Trainer τ α) (link : σ) (state : τ) (tasks : List Task) :
    let run (sync : SyncMode) := outcome (tasks.mapM (perform t.recorded trainer))
      (start identity layers devices backend sync convention (link, []) state)
    (run (.bulk ⟨1, Nat.one_pos⟩)).1 = (run .dense).1 ∧
      (run (.bulk ⟨1, Nat.one_pos⟩)).2.client.link = (run .dense).2.client.link ∧
      (run (.bulk ⟨1, Nat.one_pos⟩)).2.params = (run .dense).2.params := by
  intro run
  have hstart : Lockstep layers
      (start identity layers devices backend .dense convention (link, ([] : List (Asked α))) state)
      (start identity layers devices backend (.bulk ⟨1, Nat.one_pos⟩) convention (link, []) state) :=
    ⟨rfl, rfl, rfl, rfl, rfl, fun _ _ _ => nofun⟩
  have halike : Alike (fun x y d b => x = y ∧ Lockstep layers d b) (run .dense) (run (.bulk ⟨1, Nat.one_pos⟩)) := by
    refine Alike.mapM (I := fun d b => Lockstep layers d b) ?_ tasks hstart
    rintro (_ | total) d b h
    · refine h.init.bind ?_
      rintro _ _ d' b' h'
      exact .ok ⟨rfl, h'⟩
    · refine (h.runEpoch hzero hkeys trainer total).bind ?_
      rintro report _ d' b' ⟨rfl, h'⟩
      exact .ok ⟨rfl, h'⟩
  generalize run .dense = dense at halike ⊢
  generalize run (.bulk ⟨1, Nat.one_pos⟩) = bulk at halike ⊢
  cases halike with
  | ok h =>
    obtain ⟨rfl, h⟩ := h
    exact ⟨rfl, (congrArg View.link h.view).symm, (congrArg View.params h.view).symm⟩
  | error hview => exact ⟨rfl, (congrArg View.link hview).symm, (congrArg View.params hview).symm⟩

/-- Two epochs of a worker with two layers, the second one of which is cut off by the transport. -/
theorem bulk_one_eq_dense_interrupted :
    let t := (Transport.ofStore (α := Rat)).interrupted [5] .noServers
    let run (sync : SyncMode) := outcome ([.init, .epoch 1, .epoch 1].mapM (perform t.recorded .squares))
      (start ⟨"worker-0", 0, 1, by decide⟩ [⟨.ofRole .weight 0, [2]⟩, ⟨.ofRole .bias 0, [1]⟩] ⟨2, by decide⟩ .cpu sync
        (.direct (some (1 / 4))) ((0, Store.empty ⟨fun _ n => List.replicate n 1, .additive, 0⟩), []) ())
    (run .dense).1 = .error (.error (.transport .noServers)) ∧
      (run (.bulk ⟨1, Nat.one_pos⟩)).1 = (run .dense).1 ∧
      (run (.bulk ⟨1, Nat.one_pos⟩)).2.client.link = (run .dense).2.client.link := by
  intro t run
  obtain ⟨hresult, hlink, -⟩ := bulk_one_eq_dense (fun x : Rat => zero_add x)
    [⟨.ofRole .weight 0, [2]⟩, ⟨.ofRole .bias 0, [1]⟩] (by decide) ⟨"worker-0", 0, 1, by decide⟩ ⟨2, by decide⟩ .cpu
    (.direct (some (1 / 4))) t .squares (0, Store.empty ⟨fun _ n => List.replicate n 1, .additive, 0⟩) ()
    [.init, .epoch 1, .epoch 1]
  exact ⟨by decide +kernel, hresult, hlink⟩

end Worker

end ParamExchange
