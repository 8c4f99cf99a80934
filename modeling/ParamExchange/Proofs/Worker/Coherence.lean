/-
Coherence of a worker with what it trains. A worker that is given tasks over a transport that keeps its
layers has the copies that are held for them, once it has pulled them: every step keeps this, whether it
pushes at once or sums up, so does every epoch, whether it ends well or stops, and so does every list of
tasks. The sums are no copies, but they have the shapes of the layers, and so have the gradients that are
reduced.
-/
import ParamExchange.Proofs.Worker.Copies

namespace ParamExchange

variable {σ τ α β γ : Type} [Scalar α]

namespace Keeper

open Worker

variable {t : Transport σ α} {layers : List Layer} {k : Keeper t layers} {ready : Prop} {w : Worker σ τ α}

section Keys

variable (hkeys : (layers.map (·.key)).Nodup)
include hkeys

/-! ## Sums -/

/-- Another sum of the shape of its layer. -/
theorem Holds.resum (h : k.Holds ready w) {layer : Layer} (hlayer : layer ∈ layers) {sum : Tensor α}
    (hshape : sum.shape = layer.shape) :
    k.Holds ready { w with accumulator := w.accumulator.put layer.key sum } := by
  refine ⟨h.layers_eq, h.usable, h.copies, fun other hother held hheld => ?_, h.all⟩
  rw [Accumulator.sum?_put] at hheld
  split at hheld
  · rename_i heq
    cases hheld
    obtain rfl := List.inj_on_of_nodup_map hkeys hother hlayer heq
    exact hshape
  · exact h.sums other hother held hheld

theorem keeps_accumulateLayer {layer : Layer} (hlayer : layer ∈ layers) {gradient : Tensor α}
    (hshape : gradient.shape = layer.shape) :
    k.Keeps (τ := τ) ready (accumulateLayer layer gradient) fun _ => True := by
  intro w h
  rcases haccumulate : w.accumulator.accumulate layer.key gradient with e | acc
  · rw [outcome_accumulateLayer_error haccumulate]
    exact .stop h
  · rw [outcome_accumulateLayer_ok haccumulate]
    obtain ⟨sum, hmore, rfl⟩ := Accumulator.accumulate_ok haccumulate
    refine .ok (h.resum hkeys hlayer ?_) trivial
    rcases hheld : w.accumulator.sum? layer.key with _ | held
    · rw [hheld] at hmore
      cases hmore
      exact hshape
    · rw [hheld] at hmore
      exact (Tensor.shape_add? hmore).trans (h.sums layer hlayer held hheld)

/-- Gradients of the shapes of their layers are added to the sums. -/
theorem keeps_accumulateAll {pairs : List (Layer × Tensor α)}
    (hfit : ∀ p ∈ pairs, p.1 ∈ layers ∧ p.2.shape = p.1.shape) :
    k.Keeps (τ := τ) ready (pairs.forM fun p => accumulateLayer p.1 p.2) fun _ => True := by
  induction pairs with
  | nil => exact .pure trivial
  | cons p pairs ih =>
    obtain ⟨⟨hlayer, hshape⟩, hrest⟩ := List.forall_mem_cons.1 hfit
    rw [List.forM_eq_forM, List.forM_cons]
    exact (keeps_accumulateLayer hkeys hlayer hshape).bind fun _ _ => ih hrest

/-- A sum that is taken has the shape of its layer. -/
theorem keeps_takeSum {layer : Layer} (hlayer : layer ∈ layers) :
    k.Keeps (τ := τ) ready (takeSum layer.key) fun taken => ∀ sum, taken = some sum → sum.shape = layer.shape := by
  intro w h
  show k.Ends ready _ ((.ok (w.accumulator.flush layer.key).1,
    { w with accumulator := (w.accumulator.flush layer.key).2 }) : Except Stop (Option (Tensor α)) × Worker σ τ α)
  unfold Accumulator.flush
  rcases hheld : w.accumulator.sum? layer.key with _ | held
  · exact .ok h nofun
  · have hshape := h.sums layer hlayer held hheld
    refine .ok (h.resum hkeys hlayer hshape) ?_
    rintro sum ⟨⟩
    exact hshape

/-- The sums of the layers are handed over, from the layer `i` on. -/
theorem keeps_flushLayers {i : Nat} {suffix : List Layer}
    (hsuffix : ∀ j layer, suffix[j]? = some layer → layers[i + j]? = some layer) :
    k.Keeps (τ := τ) ready (flushLayers t i suffix) fun _ => True := by
  induction suffix generalizing i with
  | nil => exact .pure trivial
  | cons layer suffix ih =>
    have hfirst : layers[i]? = some layer := hsuffix 0 layer rfl
    have hrest : k.Keeps (τ := τ) ready (flushLayers t (i + 1) suffix) fun _ => True := by
      refine ih fun j other hother => ?_
      rw [Nat.add_assoc, Nat.add_comm 1]
      exact hsuffix (j + 1) other hother
    rw [flushLayers]
    refine (keeps_takeSum hkeys (List.mem_of_getElem? hfirst)).bind fun taken hshape => ?_
    cases taken with
    | none => exact hrest
    | some sum =>
      refine (keeps_syncLayer hkeys i fun other hother => ?_).bind fun _ _ => hrest.bind fun _ _ => .pure trivial
      rw [← Option.some.inj (hfirst.symm.trans hother)]
      exact hshape sum rfl

/-- The sums are handed over if a step is pending. -/
theorem keeps_flush : k.Keeps (τ := τ) ready (flush t) fun _ => True := by
  intro w h
  rw [flush, outcome_get_bind, h.layers_eq]
  split
  · exact .ok h trivial
  · refine (keeps_flushLayers hkeys (fun j layer hlayer => by rwa [Nat.zero_add]) w h).bind fun _ w' h' _ => ?_
    exact .ok (h'.congr rfl rfl rfl rfl) trivial

/-! ## Steps -/

/-- A step of gradients that were checked keeps the copies. -/
theorem keeps_step {turns : List (Turn α)}
    (hchecked : ∀ turn ∈ turns, turn.IsChecked layers) :
    k.Keeps (τ := τ) ready (step t (turns.map (·.gradients))) fun _ => True := by
  intro w h
  rw [step, outcome_get_bind, h.layers_eq]
  refine Ends.liftExcept_bind h fun reduced hreduced => ?_
  have hreduction := isReduction_of_mapM hchecked hreduced
  rw [outcome_modify_bind]
  have hcounted : k.Holds ready { w with globalStep := w.globalStep + 1 } := h.congr rfl rfl rfl rfl
  split
  · -- the gradients are handed over
    refine (keeps_syncAll hkeys (fun j gradient layer hgradient hlayer => ?_) _ hcounted).bind fun _ w' h' _ => ?_
    · rw [Nat.zero_add] at hlayer
      exact hreduction.shape j layer gradient hlayer hgradient
    · exact .ok h' trivial
  · -- or added to the sums
    have hfit : ∀ p ∈ layers.zip reduced, p.1 ∈ layers ∧ p.2.shape = p.1.shape := by
      intro p hp
      obtain ⟨i, hi⟩ := List.mem_iff_getElem?.1 hp
      obtain ⟨hlayer, hgradient⟩ := List.getElem?_zip_eq_some.1 hi
      exact ⟨List.mem_of_getElem? hlayer, hreduction.shape i p.1 p.2 hlayer hgradient⟩
    refine (keeps_accumulateAll hkeys hfit _ hcounted).bind fun _ w' h' _ => ?_
    rw [outcome_modify_bind]
    have hpending : k.Holds ready { w' with pending := w'.pending + 1 } := h'.congr rfl rfl rfl rfl
    split
    · exact keeps_flush hkeys _ hpending
    · exact .ok hpending trivial

theorem keeps_close {progress : Progress α} (h : progress.IsChecked layers) :
    k.Keeps (τ := τ) ready (close t progress) fun next => next.IsChecked layers := by
  obtain ⟨turns, hgroup, hchecked⟩ := h
  unfold close
  rw [hgroup]
  exact (keeps_step hkeys hchecked).bind fun _ _ => .pure ⟨[], rfl, nofun⟩

/-! ## Epochs -/

omit hkeys in
theorem keeps_train (trainer : Trainer τ α) (device shard : Nat) :
    k.Keeps ready (train trainer device shard) fun _ => True := by
  intro w h
  show k.Ends ready _ ((trainer.gradients device shard w.params w.trainer).1.mapError Stop.error,
    ({ w with trainer := (trainer.gradients device shard w.params w.trainer).2 } : Worker σ τ α))
  have hafter : k.Holds ready { w with trainer := (trainer.gradients device shard w.params w.trainer).2 } :=
    h.congr rfl rfl rfl rfl
  cases (trainer.gradients device shard w.params w.trainer).1 with
  | error e => exact .stop hafter
  | ok gradients => exact .ok hafter trivial

/-- A shard, and the step that may follow it, keep the copies. -/
theorem keeps_visit (trainer : Trainer τ α) {progress : Progress α} (h : progress.IsChecked layers) (shard : Nat) :
    k.Keeps ready (visit t trainer progress shard) fun next => next.IsChecked layers := by
  intro w hw
  rw [visit, outcome_get_bind]
  refine (keeps_train trainer progress.group.length shard w hw).bind fun gradients w' hw' _ => ?_
  refine Ends.liftExcept_bind hw' fun _ hcheck => ?_
  have hnext := h.visited hw.layers_eq hcheck (progress.shards ++ [shard]) progress.steps progress.syncs
  dsimp only
  split
  · exact keeps_close hkeys hnext w' hw'
  · exact .ok hw' hnext

/-- An epoch keeps the copies. -/
theorem keeps_runEpoch (trainer : Trainer τ α) (total : Nat) :
    k.Keeps ready (runEpoch t trainer total) fun _ => True := by
  intro w h
  rw [runEpoch_eq, outcome_get_bind]
  refine Ends.liftExcept_bind h fun _ _ => ?_
  have hvisits : k.Keeps ready ((w.identity.owned total).foldlM (visit t trainer) Progress.start)
      fun progress => progress.IsChecked layers :=
    .foldlM (fun progress shard hprogress => keeps_visit hkeys trainer hprogress shard) _ ⟨[], rfl, nofun⟩
  refine (hvisits w h).bind fun visited w₁ h₁ hvisited => ?_
  have hclose : k.Keeps (τ := τ) ready (if visited.group.isEmpty then pure visited else close t visited)
      fun next => next.IsChecked layers := by
    split
    · exact .pure hvisited
    · exact keeps_close hkeys hvisited
  refine (hclose w₁ h₁).bind fun progress w₂ h₂ _ => ?_
  have hflush : k.Keeps (τ := τ) ready (flushLast t w.sync) fun _ => True := by
    unfold flushLast
    split
    · exact .pure trivial
    · exact keeps_flush hkeys
  refine (hflush w₂ h₂).bind fun last w₃ h₃ _ => ?_
  exact .ok (h₃.congr rfl rfl rfl rfl) trivial

end Keys

/-! ## Pulling the layers -/

theorem Copied.kept {layer : Layer} {copy : Tensor α} {s s' : σ} (h : k.Copied layer copy s) (hlayer : layer ∈ layers)
    (hkept : Kept k.held (· ∈ layers) s s') : k.Copied layer copy s' :=
  ⟨h.shape, h.room, hkept layer hlayer _ h.held⟩

/-- Layers that are pulled one after another are all copied in the end. -/
theorem Holds.pullAll (h : k.Holds ready w) {list : List Layer} (hlist : ∀ layer ∈ list, layer ∈ layers) :
    k.Ends ready (fun copies w' => List.Forall₂ (fun layer copy => k.Copied layer copy w'.client.link) list copies ∧
        Kept k.held (· ∈ layers) w.client.link w'.client.link)
      (outcome (list.mapM fun layer => exchange (Client.pull t layer.key layer.shape)) w) := by
  induction list generalizing w with
  | nil =>
    rw [List.mapM_nil]
    exact .ok h ⟨.nil, fun _ _ _ hheld => hheld⟩
  | cons layer list ih =>
    obtain ⟨hlayer, hlist⟩ := List.forall_mem_cons.1 hlist
    rw [List.mapM_cons]
    refine (h.pull hlayer).bind ?_
    rintro copy w₁ h₁ ⟨hcopied, hkept₁⟩
    refine (ih h₁ hlist).bind ?_
    rintro copies w₂ h₂ ⟨hcopies, hkept₂⟩
    refine .ok h₂ ⟨.cons (hcopied.kept hlayer hkept₂) hcopies, fun other hother values hheld => ?_⟩
    exact hkept₂ other hother values (hkept₁ other hother values hheld)

/-- A worker that has pulled its layers is ready. -/
theorem Holds.init (h : k.Holds ready w) : k.Ends ready (fun _ w' => k.Holds True w') (outcome (init t) w) := by
  rw [Worker.init, outcome_get_bind, h.layers_eq]
  refine (h.pullAll fun _ hlayer => hlayer).bind ?_
  rintro copies w' h' ⟨hcopies, -⟩
  obtain ⟨hlength, hcopied⟩ := List.forall₂_iff_zip.1 hcopies
  have hready : k.Holds True { w' with params := copies } := by
    refine ⟨h'.layers_eq, h'.usable, fun i layer copy hlayer hcopy => ?_, h'.sums, fun _ => hlength.symm⟩
    exact hcopied (List.mem_of_getElem? (List.getElem?_zip_eq_some.2 ⟨hlayer, hcopy⟩))
  exact .ok ⟨hready.layers_eq, hready.usable, hready.copies, hready.sums, fun _ => hready.all trivial⟩ hready

end Keeper

/-! ## Tasks -/

namespace Worker

/-- How a task ended. -/
structure Ending where
  task : Task
  result : Except Stop (Option EpochReport)

/-- Why the last request of the task failed, if one did. -/
def Ending.cut? (ending : Ending) : Option TransportError :=
  match ending.result with
  | .error (.error (.transport e)) => some e
  | _ => none

/-- The task ended with a request that failed. -/
def Ending.IsCut (ending : Ending) : Prop := ending.cut?.isSome = true

instance (ending : Ending) : Decidable ending.IsCut := inferInstanceAs (Decidable (_ = true))

/-- The layers were pulled. -/
def Ending.IsReady (ending : Ending) : Prop := ending.task = .init ∧ ending.result = .ok none

instance (ending : Ending) : Decidable ending.IsReady := inferInstanceAs (Decidable (_ ∧ _))

/-- Does tasks one after another, however each of them ends. -/
def performAll (t : Transport σ α) (trainer : Trainer τ α) : List Task → Worker σ τ α → List Ending × Worker σ τ α
  | [], w => ([], w)
  | task :: rest, w =>
    let (result, between) := outcome (perform t trainer task) w
    let (endings, after) := performAll t trainer rest between
    (⟨task, result⟩ :: endings, after)

/-- What every task keeps that ends as `C` says is kept by all tasks; the worker is ready once it has pulled
its layers. -/
theorem performAll_keeps {t : Transport σ α} {trainer : Trainer τ α} {I : Prop → Worker σ τ α → Prop}
    {C : Ending → Prop}
    (himp : ∀ r r' w, I r w → (r' → r) → I r' w)
    (htask : ∀ r w task, I r w → C ⟨task, (outcome (perform t trainer task) w).1⟩ →
      I (r ∨ Ending.IsReady ⟨task, (outcome (perform t trainer task) w).1⟩) (outcome (perform t trainer task) w).2)
    (tasks : List Task) {r : Prop} {w : Worker σ τ α} (h : I r w)
    (hall : ∀ ending ∈ (performAll t trainer tasks w).1, C ending) :
    I (r ∨ ∃ ending ∈ (performAll t trainer tasks w).1, ending.IsReady) (performAll t trainer tasks w).2 := by
  induction tasks generalizing w r with
  | nil => exact himp _ _ _ h fun hor => hor.resolve_right nofun
  | cons task tasks ih =>
    rw [performAll] at hall ⊢
    obtain ⟨hfirst, hrest⟩ := List.forall_mem_cons.1 hall
    refine himp _ _ _ (ih (htask r w task h hfirst) hrest) ?_
    rintro (hready | ⟨ending, hending, hready⟩)
    · exact .inl (.inl hready)
    · rcases List.mem_cons.1 hending with rfl | hending
      · exact .inl (.inr hready)
      · exact .inr ⟨ending, hending, hready⟩

end Worker

namespace Keeper

open Worker

variable {t : Transport σ α} {layers : List Layer} {k : Keeper t layers} {ready : Prop} {w : Worker σ τ α}

theorem Holds.imp {ready' : Prop} (h : k.Holds ready w) (himp : ready' → ready) : k.Holds ready' w :=
  ⟨h.layers_eq, h.usable, h.copies, h.sums, fun hready => h.all (himp hready)⟩

/-- A task keeps the copies, and makes the worker ready if it pulls the layers. -/
theorem Holds.perform (hkeys : (layers.map (·.key)).Nodup) (h : k.Holds ready w) (trainer : Trainer τ α) (task : Task)
    (hwhole : k.fragile → ¬ Ending.IsCut ⟨task, (outcome (perform t trainer task) w).1⟩) :
    k.Holds (ready ∨ Ending.IsReady ⟨task, (outcome (perform t trainer task) w).1⟩)
      (outcome (perform t trainer task) w).2 := by
  have hends : k.Ends ready (fun _ w' => k.Holds (ready ∨ task = .init) w')
      (outcome (Worker.perform t trainer task) w) := by
    cases task with
    | init =>
      refine h.init.bind fun _ w' h' hready => .ok h' ?_
      exact hready.imp fun _ => trivial
    | epoch total =>
      refine (keeps_runEpoch hkeys trainer total w h).bind fun report w' h' _ => .ok h' ?_
      exact h'.imp fun hor => hor.resolve_right nofun
  generalize outcome (Worker.perform t trainer task) w = result at hends hwhole ⊢
  cases hends with
  | ok _ hready => exact hready.imp fun hor => hor.imp_right And.left
  | stop hholds => exact hholds.imp fun hor => hor.resolve_right fun hready => nomatch hready.2
  | broken hfragile => exact absurd rfl (hwhole hfragile)

/-- However many tasks a worker is given, its copies are what is held, unless a request fails over a fragile
link. -/
theorem Holds.performAll (hkeys : (layers.map (·.key)).Nodup) (h : k.Holds ready w) (trainer : Trainer τ α)
    (tasks : List Task) (hwhole : k.fragile → ∀ ending ∈ (performAll t trainer tasks w).1, ¬ ending.IsCut) :
    k.Holds (ready ∨ ∃ ending ∈ (performAll t trainer tasks w).1, ending.IsReady) (performAll t trainer tasks w).2 := by
  refine performAll_keeps (I := fun ready w => k.Holds ready w) (C := fun ending => k.fragile → ¬ ending.IsCut)
    (fun _ _ _ h himp => h.imp himp) ?_ tasks h fun ending hending hfragile => hwhole hfragile ending hending
  exact fun _ _ task h hwhole => h.perform hkeys trainer task hwhole

/-- A worker that has done nothing yet. -/
theorem holds_start (identity : Identity) (devices : Positive) (backend : Backend) (sync : SyncMode)
    (convention : Convention α) {link : σ} (state : τ) (h : k.usable link) :
    k.Holds False (start identity layers devices backend sync convention link state) :=
  ⟨rfl, h, fun _ _ _ _ => nofun, fun _ _ _ => nofun, nofun⟩

/-- Whoever is ready has a copy of each layer. -/
theorem Holds.exists_copy (h : k.Holds True w) {i : Nat} {layer : Layer} (hlayer : layers[i]? = some layer) :
    ∃ copy, w.params[i]? = some copy ∧ copy.shape = layer.shape ∧ k.held layer w.client.link = some copy.elements := by
  have hlt : i < w.params.length := by
    rw [h.all trivial]
    exact (List.getElem?_eq_some_iff.1 hlayer).1
  have hcopied := h.copies i layer _ hlayer (List.getElem?_eq_getElem hlt)
  exact ⟨_, List.getElem?_eq_getElem hlt, hcopied.shape, hcopied.held⟩

end Keeper

end ParamExchange
