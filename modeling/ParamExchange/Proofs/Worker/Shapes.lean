/-
Shapes through failures. Whatever the trainer computes and however requests fail, what a worker keeps fits
its layers: a local copy has the shape of its layer, the sums of a pending step have the shapes of the layers,
and every request has a buffer of the length of its layer. This is an invariant of every part of the work,
also of one that stops halfway, so a worker that once has pulled its layers never meets a shape that does not
fit: it does what a guarded worker does.
-/
import ParamExchange.Proofs.Worker.Guards
import ParamExchange.Proofs.Worker.Merges

namespace ParamExchange

variable {σ τ α β γ : Type}

/-! ## Requests and stops -/

/-- A request for a layer or, with a gradient, for its accumulator. Its buffer has the length of the layer,
and so has the gradient. -/
structure Asked.Fits (asked : Asked α) (layer : Layer) : Prop where
  key : asked.key = layer.key ∨ asked.gradient?.isSome = true ∧ asked.key = layer.key.partner
  buffer : asked.buffer.length = Shape.size layer.shape
  gradient : ∀ gradient ∈ asked.gradient?, gradient.length = asked.buffer.length

namespace Worker

/-- Why an epoch of a worker that has its layers may stop: because of a request, of the trainer, of
gradients that do not fit, of a backend that is not there, or of too many devices. -/
inductive IsOrdinary (trainer : Trainer τ α) (backend : Backend) : Stop → Prop
  | transport (e : TransportError) : IsOrdinary trainer backend (.error (.transport e))
  | trainer {device shard : Nat} {params : List (Tensor α)} {state : τ} {e : WorkerError} :
      (trainer.gradients device shard params state).1 = .error e → IsOrdinary trainer backend (.error e)
  | missingGradients (shard expected got : Nat) :
      IsOrdinary trainer backend (.error (.missingGradients shard expected got))
  | shapeMismatch (name : String) (expected got : List Nat) :
      IsOrdinary trainer backend (.error (.shapeMismatch name expected got))
  | backendUnavailable : backend = .unavailable → IsOrdinary trainer backend (.error .backendUnavailable)
  | tooManyDevices (count : Nat) : IsOrdinary trainer backend (.tooManyDevices count)

end Worker

/-- There is a sum for the layer, of its shape. -/
def Accumulator.HasSum (acc : Accumulator α) (layer : Layer) : Prop :=
  ∃ sum, acc.sum? layer.key = some sum ∧ sum.shape = layer.shape

namespace Accumulator

variable {acc after : Accumulator α} {layer other : Layer} {gradient sum : Tensor α}

/-- A sum that takes the place of one of the same shape. -/
theorem HasSum.put (h : acc.HasSum other) {key : Key}
    (hshape : ∀ held, acc.sum? key = some held → sum.shape = held.shape) : (acc.put key sum).HasSum other := by
  obtain ⟨held, hheld, hother⟩ := h
  by_cases hkey : other.key = key
  · subst hkey
    exact ⟨sum, by rw [sum?_put, if_pos rfl], (hshape held hheld).trans hother⟩
  · exact ⟨held, by rw [sum?_put, if_neg hkey, hheld], hother⟩

/-- A gradient that is added keeps all sums, and there is one for its layer then. -/
theorem HasSum.accumulate [Scalar α] (hshape : gradient.shape = layer.shape)
    (h : acc.accumulate layer.key gradient = .ok after) :
    after.HasSum layer ∧ ∀ other, acc.HasSum other → after.HasSum other := by
  obtain ⟨s, hs, rfl⟩ := accumulate_ok h
  constructor
  · refine ⟨s, by rw [sum?_put, if_pos rfl], ?_⟩
    rcases hheld : acc.sum? layer.key with _ | held
    · rw [hheld] at hs
      cases hs
      exact hshape
    · rw [hheld] at hs
      obtain ⟨hsame, hsum, -⟩ := Tensor.of_zip? hs
      rw [hsum, ← hsame, hshape]
  · intro other hother
    refine hother.put fun held hheld => ?_
    rw [hheld] at hs
    exact Tensor.shape_add? hs

theorem accumulate_error [Scalar α] {key : Key} {e : WorkerError} (h : acc.accumulate key gradient = .error e) :
    ∃ expected, e = .shapeMismatch key.name expected gradient.shape := by
  unfold accumulate at h
  rcases hheld : acc.sum? key with _ | held
  · rw [hheld] at h
    cases h
  · rcases hsum : held.add? gradient with _ | s
    · simp only [hheld, hsum] at h
      cases h
      exact ⟨held.shape, rfl⟩
    · simp only [hheld, hsum] at h
      cases h

end Accumulator

/-- Tensors of one shape are not summed up only if there is no backend. -/
theorem Backend.reduce_uniform [Scalar α] {backend : Backend} {shape : List Nat} {tensors : List (Tensor α)}
    (h : Worker.AreUniform shape tensors) {stop : Stop} (hstop : backend.reduce tensors = .error stop) :
    backend = .unavailable ∧ stop = .error .backendUnavailable := by
  obtain ⟨hne, hshape⟩ := h
  cases backend with
  | cpu =>
    obtain ⟨-, s, hs⟩ | ⟨expected, got, hclash, -⟩ := Backend.reduce_cpu_cases hne
    · rw [hs] at hstop
      cases hstop
    · -- two shapes can not meet
      obtain ⟨hdiffer, p, -, hi, hj⟩ := hclash.getElem?
      have hall : ∀ (i : Nat) k, (tensors.map (·.shape))[i]? = some k → k = shape := by
        intro i k hk
        obtain ⟨tensor, hmem, rfl⟩ := List.mem_map.1 (List.mem_of_getElem? hk)
        exact hshape tensor hmem
      exact absurd ((hall _ _ hi).trans (hall _ _ hj).symm) hdiffer
  | unavailable =>
    refine ⟨rfl, ?_⟩
    unfold Backend.reduce at hstop
    rcases hreduce : ParamExchange.reduce (Backend.unavailable.add (α := α)) tensors with e | s
    · obtain ⟨cause, x, y, rfl, hadd⟩ := exists_add_error_of_reduce_error hne hreduce
      rw [hreduce] at hstop
      cases hadd
      cases hstop
      rfl
    · rw [hreduce] at hstop
      cases hstop

/-- The first failure of a list. -/
theorem exists_error_of_mapM {f : γ → Except Stop β} {list : List γ} {stop : Stop} (h : list.mapM f = .error stop) :
    ∃ c ∈ list, f c = .error stop := by
  induction list with
  | nil => cases h
  | cons c list ih =>
    rw [List.mapM_cons] at h
    rcases hfirst : f c with e | b
    · rw [hfirst] at h
      cases h
      exact ⟨c, List.mem_cons_self .., hfirst⟩
    rw [hfirst] at h
    rcases hrest : list.mapM f with e | bs
    · rw [hrest] at h
      cases h
      obtain ⟨d, hd, herror⟩ := ih hrest
      exact ⟨d, List.mem_cons_of_mem _ hd, herror⟩
    · rw [hrest] at h
      cases h

namespace Worker

/-! ## Fitting workers -/

/-- What the worker keeps and has asked for fits its layers. Whoever is ready has a copy of every layer. -/
structure Fitted (layers : List Layer) (backend : Backend) (ready : Prop) (w : Worker (σ × List (Asked α)) τ α) :
    Prop where
  layers_eq : w.layers = layers
  backend_eq : w.backend = backend
  copies : ∀ (i : Nat) (layer : Layer) copy, layers[i]? = some layer → w.params[i]? = some copy →
    copy.shape = layer.shape
  all : ready → w.params.length = layers.length
  sums : w.pending ≠ 0 → ∀ layer ∈ layers, w.accumulator.HasSum layer
  asked : ∀ asked ∈ w.client.link.2, ∃ layer ∈ layers, asked.Fits layer

/-- How work ends: the worker fits, and the work gives what `P` says, or it stops, for a reason that is
known if the worker is ready. -/
inductive Ends (layers : List Layer) (backend : Backend) (ready : Prop) (reason : Stop → Prop)
    (P : β → Worker (σ × List (Asked α)) τ α → Prop) : Except Stop β × Worker (σ × List (Asked α)) τ α → Prop
  | ok {b : β} {w : Worker (σ × List (Asked α)) τ α} : w.Fitted layers backend ready → P b w →
      Ends layers backend ready reason P (.ok b, w)
  | stop {stop : Stop} {w : Worker (σ × List (Asked α)) τ α} : w.Fitted layers backend ready →
      (ready → reason stop) → Ends layers backend ready reason P (.error stop, w)

/-- Work and its guarded form: the work ends as it should, and for a worker that is ready the guarded form
ends in the same way. -/
structure Minds (layers : List Layer) (backend : Backend) (ready : Prop) (reason : Stop → Prop)
    (guarded work : Work (σ × List (Asked α)) τ α β) (P : β → Worker (σ × List (Asked α)) τ α → Prop)
    (w : Worker (σ × List (Asked α)) τ α) : Prop where
  ends : Ends layers backend ready reason P (outcome work w)
  same : ready → outcome guarded w = outcome work w

variable {t : Transport σ α} {trainer : Trainer τ α} {layers : List Layer} {backend : Backend} {ready : Prop}
  {reason : Stop → Prop} {stop : Stop} {w : Worker (σ × List (Asked α)) τ α}

section

variable {P : β → Worker (σ × List (Asked α)) τ α → Prop} {Q : γ → Worker (σ × List (Asked α)) τ α → Prop}

theorem Ends.imp {reason' : Stop → Prop} {P' : β → Worker (σ × List (Asked α)) τ α → Prop}
    {result : Except Stop β × Worker (σ × List (Asked α)) τ α} (h : Ends layers backend ready reason P result)
    (hreason : ∀ stop, reason stop → reason' stop) (himp : ∀ b w', P b w' → P' b w') :
    Ends layers backend ready reason' P' result := by
  cases h with
  | ok hfitted hP => exact .ok hfitted (himp _ _ hP)
  | stop hfitted hstop => exact .stop hfitted fun hready => hreason _ (hstop hready)

theorem Ends.bind {work : Work _ τ α β} {f : β → Work _ τ α γ}
    (h : Ends layers backend ready reason P (outcome work w))
    (hrest : ∀ b w', w'.Fitted layers backend ready → P b w' →
      Ends layers backend ready reason Q (outcome (f b) w')) :
    Ends layers backend ready reason Q (outcome (work >>= f) w) := by
  rw [outcome_bind]
  generalize outcome work w = result at h
  cases h with
  | ok hfitted hP => exact hrest _ _ hfitted hP
  | stop hfitted hreason => exact .stop hfitted hreason

namespace Minds

/-- Work that is its own guarded form. -/
theorem of_ends {work : Work _ τ α β} (h : Ends layers backend ready reason P (outcome work w)) :
    Minds layers backend ready reason work work P w := ⟨h, fun _ => rfl⟩

theorem imp {guarded work : Work _ τ α β} {P' : β → Worker (σ × List (Asked α)) τ α → Prop}
    (h : Minds layers backend ready reason guarded work P w) (himp : ∀ b w', P b w' → P' b w') :
    Minds layers backend ready reason guarded work P' w := ⟨h.ends.imp (fun _ => id) himp, h.same⟩

theorem pure {b : β} (hw : w.Fitted layers backend ready) (h : P b w) :
    Minds layers backend ready reason (pure b) (pure b) P w := .of_ends (.ok hw h)

theorem bind {guarded work : Work _ τ α β} {f g : β → Work _ τ α γ}
    (h : Minds layers backend ready reason guarded work P w)
    (hrest : ∀ b w', w'.Fitted layers backend ready → P b w' → Minds layers backend ready reason (f b) (g b) Q w') :
    Minds layers backend ready reason (guarded >>= f) (work >>= g) Q w := by
  obtain ⟨hends, hsame⟩ := h
  refine ⟨hends.bind fun b w' hw' hb => (hrest b w' hw' hb).ends, fun hready => ?_⟩
  rw [outcome_bind, outcome_bind, hsame hready]
  generalize outcome work w = result at hends
  cases hends with
  | ok hfitted hP => exact (hrest _ _ hfitted hP).same hready
  | stop => rfl

theorem get_bind {f g : Worker (σ × List (Asked α)) τ α → Work _ τ α β}
    (h : Minds layers backend ready reason (f w) (g w) P w) :
    Minds layers backend ready reason (get >>= f) (get >>= g) P w := ⟨h.ends, h.same⟩

theorem modify_bind {f g : Unit → Work _ τ α β} {change : Worker (σ × List (Asked α)) τ α → _}
    (h : Minds layers backend ready reason (f ()) (g ()) P (change w)) :
    Minds layers backend ready reason (modify change >>= f) (modify change >>= g) P w := ⟨h.ends, h.same⟩

theorem liftExcept_bind {e : Except Stop γ} {f g : γ → Work _ τ α β} (hw : w.Fitted layers backend ready)
    (hreason : ready → ∀ stop, e = .error stop → reason stop)
    (hrest : ∀ c, e = .ok c → Minds layers backend ready reason (f c) (g c) P w) :
    Minds layers backend ready reason (liftExcept e >>= f) (liftExcept e >>= g) P w := by
  cases e with
  | error stop => exact ⟨.stop hw fun hready => hreason hready stop rfl, fun _ => rfl⟩
  | ok c => exact hrest c rfl

/-- A guard that a worker which is ready passes. -/
theorem require {p : Prop} [Decidable p] {guarded work : Work _ τ α β} (hp : ready → p)
    (h : Minds layers backend ready reason guarded work P w) :
    Minds layers backend ready reason (Worker.require stop p >>= fun _ => guarded) work P w := by
  refine ⟨h.ends, fun hready => ?_⟩
  rw [Worker.require, if_pos (hp hready)]
  exact h.same hready

theorem foldlM {f g : β → γ → Work _ τ α β} {I : β → Prop}
    (hround : ∀ b c w, w.Fitted layers backend ready → I b →
      Minds layers backend ready reason (f b c) (g b c) (fun b _ => I b) w)
    (list : List γ) {b : β} (hw : w.Fitted layers backend ready) (h : I b) :
    Minds layers backend ready reason (list.foldlM f b) (list.foldlM g b) (fun b _ => I b) w := by
  induction list generalizing b w with
  | nil => exact .pure hw h
  | cons c list ih =>
    rw [List.foldlM_cons, List.foldlM_cons]
    exact (hround b c w hw h).bind fun next w' hw' hnext => ih hw' hnext

end Minds

end

namespace Fitted

variable {i : Nat} {layer : Layer}

/-- Only the copies, the sums and the requests matter. -/
theorem congr (h : w.Fitted layers backend ready) {w' : Worker (σ × List (Asked α)) τ α}
    (hlayers : w'.layers = w.layers) (hbackend : w'.backend = w.backend) (hparams : w'.params = w.params)
    (hclient : w'.client = w.client) (hsums : w'.accumulator = w.accumulator) (hpending : w'.pending = w.pending) :
    w'.Fitted layers backend ready :=
  ⟨hlayers.trans h.layers_eq, hbackend.trans h.backend_eq, hparams ▸ h.copies, hparams ▸ h.all,
    hpending ▸ hsums ▸ h.sums, hclient ▸ h.asked⟩

/-- One more request that fits. -/
theorem ask (h : w.Fitted layers backend ready) {client : Client (σ × List (Asked α)) α} {asked : Asked α}
    (hclient : client.link.2 = w.client.link.2 ++ [asked]) (hlayer : layer ∈ layers) (hfits : asked.Fits layer) :
    ({ w with client := client } : Worker _ τ α).Fitted layers backend ready := by
  refine ⟨h.layers_eq, h.backend_eq, h.copies, h.all, h.sums, ?_⟩
  show ∀ asked ∈ client.link.2, ∃ layer ∈ layers, asked.Fits layer
  rw [hclient]
  exact List.forall_mem_append.2 ⟨h.asked, List.forall_mem_singleton.2 ⟨layer, hlayer, hfits⟩⟩

/-- Another copy of the shape of its layer. -/
theorem set (h : w.Fitted layers backend ready) (hlayer : layers[i]? = some layer) {copy : Tensor α}
    (hshape : copy.shape = layer.shape) :
    ({ w with params := w.params.set i copy } : Worker _ τ α).Fitted layers backend ready := by
  refine ⟨h.layers_eq, h.backend_eq, fun j other held hother hheld => ?_, fun hready => ?_, h.sums, h.asked⟩
  · rw [List.getElem?_set] at hheld
    split at hheld
    · rename_i hij
      subst hij
      split at hheld
      · cases hheld
        rw [← Option.some.inj (hlayer.symm.trans hother)]
        exact hshape
      · cases hheld
    · exact h.copies j other held hother hheld
  · rw [List.length_set]
    exact h.all hready

/-- A worker that is ready has a copy of each layer, of its shape. -/
theorem exists_copy (h : w.Fitted layers backend ready) (hready : ready) (hlayer : layers[i]? = some layer) :
    ∃ copy, w.params[i]? = some copy ∧ copy.shape = layer.shape := by
  have hlt : i < w.params.length := by
    rw [h.all hready]
    exact (List.getElem?_eq_some_iff.1 hlayer).1
  exact ⟨_, List.getElem?_eq_getElem hlt, h.copies i layer _ hlayer (List.getElem?_eq_getElem hlt)⟩

theorem hasCopies (h : w.Fitted layers backend ready) (hready : ready) : w.HasCopies := by
  rw [HasCopies, h.layers_eq]
  refine List.ext_getElem? fun i => ?_
  rw [List.getElem?_map, List.getElem?_map]
  rcases hlayer : layers[i]? with _ | layer
  · rw [List.getElem?_eq_none_iff] at hlayer
    rw [List.getElem?_eq_none ((h.all hready).trans_le hlayer)]
    rfl
  · obtain ⟨copy, hcopy, hshape⟩ := h.exists_copy hready hlayer
    rw [hcopy, Option.map_some, Option.map_some, hshape]

/-- Other sums for the layers. -/
theorem resum (h : w.Fitted layers backend ready) {acc : Accumulator α}
    (hkeeps : ∀ layer, w.accumulator.HasSum layer → acc.HasSum layer) :
    ({ w with accumulator := acc } : Worker _ τ α).Fitted layers backend ready :=
  ⟨h.layers_eq, h.backend_eq, h.copies, h.all, fun hpending layer hlayer => hkeeps layer (h.sums hpending layer hlayer),
    h.asked⟩

theorem imp {ready' : Prop} (h : w.Fitted layers backend ready) (himp : ready' → ready) :
    w.Fitted layers backend ready' :=
  ⟨h.layers_eq, h.backend_eq, h.copies, fun hready => h.all (himp hready), h.sums, h.asked⟩

end Fitted

/-- A worker that has done nothing yet. -/
theorem fitted_start (identity : Identity) (layers : List Layer) (devices : Positive) (backend : Backend)
    (sync : SyncMode) (convention : Convention α) (link : σ) (state : τ) :
    (start identity layers devices backend sync convention (link, ([] : List (Asked α))) state).Fitted layers
      backend False :=
  ⟨rfl, rfl, fun _ _ _ _ => nofun, False.elim, fun hpending => absurd rfl hpending, nofun⟩

/-! ## Gradients -/

/-- A worker refuses too many or too few gradients, and otherwise the first one that does not fit its layer. -/
theorem checkGradients_eq (w : Worker σ τ α) (shard : Nat) (gradients : List (Tensor α)) :
    w.checkGradients shard gradients =
      if gradients.length ≠ w.layers.length then
        .error (.missingGradients shard w.layers.length gradients.length)
      else
        match (w.layers.zip gradients).find? fun p => p.2.shape ≠ p.1.shape with
        | none => .ok ()
        | some p => .error (.shapeMismatch p.1.key.name p.1.shape p.2.shape) := by
  unfold checkGradients
  split
  · rfl
  generalize w.layers.zip gradients = pairs
  induction pairs with
  | nil => rfl
  | cons p pairs ih =>
    rw [List.forIn_cons]
    by_cases hshape : p.2.shape = p.1.shape
    · rw [List.find?_cons_of_neg (by simpa using hshape), ← ih]
      simp [hshape]
    · rw [List.find?_cons_of_pos (by simpa using hshape)]
      simp [hshape]
      rfl

theorem checkGradients_error {shard : Nat} {gradients : List (Tensor α)} {e : WorkerError}
    (h : w.checkGradients shard gradients = .error e) : IsOrdinary trainer backend (.error e) := by
  rw [checkGradients_eq] at h
  split at h
  · cases h
    exact .missingGradients _ _ _
  · split at h
    · cases h
    · cases h
      exact .shapeMismatch _ _ _

theorem ends_train (hw : w.Fitted layers backend ready) (device shard : Nat) :
    Ends layers backend ready (IsOrdinary trainer backend) (fun _ _ => True)
      (outcome (train trainer device shard) w) := by
  have hafter : ({ w with trainer := (trainer.gradients device shard w.params w.trainer).2 } : Worker _ τ α).Fitted
      layers backend ready := hw.congr rfl rfl rfl rfl rfl rfl
  show Ends layers backend ready _ _ ((trainer.gradients device shard w.params w.trainer).1.mapError Stop.error,
    ({ w with trainer := (trainer.gradients device shard w.params w.trainer).2 } : Worker _ τ α))
  rcases hresult : (trainer.gradients device shard w.params w.trainer).1 with e | gradients
  · exact .stop hafter fun _ => .trainer hresult
  · exact .ok hafter trivial

/-- The gradients of some computations, one at least, are there for each layer, and have its shape. -/
theorem areUniform_columns {turns : List (Turn α)} (hne : turns ≠ [])
    (hchecked : ∀ turn ∈ turns, turn.IsChecked layers) :
    ∀ p ∈ layers.zip (columns layers.length (turns.map (·.gradients))), AreUniform p.1.shape p.2 := by
  intro p hp
  obtain ⟨i, hi⟩ := List.mem_iff_getElem?.1 hp
  obtain ⟨hlayer, hcolumn⟩ := List.getElem?_zip_eq_some.1 hi
  have hlt : i < layers.length := (List.getElem?_eq_some_iff.1 hlayer).1
  rw [columns, List.getElem?_map, List.getElem?_range hlt, Option.map_some, List.filterMap_map,
    Option.some.injEq] at hcolumn
  have hmem : ∀ gradient, gradient ∈ p.2 ↔ ∃ turn ∈ turns, turn.gradients[i]? = some gradient := by
    intro gradient
    rw [← hcolumn, List.mem_filterMap]
    rfl
  constructor
  · obtain ⟨turn, rest, rfl⟩ := List.exists_cons_of_ne_nil hne
    have hchecked' := hchecked turn (List.mem_cons_self ..)
    have hget := List.getElem?_eq_getElem (hchecked'.length.symm ▸ hlt : i < turn.gradients.length)
    exact List.ne_nil_of_mem ((hmem _).2 ⟨turn, List.mem_cons_self .., hget⟩)
  · intro gradient hgradient
    obtain ⟨turn, hturn, hget⟩ := (hmem gradient).1 hgradient
    exact (hchecked turn hturn).shape i p.1 gradient hlayer hget

/-! ## Exchanges -/

variable [Scalar α] {i : Nat} {layer : Layer} {gradient : Tensor α}

/-- A tensor of the shape of a layer is pushed to it or to its accumulator, and a tensor of this shape comes
back. -/
theorem Fitted.push {key : Key} {delta : Tensor α} (h : w.Fitted layers backend ready) (hlayer : layer ∈ layers)
    (hkey : key = layer.key ∨ key = layer.key.partner) (hshape : delta.shape = layer.shape) :
    Ends layers backend ready (IsOrdinary trainer backend)
      (fun value w' => value.shape = layer.shape ∧ w'.params = w.params ∧ w'.pending = w.pending)
      (outcome (exchange (Client.pushAndPull t.recorded key delta)) w) := by
  have hfits : Asked.Fits ⟨key, some delta.elements, List.replicate (Shape.size delta.shape) 0⟩ layer := by
    refine ⟨hkey.imp_right fun hpartner => ⟨rfl, hpartner⟩, ?_, ?_⟩
    · rw [List.length_replicate, hshape]
    · rintro _ ⟨⟩
      rw [List.length_replicate, delta.length_elements]
  rw [outcome_exchange]
  rcases hresult : (t.recorded.push key delta.elements (List.replicate (Shape.size delta.shape) 0)
      w.client.link).result with e | ⟨⟩
  · obtain ⟨scratch, houtcome⟩ := Client.outcome_pushAndPull_error hresult
    rw [houtcome]
    exact .stop (h.ask rfl hlayer hfits) fun _ => .transport e
  · obtain ⟨scratch, value, houtcome, hvalue, -⟩ := Client.outcome_pushAndPull_ok hresult
    rw [houtcome]
    exact .ok (h.ask rfl hlayer hfits) ⟨hvalue.trans hshape, rfl, rfl⟩

/-- The gradient decays: a copy of its shape is added as it is, and nothing is repeated. -/
theorem exists_decayed (rate decay : α) (key : Key) {gradient weight : Tensor α} (h : weight.shape = gradient.shape) :
    ∃ delta, Convention.decayed rate decay key gradient weight = .ok delta := by
  have hsame : weight.broadcast? (gradient.scale rate).shape = some weight := if_pos h
  obtain ⟨s, hs⟩ := Tensor.exists_zip? (fun y x => y + rate * decay * x) (t := gradient.scale rate) (u := weight) h
  unfold Convention.decayed
  by_cases hbias : key.role = .bias
  · exact ⟨_, if_pos hbias⟩
  · refine ⟨s, ?_⟩
    simp only [if_neg hbias, Tensor.scaledAdd?, hsame, Option.bind_some, hs]

/-! ## Layers -/

/-- A gradient of the shape of its layer is handed over. -/
theorem ends_syncLayer (hw : w.Fitted layers backend ready) (hlayer : layers[i]? = some layer)
    (hshape : gradient.shape = layer.shape) :
    Ends layers backend ready (IsOrdinary trainer backend) (fun _ w' => w'.pending = w.pending)
      (outcome (syncLayer t.recorded i gradient) w) := by
  rw [syncLayer, outcome_get_bind, hw.layers_eq, hlayer]
  rcases hweight : w.params[i]? with _ | weight
  · refine .stop hw fun hready => ?_
    obtain ⟨copy, hcopy, -⟩ := hw.exists_copy hready hlayer
    rw [hweight] at hcopy
    cases hcopy
  have hcopy := hw.copies i layer weight hlayer hweight
  have hmem := List.mem_of_getElem? hlayer
  -- what is pushed to the layer comes back as its new copy
  have hpush : ∀ (w' : Worker _ τ α) (delta : Tensor α), w'.Fitted layers backend ready → w'.pending = w.pending →
      delta.shape = layer.shape →
      Ends layers backend ready (IsOrdinary trainer backend) (fun _ w'' => w''.pending = w.pending)
        (outcome (exchange (Client.pushAndPull t.recorded layer.key delta) >>= fun value =>
          modify fun w => { w with params := w.params.set i value }) w') := by
    intro w' delta hw' hpending hdelta
    refine (hw'.push hmem (.inl rfl) hdelta).bind ?_
    rintro value w'' hw'' ⟨hvalue, -, hpending'⟩
    exact .ok (hw''.set hlayer hvalue) (hpending'.trans hpending)
  dsimp only
  cases w.convention with
  | direct rate? =>
    cases rate? with
    | none => exact hpush w gradient hw rfl hshape
    | some rate => exact hpush w (gradient.scale (-rate)) hw rfl hshape
  | clientMomentum rate decay =>
    obtain ⟨delta, hdelta⟩ := exists_decayed rate decay layer.key (hcopy.trans hshape.symm)
    have hdecayed := (Convention.shape_decayed hdelta).trans hshape
    rw [Convention.sync, outcome_exchange_bind, exchange_liftExcept, hdelta]
    show Ends layers backend ready (IsOrdinary trainer backend) _
      (outcome (exchange (Client.pushAndPull t.recorded layer.key.partner delta >>= fun velocity =>
        Client.pushAndPull t.recorded layer.key velocity) >>= _) w)
    rw [outcome_exchange_bind]
    refine (hw.push hmem (.inr rfl) hdecayed).bind ?_
    rintro velocity w' hw' ⟨hvelocity, -, hpending⟩
    exact hpush w' velocity hw' hpending hvelocity

theorem minds_syncLayer (hw : w.Fitted layers backend ready) (hlayer : layers[i]? = some layer)
    (hshape : gradient.shape = layer.shape) :
    Minds layers backend ready (IsOrdinary trainer backend) (Guarded.syncLayer stop t.recorded i gradient)
      (syncLayer t.recorded i gradient) (fun _ w' => w'.pending = w.pending) w := by
  have hends : Ends layers backend ready (IsOrdinary trainer backend) (fun _ w' => w'.pending = w.pending)
      (outcome (syncLayer t.recorded i gradient) w) := ends_syncLayer hw hlayer hshape
  have hguard : ready → w.layers[i]?.map (·.shape) = some gradient.shape ∧
      w.params[i]?.map (·.shape) = some gradient.shape := by
    intro hready
    obtain ⟨copy, hcopy, hsame⟩ := hw.exists_copy hready hlayer
    rw [hw.layers_eq, hlayer, hcopy, Option.map_some, Option.map_some, hshape, hsame]
    exact ⟨rfl, rfl⟩
  exact ⟨hends, ((Minds.of_ends hends).require hguard).same⟩

/-- Gradients of the shapes of the layers from the layer `i` on are handed over. -/
theorem minds_syncAll {gradients : List (Tensor α)} (hw : w.Fitted layers backend ready)
    (hfit : ∀ j gradient, gradients[j]? = some gradient →
      ∃ layer, layers[i + j]? = some layer ∧ gradient.shape = layer.shape) :
    Minds layers backend ready (IsOrdinary trainer backend) (Guarded.syncAll stop t.recorded i gradients)
      (syncAll t.recorded i gradients) (fun _ _ => True) w := by
  induction gradients generalizing i w with
  | nil => exact .pure hw trivial
  | cons gradient gradients ih =>
    obtain ⟨layer, hlayer, hshape⟩ := hfit 0 gradient rfl
    refine (minds_syncLayer hw hlayer hshape).bind fun _ w' hw' _ => ih hw' fun j other hother => ?_
    rw [Nat.add_assoc, Nat.add_comm 1]
    exact hfit (j + 1) other hother

/-! ## Sums -/

/-- A gradient of the shape of its layer is added to the sum of the layer, if this has the same shape. -/
theorem minds_accumulateLayer (hw : w.Fitted layers backend ready) (hshape : gradient.shape = layer.shape) :
    Minds layers backend ready (IsOrdinary trainer backend) (Guarded.accumulateLayer stop layer gradient)
      (accumulateLayer layer gradient) (fun _ w' => w'.accumulator.HasSum layer ∧
        ∀ other, w.accumulator.HasSum other → w'.accumulator.HasSum other) w := by
  refine .require (fun _ => hshape) (.of_ends ?_)
  rcases hacc : w.accumulator.accumulate layer.key gradient with e | acc
  · rw [outcome_accumulateLayer_error hacc]
    obtain ⟨expected, rfl⟩ := Accumulator.accumulate_error hacc
    exact .stop hw fun _ => .shapeMismatch _ _ _
  · rw [outcome_accumulateLayer_ok hacc]
    obtain ⟨hsum, hkept⟩ := Accumulator.HasSum.accumulate hshape hacc
    exact .ok (hw.resum hkept) ⟨hsum, hkept⟩

/-- After gradients of the shapes of some layers were added, there are sums for these. -/
theorem minds_accumulateAll {pairs : List (Layer × Tensor α)} (hw : w.Fitted layers backend ready)
    (hfit : ∀ p ∈ pairs, p.2.shape = p.1.shape) :
    Minds layers backend ready (IsOrdinary trainer backend) (pairs.forM fun p => Guarded.accumulateLayer stop p.1 p.2)
      (pairs.forM fun p => accumulateLayer p.1 p.2)
      (fun _ w' => (∀ p ∈ pairs, w'.accumulator.HasSum p.1) ∧
        ∀ other, w.accumulator.HasSum other → w'.accumulator.HasSum other) w := by
  induction pairs generalizing w with
  | nil => exact .pure hw ⟨nofun, fun _ h => h⟩
  | cons p pairs ih =>
    obtain ⟨hshape, hrest⟩ := List.forall_mem_cons.1 hfit
    rw [List.forM_eq_forM, List.forM_cons, List.forM_cons]
    refine (minds_accumulateLayer hw hshape).bind ?_
    rintro _ w' hw' ⟨hsum, hkept⟩
    refine (ih hw' hrest).imp ?_
    rintro _ w'' ⟨hsums, hkept'⟩
    exact ⟨List.forall_mem_cons.2 ⟨hkept' _ hsum, hsums⟩, fun other hother => hkept' other (hkept other hother)⟩

/-- While a step is pending, a sum that is taken has the shape of its layer. -/
theorem ends_takeSum (hw : w.Fitted layers backend ready) (hpending : w.pending ≠ 0) (hlayer : layer ∈ layers) :
    Ends layers backend ready (IsOrdinary trainer backend) (fun taken w' => w'.pending = w.pending ∧
        ∀ sum, taken = some sum → sum.shape = layer.shape)
      (outcome (takeSum layer.key) w) := by
  obtain ⟨sum, hheld, hshape⟩ := hw.sums hpending layer hlayer
  show Ends layers backend ready (IsOrdinary trainer backend) _ ((.ok (w.accumulator.flush layer.key).1,
    { w with accumulator := (w.accumulator.flush layer.key).2 }) : Except Stop (Option (Tensor α)) × Worker _ τ α)
  rw [Accumulator.flush_some hheld]
  refine .ok (hw.resum fun other hother => hother.put fun held hsame => ?_) ⟨rfl, ?_⟩
  · rw [Option.some.inj (hsame.symm.trans hheld)]
    rfl
  · rintro _ ⟨⟩
    exact hshape

/-- The sums of a pending step are handed over, from the layer `i` on. -/
theorem minds_flushLayers {suffix : List Layer} (hw : w.Fitted layers backend ready) (hpending : w.pending ≠ 0)
    (hsuffix : ∀ j layer, suffix[j]? = some layer → layers[i + j]? = some layer) :
    Minds layers backend ready (IsOrdinary trainer backend) (Guarded.flushLayers stop t.recorded i suffix)
      (flushLayers t.recorded i suffix) (fun _ _ => True) w := by
  induction suffix generalizing i w with
  | nil => exact .pure hw trivial
  | cons layer suffix ih =>
    have hfirst : layers[i]? = some layer := hsuffix 0 layer rfl
    have hrest : ∀ j other, suffix[j]? = some other → layers[i + 1 + j]? = some other := by
      intro j other hother
      rw [Nat.add_assoc, Nat.add_comm 1]
      exact hsuffix (j + 1) other hother
    rw [Guarded.flushLayers, flushLayers]
    refine (Minds.of_ends (ends_takeSum hw hpending (List.mem_of_getElem? hfirst))).bind ?_
    rintro taken w₁ hw₁ ⟨hpending₁, hshape⟩
    cases taken with
    | none => exact ih hw₁ (hpending₁ ▸ hpending) hrest
    | some sum =>
      refine (minds_syncLayer hw₁ hfirst (hshape sum rfl)).bind fun _ w₂ hw₂ hpending₂ => ?_
      refine (ih hw₂ ?_ hrest).bind fun synced w₃ hw₃ _ => .pure hw₃ trivial
      rw [hpending₂, hpending₁]
      exact hpending

/-- The sums are handed over if a step is pending. -/
theorem minds_flush (hw : w.Fitted layers backend ready) :
    Minds layers backend ready (IsOrdinary trainer backend) (Guarded.flush stop t.recorded) (flush t.recorded)
      (fun _ _ => True) w := by
  refine .get_bind ?_
  rw [hw.layers_eq]
  split
  · exact .pure hw trivial
  · rename_i hpending
    have hsuffix : ∀ j layer, layers[j]? = some layer → layers[0 + j]? = some layer := fun j layer hlayer => by
      rwa [Nat.zero_add]
    refine (minds_flushLayers hw hpending hsuffix).bind fun synced w' hw' _ => .modify_bind (.pure ?_ trivial)
    exact ⟨hw'.layers_eq, hw'.backend_eq, hw'.copies, hw'.all, fun h => absurd rfl h, hw'.asked⟩

/-! ## Steps -/

/-- A step of gradients that were checked. -/
theorem minds_step (hw : w.Fitted layers backend ready) {turns : List (Turn α)} (hne : turns ≠ [])
    (hchecked : ∀ turn ∈ turns, turn.IsChecked layers) :
    Minds layers backend ready (IsOrdinary trainer backend) (Guarded.step stop t.recorded (turns.map (·.gradients)))
      (step t.recorded (turns.map (·.gradients))) (fun _ _ => True) w := by
  refine .get_bind ?_
  rw [hw.layers_eq, hw.backend_eq]
  have huniform := areUniform_columns hne hchecked
  refine .require (fun _ => huniform) (.liftExcept_bind hw (fun _ stop hstop => ?_) fun reduced hreduced => ?_)
  · -- the columns fit, so only a backend can be missing
    obtain ⟨column, hcolumn, herror⟩ := exists_error_of_mapM hstop
    obtain ⟨i, hi⟩ := List.mem_iff_getElem?.1 hcolumn
    have hlt : i < layers.length := by
      have := (List.getElem?_eq_some_iff.1 hi).1
      rwa [columns, List.length_map, List.length_range] at this
    have hpair : (layers.zip (columns layers.length (turns.map (·.gradients))))[i]? = some (layers[i], column) :=
      List.getElem?_zip_eq_some.2 ⟨List.getElem?_eq_getElem hlt, hi⟩
    obtain ⟨hbackend, rfl⟩ := Backend.reduce_uniform (huniform _ (List.mem_of_getElem? hpair)) herror
    exact .backendUnavailable hbackend
  have hreduction := isReduction_of_mapM hchecked hreduced
  have hcounted : ({ w with globalStep := w.globalStep + 1 } : Worker _ τ α).Fitted layers backend ready :=
    hw.congr rfl rfl rfl rfl rfl rfl
  cases w.sync with
  | dense =>
    -- the gradients are handed over
    refine .modify_bind ?_
    refine (minds_syncAll hcounted fun j gradient hgradient => ?_).bind fun _ w' hw' _ => .pure hw' trivial
    have hlt : j < layers.length := hreduction.length ▸ (List.getElem?_eq_some_iff.1 hgradient).1
    refine ⟨layers[j], ?_, hreduction.shape j _ gradient (List.getElem?_eq_getElem hlt) hgradient⟩
    rw [Nat.zero_add, List.getElem?_eq_getElem hlt]
  | bulk cycle =>
    -- or added to the sums
    have hfit : ∀ p ∈ layers.zip reduced, p.2.shape = p.1.shape := by
      intro p hp
      obtain ⟨i, hi⟩ := List.mem_iff_getElem?.1 hp
      obtain ⟨hlayer, hgradient⟩ := List.getElem?_zip_eq_some.1 hi
      exact hreduction.shape i p.1 p.2 hlayer hgradient
    refine .modify_bind ?_
    refine (minds_accumulateAll hcounted hfit).bind ?_
    rintro _ w' hw' ⟨hsums, -⟩
    have hpending : ({ w' with pending := w'.pending + 1 } : Worker _ τ α).Fitted layers backend ready := by
      refine ⟨hw'.layers_eq, hw'.backend_eq, hw'.copies, hw'.all, fun _ layer hlayer => ?_, hw'.asked⟩
      obtain ⟨i, hi⟩ := List.mem_iff_getElem?.1 hlayer
      obtain ⟨gradient, hgradient⟩ := hreduction.exists_gradient hi
      exact hsums (layer, gradient) (List.mem_of_getElem? (List.getElem?_zip_eq_some.2 ⟨hi, hgradient⟩))
    refine .modify_bind ?_
    split
    · exact minds_flush hpending
    · exact .pure hpending trivial

/-! ## Epochs -/

theorem minds_close (hw : w.Fitted layers backend ready) {progress : Progress α} (h : progress.IsChecked layers)
    (hne : progress.group ≠ []) :
    Minds layers backend ready (IsOrdinary trainer backend) (Guarded.close stop t.recorded progress)
      (close t.recorded progress) (fun next _ => next.IsChecked layers) w := by
  obtain ⟨turns, hgroup, hchecked⟩ := h
  unfold Guarded.close close
  rw [hgroup] at hne ⊢
  refine (minds_step hw (fun hnil => hne (by rw [hnil]; rfl)) hchecked).bind fun synced w' hw' _ => ?_
  exact .pure hw' ⟨[], rfl, nofun⟩

/-- A shard, and the step that may follow it. -/
theorem minds_visit (hw : w.Fitted layers backend ready) {progress : Progress α} (h : progress.IsChecked layers)
    (shard : Nat) :
    Minds layers backend ready (IsOrdinary trainer backend) (Guarded.visit stop t.recorded trainer progress shard)
      (visit t.recorded trainer progress shard) (fun next _ => next.IsChecked layers) w := by
  refine .get_bind (.require hw.hasCopies ?_)
  refine (Minds.of_ends (ends_train hw progress.group.length shard)).bind fun gradients w' hw' _ => ?_
  refine .liftExcept_bind hw' (fun _ stop hstop => ?_) fun _ hcheck => ?_
  · rcases hcheck : w.checkGradients shard gradients with e | _
    · rw [hcheck] at hstop
      cases hstop
      exact checkGradients_error hcheck
    · rw [hcheck] at hstop
      cases hstop
  have hnext := h.visited hw.layers_eq hcheck (progress.shards ++ [shard]) progress.steps progress.syncs
  dsimp only
  split
  · exact minds_close hw' hnext (by simp)
  · exact .pure hw' hnext

/-- A whole epoch. -/
theorem minds_runEpoch (hw : w.Fitted layers backend ready) (total : Nat) :
    Minds layers backend ready (IsOrdinary trainer backend) (Guarded.runEpoch stop t.recorded trainer total)
      (runEpoch t.recorded trainer total) (fun _ _ => True) w := by
  rw [runEpoch_eq, Guarded.runEpoch]
  refine .get_bind (.liftExcept_bind hw (fun _ stop hstop => ?_) fun _ _ => ?_)
  · unfold checkDevices at hstop
    split at hstop
    · cases hstop
    · cases hstop
      exact .tooManyDevices _
  refine (Minds.foldlM (fun progress shard w hw h => minds_visit hw h shard) _ hw ⟨[], rfl, nofun⟩).bind
    fun visited w₁ hw₁ hvisited => ?_
  have hclose : Minds layers backend ready (IsOrdinary trainer backend)
      (if visited.group.isEmpty then pure visited else Guarded.close stop t.recorded visited)
      (if visited.group.isEmpty then pure visited else close t.recorded visited) (fun _ _ => True) w₁ := by
    split
    · exact .pure hw₁ trivial
    · rename_i hempty
      exact (minds_close hw₁ hvisited (mt List.isEmpty_iff.2 hempty)).imp fun _ _ _ => trivial
  refine hclose.bind fun progress w₂ hw₂ _ => ?_
  have hflush : Minds layers backend ready (IsOrdinary trainer backend) (Guarded.flushLast stop t.recorded w.sync)
      (flushLast t.recorded w.sync) (fun _ _ => True) w₂ := by
    cases w.sync with
    | dense => exact .pure hw₂ trivial
    | bulk => exact minds_flush hw₂
  refine hflush.bind fun last w₃ hw₃ _ => .modify_bind (.pure ?_ trivial)
  exact hw₃.congr rfl rfl rfl rfl rfl rfl

theorem ends_runEpoch (hw : w.Fitted layers backend ready) (total : Nat) :
    Ends layers backend ready (IsOrdinary trainer backend) (fun _ _ => True)
      (outcome (runEpoch t.recorded trainer total) w) := by
  -- the reason for which the guarded form gives up does not matter
  have hminds : Minds layers backend ready (IsOrdinary trainer backend)
      (Guarded.runEpoch .outsideReduction t.recorded trainer total) (runEpoch t.recorded trainer total)
      (fun _ _ => True) w := minds_runEpoch hw total
  exact hminds.ends

/-! ## Pulling the layers -/

/-- A pull gives a tensor of the shape of the layer. -/
theorem Fitted.pull (h : w.Fitted layers backend ready) (hlayer : layer ∈ layers) :
    Ends layers backend ready (fun _ => True) (fun copy _ => copy.shape = layer.shape)
      (outcome (exchange (Client.pull t.recorded layer.key layer.shape)) w) := by
  have hfits : Asked.Fits (⟨layer.key, none, List.replicate (Shape.size layer.shape) 0⟩ : Asked α) layer :=
    ⟨.inl rfl, List.length_replicate, nofun⟩
  rw [outcome_exchange]
  by_cases hroom : Shape.isAddressable layer.shape = true
  · rcases hresult : (t.recorded.pull layer.key (List.replicate (Shape.size layer.shape) 0)
        w.client.link).result with e | ⟨⟩
    · rw [Client.outcome_pull_error hroom hresult]
      exact .stop (h.ask rfl hlayer hfits) fun _ => trivial
    · obtain ⟨copy, houtcome, hshape, -⟩ := Client.outcome_pull_ok hroom hresult
      rw [houtcome]
      exact .ok (h.ask rfl hlayer hfits) hshape
  · rw [Client.outcome_pull_tooLarge hroom]
    exact .stop h fun _ => trivial

theorem Fitted.pullAll (h : w.Fitted layers backend ready) {list : List Layer}
    (hlist : ∀ layer ∈ list, layer ∈ layers) :
    Ends layers backend ready (fun _ => True) (fun copies _ => copies.map (·.shape) = list.map (·.shape))
      (outcome (list.mapM fun layer => exchange (Client.pull t.recorded layer.key layer.shape)) w) := by
  induction list generalizing w with
  | nil => exact .ok h rfl
  | cons layer list ih =>
    obtain ⟨hlayer, hlist⟩ := List.forall_mem_cons.1 hlist
    rw [List.mapM_cons]
    refine (h.pull hlayer).bind fun copy w₁ h₁ hcopy => (ih h₁ hlist).bind fun copies w₂ h₂ hcopies => .ok h₂ ?_
    rw [List.map_cons, List.map_cons, hcopy, hcopies]

/-- A worker that has pulled its layers is ready. -/
theorem Fitted.init (h : w.Fitted layers backend ready) :
    Ends layers backend ready (fun _ => True) (fun _ w' => w'.Fitted layers backend True)
      (outcome (init t.recorded) w) := by
  rw [Worker.init, outcome_get_bind, h.layers_eq]
  refine (h.pullAll fun _ hlayer => hlayer).bind fun copies w' h' hcopies => ?_
  have hlength : copies.length = layers.length := by simpa using congrArg List.length hcopies
  have hready : ({ w' with params := copies } : Worker _ τ α).Fitted layers backend True := by
    refine ⟨h'.layers_eq, h'.backend_eq, fun i layer copy hlayer hcopy => ?_, fun _ => hlength, h'.sums, h'.asked⟩
    have hshapes := congrArg (·[i]?) hcopies
    simp only [List.getElem?_map] at hshapes
    rw [hcopy, hlayer] at hshapes
    exact Option.some.inj hshapes
  exact .ok ⟨hready.layers_eq, hready.backend_eq, hready.copies, fun _ => hlength, hready.sums, hready.asked⟩ hready

/-! ## Tasks -/

/-- A task leaves a worker that fits, and that is ready if the task pulled the layers. -/
theorem Fitted.perform (h : w.Fitted layers backend ready) (task : Task) :
    (outcome (perform t.recorded trainer task) w).2.Fitted layers backend
      (ready ∨ Ending.IsReady ⟨task, (outcome (Worker.perform t.recorded trainer task) w).1⟩) := by
  have hends : Ends layers backend ready (fun _ => True) (fun _ w' => w'.Fitted layers backend (ready ∨ task = .init))
      (outcome (Worker.perform t.recorded trainer task) w) := by
    cases task with
    | init =>
      refine h.init.bind fun _ w' h' hready => .ok h' ?_
      exact hready.imp fun _ => trivial
    | epoch total =>
      have hepoch : Ends layers backend ready (fun _ => True) (fun _ _ => True)
          (outcome (runEpoch t.recorded trainer total) w) :=
        (ends_runEpoch h total).imp (fun _ _ => trivial) fun _ _ => id
      exact hepoch.bind fun report w' h' _ => .ok h' (h'.imp fun hor => hor.resolve_right nofun)
  generalize outcome (Worker.perform t.recorded trainer task) w = result at hends ⊢
  cases hends with
  | ok _ hready => exact hready.imp fun hor => hor.imp_right And.left
  | stop hfitted => exact hfitted.imp fun hor => hor.resolve_right fun hready => nomatch hready.2

theorem Fitted.performAll (h : w.Fitted layers backend ready) (trainer : Trainer τ α) (tasks : List Task) :
    (performAll t.recorded trainer tasks w).2.Fitted layers backend
      (ready ∨ ∃ ending ∈ (performAll t.recorded trainer tasks w).1, ending.IsReady) :=
  performAll_keeps (I := fun ready w => w.Fitted layers backend ready) (C := fun _ => True)
    (fun _ _ _ h himp => h.imp himp) (fun _ _ task h _ => h.perform task) tasks h fun _ _ => trivial

/-- Gradients that do not fit are refused before anything is done with them. -/
theorem visit_refused {t : Transport σ α} {w : Worker σ τ α} {progress : Progress α} {shard : Nat}
    {gradients : List (Tensor α)} {after : τ} {e : WorkerError}
    (htrain : trainer.gradients progress.group.length shard w.params w.trainer = (.ok gradients, after))
    (hcheck : w.checkGradients shard gradients = .error e) :
    outcome (visit t trainer progress shard) w = (.error (.error e), { w with trainer := after }) := by
  have hrun : outcome (train trainer progress.group.length shard) w =
      ((trainer.gradients progress.group.length shard w.params w.trainer).1.mapError .error,
        { w with trainer := (trainer.gradients progress.group.length shard w.params w.trainer).2 }) := rfl
  rw [htrain] at hrun
  rw [visit, outcome_get_bind, outcome_bind, hrun]
  show outcome (liftExcept ((w.checkGradients shard gradients).mapError Stop.error) >>= _) _ = _
  rw [hcheck]
  rfl

/-- The shapes of a worker fit through all failures. Let its transport and its trainer do what they like, and
give it any tasks. Every request is for a layer or its accumulator, into a buffer of the length of the layer,
and a gradient has this length as well. Once the worker has pulled its layers, it has one local copy for each
of them, of its shape, whatever has failed since; and an epoch never meets a shape that does not fit: with
every operation guarded it does the same, and it stops only because of a request, of the trainer, of gradients
that are refused, of a backend that is not there or of too many devices. Gradients are refused if there are
too many or too few of them, and otherwise for the first one that does not have the shape of its layer, and
then nothing has changed but the trainer. -/
theorem shapes_kept (identity : Identity) (layers : List Layer) (devices : Positive) (backend : Backend)
    (sync : SyncMode) (convention : Convention α) (t : Transport σ α) (trainer : Trainer τ α) (link : σ) (state : τ)
    (tasks : List Task) :
    let run := performAll t.recorded trainer tasks
      (start identity layers devices backend sync convention (link, []) state)
    (∀ asked ∈ run.2.client.link.2, ∃ layer ∈ layers, asked.Fits layer) ∧
    ((∃ ending ∈ run.1, ending.IsReady) →
      run.2.params.map (·.shape) = layers.map (·.shape) ∧
      ∀ total,
        (∀ stop, outcome (Guarded.runEpoch stop t.recorded trainer total) run.2 =
          outcome (runEpoch t.recorded trainer total) run.2) ∧
        ∀ stop, (outcome (runEpoch t.recorded trainer total) run.2).1 = .error stop →
          IsOrdinary trainer backend stop) ∧
    ∀ (w : Worker (σ × List (Asked α)) τ α) (progress : Progress α) (shard : Nat) (gradients : List (Tensor α))
      (after : τ), trainer.gradients progress.group.length shard w.params w.trainer = (.ok gradients, after) →
      (gradients.length ≠ w.layers.length →
        outcome (visit t.recorded trainer progress shard) w =
          (.error (.error (.missingGradients shard w.layers.length gradients.length)), { w with trainer := after })) ∧
      ∀ before layer gradient rest, gradients.length = w.layers.length →
        w.layers.zip gradients = before ++ (layer, gradient) :: rest → (∀ p ∈ before, p.2.shape = p.1.shape) →
        gradient.shape ≠ layer.shape →
        outcome (visit t.recorded trainer progress shard) w =
          (.error (.error (.shapeMismatch layer.key.name layer.shape gradient.shape)),
            { w with trainer := after }) := by
  intro run
  have hfitted : run.2.Fitted layers backend (False ∨ ∃ ending ∈ run.1, ending.IsReady) :=
    (fitted_start identity layers devices backend sync convention link state).performAll trainer tasks
  refine ⟨hfitted.asked, fun hready => ⟨?_, fun total => ⟨fun stop => ?_, fun stop hstop => ?_⟩⟩, ?_⟩
  · exact (hfitted.hasCopies (.inr hready)).trans (congrArg _ hfitted.layers_eq)
  · exact (minds_runEpoch hfitted total).same (.inr hready)
  · have hends : Ends layers backend _ (IsOrdinary trainer backend) (fun _ _ => True)
        (outcome (runEpoch t.recorded trainer total) run.2) := ends_runEpoch hfitted total
    generalize outcome (runEpoch t.recorded trainer total) run.2 = result at hends hstop
    cases hends with
    | ok => cases hstop
    | stop _ hreason =>
      cases hstop
      exact hreason (.inr hready)
  · intro w progress shard gradients after htrain
    constructor
    · intro hcount
      refine visit_refused htrain ?_
      rw [checkGradients_eq, if_pos hcount]
    · intro before layer gradient rest hcount hzip hbefore hshape
      refine visit_refused htrain ?_
      have hfind : (w.layers.zip gradients).find? (fun p => p.2.shape ≠ p.1.shape) = some (layer, gradient) := by
        rw [hzip, List.find?_append, List.find?_eq_none.2 (by simpa using hbefore), Option.none_or,
          List.find?_cons_of_pos (by simpa using hshape)]
      rw [checkGradients_eq, if_neg (not_not_intro hcount), hfind]

/-- An epoch is cut off by the transport between the two layers, and the next one is refused; so are gradients
for too few layers. -/
theorem shapes_kept_interrupted :
    let layers : List Layer := [⟨.ofRole .weight 0, [2]⟩, ⟨.ofRole .bias 0, [1]⟩]
    let t := (Transport.ofStore (α := Rat)).interrupted [3] .noServers
    let fitting : List (Tensor Rat) := [.zeros [2], .zeros [1]]
    let unfit : List (Tensor Rat) := [.zeros [2], .zeros [3]]
    let run := performAll t.recorded Trainer.scripted [.init, .epoch 1]
      (start ⟨"worker-0", 0, 1, by decide⟩ layers ⟨2, by decide⟩ .cpu .dense (.direct none)
        ((0, Store.empty ⟨fun _ n => List.replicate n 1, .additive, 0⟩), []) ⟨[some fitting, some unfit], 0⟩)
    (∃ ending ∈ run.1, ending.IsReady) ∧ (∃ ending ∈ run.1, ending.IsCut) ∧ run.2.client.link.2.length = 4 ∧
      run.2.params.map (·.shape) = [[2], [1]] ∧
      (outcome (runEpoch t.recorded Trainer.scripted 1) run.2).1 = .error (.error (.shapeMismatch "b_0" [1] [3])) ∧
      outcome (Guarded.runEpoch .outsideReduction t.recorded Trainer.scripted 1) run.2 =
        outcome (runEpoch t.recorded Trainer.scripted 1) run.2 ∧
      IsOrdinary (Trainer.scripted (α := Rat)) .cpu (.error (.shapeMismatch "b_0" [1] [3])) ∧
      (outcome (visit t.recorded Trainer.scripted Progress.start 0) { run.2 with trainer := ⟨[some unfit], 0⟩ }).1 =
        .error (.error (.shapeMismatch "b_0" [1] [3])) ∧
      (outcome (visit t.recorded Trainer.scripted Progress.start 0) { run.2 with trainer := ⟨[some []], 0⟩ }).1 =
        .error (.error (.missingGradients 0 2 0)) := by
  intro layers t fitting unfit run
  obtain ⟨-, hepochs, hrefused⟩ := shapes_kept ⟨"worker-0", 0, 1, by decide⟩ layers ⟨2, by decide⟩ .cpu .dense
    (.direct none) t Trainer.scripted (0, Store.empty ⟨fun _ n => List.replicate n 1, .additive, 0⟩)
    ⟨[some fitting, some unfit], 0⟩ [.init, .epoch 1]
  have hready : ∃ ending ∈ run.1, ending.IsReady := by decide +kernel
  obtain ⟨hshapes, hepoch⟩ := hepochs hready
  obtain ⟨hguarded, hordinary⟩ := hepoch 1
  have hstop : (outcome (runEpoch t.recorded Trainer.scripted 1) run.2).1 =
      .error (.error (.shapeMismatch "b_0" [1] [3])) := by decide +kernel
  have hlayers : run.2.layers = layers := by decide +kernel
  have hunfit := (hrefused { run.2 with trainer := ⟨[some unfit], 0⟩ } Progress.start 0 unfit ⟨[some unfit], 1⟩ rfl).2
    [(⟨.ofRole .weight 0, [2]⟩, .zeros [2])] ⟨.ofRole .bias 0, [1]⟩ (.zeros [3]) [] (by rw [hlayers]; rfl)
    (by rw [hlayers]; rfl) (by decide) (by decide)
  have hfew := (hrefused { run.2 with trainer := ⟨[some []], 0⟩ } Progress.start 0 [] ⟨[some []], 1⟩ rfl).1
    (by rw [hlayers]; decide)
  refine ⟨hready, by decide +kernel, by decide +kernel, hshapes, hstop, hguarded _, hordinary _ hstop, ?_, ?_⟩
  · exact congrArg Prod.fst hunfit
  · rw [hfew, hlayers]
    rfl

end Worker

end ParamExchange
