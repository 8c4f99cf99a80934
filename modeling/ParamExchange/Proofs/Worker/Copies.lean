/-
Local copies. A keeper says what a transport must do so that the local copies of a worker stay what is held
for its layers: a pull gives what is held, a push to a layer gives what is held after it, and a push to the
accumulator of a layer leaves all layers alone. A request may also fail; over a fragile link nothing is known
any more then. What a worker hands over, layer by layer and under every convention, keeps the copies, whether
it ends well or stops before a request fails.
-/
import ParamExchange.Proofs.Worker.BulkOne

namespace ParamExchange

variable {σ τ α β γ δ : Type}

/-! ## Requests for layers -/

/-- `Kept held P s s'`: what was held for the layers with `P` is still held. -/
def Kept (held : Layer → σ → Option (List α)) (P : Layer → Prop) (s s' : σ) : Prop :=
  ∀ layer, P layer → ∀ values, held layer s = some values → held layer s' = some values

/-- The request failed over a fragile link. -/
def Breaks (fragile : Prop) (filled : Filled TransportError α σ) : Prop :=
  fragile ∧ ∃ e, filled.result = .error e

/-- A request for a layer ended well: its buffer is what is held for the layer, the link can still be used,
and what was held for the layers with `P` still is. -/
structure Fills (usable : σ → Prop) (held : Layer → σ → Option (List α)) (P : Layer → Prop) (layer : Layer) (s : σ)
    (filled : Filled TransportError α σ) : Prop where
  result : filled.result = .ok ()
  usable : usable filled.state
  answer : held layer filled.state = some filled.buffer
  kept : Kept held P s filled.state

variable [Scalar α]

/-! ## What a client is given -/

namespace Client

variable {t : Transport σ α} {client : Client σ α} {key : Key}

theorem outcome_pull_tooLarge {shape : List Nat} (h : ¬ Shape.isAddressable shape = true) :
    (pull t key shape).outcome client = (.error (.tooLarge shape), client) := if_neg h

theorem outcome_pull_error {shape : List Nat} (h : Shape.isAddressable shape = true) {e : TransportError}
    (he : (t.pull key (List.replicate (Shape.size shape) 0) client.link).result = .error e) :
    (pull t key shape).outcome client = (.error (.error (.transport e)),
      { client with link := (t.pull key (List.replicate (Shape.size shape) 0) client.link).state }) := by
  refine (if_pos h).trans ?_
  simp only [received, he]

theorem outcome_pull_ok {shape : List Nat} (h : Shape.isAddressable shape = true)
    (hok : (t.pull key (List.replicate (Shape.size shape) 0) client.link).result = .ok ()) :
    ∃ value : Tensor α, (pull t key shape).outcome client = (.ok value,
        { client with link := (t.pull key (List.replicate (Shape.size shape) 0) client.link).state }) ∧
      value.shape = shape ∧ value.elements = (t.pull key (List.replicate (Shape.size shape) 0) client.link).buffer := by
  refine ⟨Tensor.ofList shape _ ((t.length_pull _ _ _).trans List.length_replicate), (if_pos h).trans ?_, rfl, rfl⟩
  simp only [received, hok]

variable {delta : Tensor α}

theorem outcome_pushAndPull_error {e : TransportError}
    (he : (t.push key delta.elements (List.replicate (Shape.size delta.shape) 0) client.link).result = .error e) :
    ∃ scratch, (pushAndPull t key delta).outcome client = (.error (.error (.transport e)),
      ⟨(t.push key delta.elements (List.replicate (Shape.size delta.shape) 0) client.link).state, scratch⟩) := by
  obtain ⟨scratch, hbuffer, houtcome⟩ := outcome_pushAndPull t key delta client
  refine ⟨scratch, houtcome.trans ?_⟩
  simp only [received, he]

theorem outcome_pushAndPull_ok
    (hok : (t.push key delta.elements (List.replicate (Shape.size delta.shape) 0) client.link).result = .ok ()) :
    ∃ scratch, ∃ value : Tensor α, (pushAndPull t key delta).outcome client = (.ok value,
        ⟨(t.push key delta.elements (List.replicate (Shape.size delta.shape) 0) client.link).state, scratch⟩) ∧
      value.shape = delta.shape ∧
      value.elements = (t.push key delta.elements (List.replicate (Shape.size delta.shape) 0) client.link).buffer := by
  obtain ⟨scratch, hbuffer, houtcome⟩ := outcome_pushAndPull t key delta client
  refine ⟨scratch, Tensor.ofList delta.shape _ hbuffer, houtcome.trans ?_, rfl, rfl⟩
  simp only [received, hok]

end Client

namespace Worker

omit [Scalar α] in
theorem exchange_liftExcept (e : Except Stop β) : (exchange (liftExcept e) : Work σ τ α β) = liftExcept e := by
  cases e <;> rfl

omit [Scalar α] in
/-- The parts of an exchange are exchanges of their own. -/
theorem outcome_exchange_bind (e : Exchange σ α γ) (f : γ → Exchange σ α β) (g : β → Work σ τ α δ) (w : Worker σ τ α) :
    outcome (exchange (e >>= f) >>= g) w = outcome (exchange e >>= fun c => exchange (f c) >>= g) w := by
  rw [outcome_bind, outcome_bind, outcome_exchange, outcome_exchange, Exchange.outcome_bind]
  rcases e.outcome w.client with ⟨stop | c, between⟩
  · rfl
  · dsimp only
    rw [outcome_bind, outcome_exchange]

end Worker

theorem Convention.shape_decayed {rate decay : α} {key : Key} {gradient weight delta : Tensor α}
    (h : decayed rate decay key gradient weight = .ok delta) : delta.shape = gradient.shape := by
  unfold decayed at h
  dsimp only at h
  split at h
  · cases h
    rfl
  · split at h
    · rename_i sum hsum
      cases h
      obtain ⟨repeated, -, hzip⟩ := Option.bind_eq_some_iff.1 hsum
      exact (Tensor.of_zip? hzip).2.1
    · cases h

omit [Scalar α] in
/-- Layers with keys of their own are told apart by them. -/
theorem eq_of_key_eq {layers : List Layer} (hkeys : (layers.map (·.key)).Nodup) {i j : Nat} {layer other : Layer}
    (hlayer : layers[i]? = some layer) (hother : layers[j]? = some other) (h : layer.key = other.key) : i = j := by
  refine (List.getElem?_inj ?_ hkeys).1 ?_
  · rw [List.length_map]
    exact (List.getElem?_eq_some_iff.1 hlayer).1
  · rw [List.getElem?_map, List.getElem?_map, hlayer, hother, Option.map_some, Option.map_some, h]

/-! ## Transports that keep layers -/

/-- A buffer for the elements of a layer. -/
def Layer.buffer (layer : Layer) : List α := List.replicate (Shape.size layer.shape) 0

/-- A transport that keeps some layers: a pull gives what is held for a layer, a push to a layer for which
something is held gives what is held after it, and neither this nor a push to the accumulator of a layer
changes what is held for another one. -/
structure Keeper (t : Transport σ α) (layers : List Layer) where
  usable : σ → Prop
  held : Layer → σ → Option (List α)
  fragile : Prop
  pull : ∀ layer ∈ layers, ∀ s, usable s →
    Breaks fragile (t.pull layer.key layer.buffer s) ∨
      Fills usable held (· ∈ layers) layer s (t.pull layer.key layer.buffer s)
  push : ∀ layer ∈ layers, Shape.isAddressable layer.shape = true → ∀ s, usable s → (held layer s).isSome = true →
    ∀ gradient : List α, gradient.length = Shape.size layer.shape →
      Breaks fragile (t.push layer.key gradient layer.buffer s) ∨
        Fills usable held (fun other => other ∈ layers ∧ other.key ≠ layer.key) layer s
          (t.push layer.key gradient layer.buffer s)
  partner : ∀ layer ∈ layers, Shape.isAddressable layer.shape = true → ∀ s, usable s → (held layer s).isSome = true →
    ∀ gradient : List α, gradient.length = Shape.size layer.shape →
      Breaks fragile (t.push layer.key.partner gradient layer.buffer s) ∨
        usable (t.push layer.key.partner gradient layer.buffer s).state ∧
          Kept held (· ∈ layers) s (t.push layer.key.partner gradient layer.buffer s).state

namespace Keeper

open Worker

variable {t : Transport σ α} {layers : List Layer} (k : Keeper t layers)

/-- A tensor has the shape of a layer and the elements that are held for it. -/
structure Copied (layer : Layer) (copy : Tensor α) (s : σ) : Prop where
  shape : copy.shape = layer.shape
  room : Shape.isAddressable layer.shape = true
  held : k.held layer s = some copy.elements

/-- The local copies of a worker are what is held for its layers, and its sums have the shapes of the
layers. Whoever is ready has a copy of every layer. -/
structure Holds (ready : Prop) (w : Worker σ τ α) : Prop where
  layers_eq : w.layers = layers
  usable : k.usable w.client.link
  copies : ∀ (i : Nat) (layer : Layer) copy, layers[i]? = some layer → w.params[i]? = some copy →
    k.Copied layer copy w.client.link
  sums : ∀ layer ∈ layers, ∀ sum, w.accumulator.sum? layer.key = some sum → sum.shape = layer.shape
  all : ready → w.params.length = layers.length

/-- How work of such a worker ends: well, or with a stop, and the copies are what is held; or with a request
that failed over a fragile link. -/
inductive Ends (ready : Prop) (P : β → Worker σ τ α → Prop) : Except Stop β × Worker σ τ α → Prop
  | ok {b : β} {w : Worker σ τ α} : k.Holds ready w → P b w → Ends ready P (.ok b, w)
  | stop {stop : Stop} {w : Worker σ τ α} : k.Holds ready w → Ends ready P (.error stop, w)
  | broken {e : TransportError} {w : Worker σ τ α} :
      k.fragile → Ends ready P (.error (.error (.transport e)), w)

/-- Work that keeps the local copies, and gives what `P` says. -/
def Keeps (ready : Prop) (work : Work σ τ α β) (P : β → Prop) : Prop :=
  ∀ w, k.Holds ready w → k.Ends ready (fun b _ => P b) (outcome work w)

variable {k} {ready : Prop} {w : Worker σ τ α}

namespace Ends

variable {P : β → Worker σ τ α → Prop} {Q : γ → Worker σ τ α → Prop}

theorem bind {work : Work σ τ α β} {f : β → Work σ τ α γ} (h : k.Ends ready P (outcome work w))
    (hrest : ∀ b w', k.Holds ready w' → P b w' → k.Ends ready Q (outcome (f b) w')) :
    k.Ends ready Q (outcome (work >>= f) w) := by
  rw [outcome_bind]
  generalize outcome work w = result at h
  cases h with
  | ok hholds hP => exact hrest _ _ hholds hP
  | stop hholds => exact .stop hholds
  | broken hfragile => exact .broken hfragile

theorem liftExcept_bind {e : Except Stop β} {f : β → Work σ τ α γ} (hw : k.Holds ready w)
    (hrest : ∀ b, e = .ok b → k.Ends ready Q (outcome (f b) w)) :
    k.Ends ready Q (outcome (liftExcept e >>= f) w) := by
  rw [outcome_bind]
  cases e with
  | error stop => exact .stop hw
  | ok b => exact hrest b rfl

end Ends

namespace Keeps

theorem bind {work : Work σ τ α β} {f : β → Work σ τ α γ} {P : β → Prop} {Q : γ → Prop}
    (h : k.Keeps ready work P) (hrest : ∀ b, P b → k.Keeps ready (f b) Q) : k.Keeps ready (work >>= f) Q :=
  fun w hw => (h w hw).bind fun b w' hw' hb => hrest b hb w' hw'

theorem pure {b : β} {P : β → Prop} (h : P b) : k.Keeps ready (pure b : Work σ τ α β) P := fun _ hw => .ok hw h

/-- What each round of a loop keeps the loop keeps. -/
theorem foldlM {f : β → γ → Work σ τ α β} {P : β → Prop} (hround : ∀ b c, P b → k.Keeps ready (f b c) P)
    (list : List γ) {b : β} (h : P b) : k.Keeps ready (list.foldlM f b) P := by
  induction list generalizing b with
  | nil => exact .pure h
  | cons c list ih =>
    rw [List.foldlM_cons]
    exact (hround b c h).bind fun next hnext => ih hnext

end Keeps

/-! ## Exchanges -/

/-- Only the copies, the link and the sums matter. -/
theorem Holds.congr (h : k.Holds ready w) {w' : Worker σ τ α} (hlayers : w'.layers = w.layers)
    (hparams : w'.params = w.params) (hclient : w'.client = w.client) (hsums : w'.accumulator = w.accumulator) :
    k.Holds ready w' :=
  ⟨hlayers.trans h.layers_eq, hclient ▸ h.usable, hparams ▸ hclient ▸ h.copies, hsums ▸ h.sums, hparams ▸ h.all⟩

/-- Another link under which all copies are still held. -/
theorem Holds.relink (h : k.Holds ready w) {client : Client σ α} (husable : k.usable client.link)
    (hkept : Kept k.held (· ∈ layers) w.client.link client.link) : k.Holds ready { w with client := client } := by
  refine ⟨h.layers_eq, husable, fun i layer copy hlayer hcopy => ?_, h.sums, h.all⟩
  obtain ⟨hshape, hroom, hheld⟩ := h.copies i layer copy hlayer hcopy
  exact ⟨hshape, hroom, hkept layer (List.mem_of_getElem? hlayer) _ hheld⟩

/-- A pull gives a copy. -/
theorem Holds.pull (h : k.Holds ready w) {layer : Layer} (hlayer : layer ∈ layers) :
    k.Ends ready (fun copy w' => k.Copied layer copy w'.client.link ∧
        Kept k.held (· ∈ layers) w.client.link w'.client.link)
      (outcome (exchange (Client.pull t layer.key layer.shape)) w) := by
  rw [outcome_exchange]
  by_cases hroom : Shape.isAddressable layer.shape = true
  · obtain ⟨hfragile, e, he⟩ | hfills := k.pull layer hlayer w.client.link h.usable
    · rw [Client.outcome_pull_error hroom he]
      exact .broken hfragile
    · obtain ⟨copy, houtcome, hshape, helements⟩ := Client.outcome_pull_ok hroom hfills.result
      rw [houtcome]
      exact .ok (h.relink hfills.usable hfills.kept)
        ⟨⟨hshape, hroom, hfills.answer.trans (congrArg some helements.symm)⟩, hfills.kept⟩
  · rw [Client.outcome_pull_tooLarge hroom]
    exact .stop h

variable {i : Nat} {layer : Layer} {weight delta : Tensor α}

/-- A push to the accumulator of a layer gives a tensor of the shape of what was pushed. -/
theorem Holds.partner (h : k.Holds ready w) (hlayer : layers[i]? = some layer) (hweight : w.params[i]? = some weight)
    (hshape : delta.shape = layer.shape) :
    k.Ends ready (fun velocity w' => velocity.shape = layer.shape ∧ w'.params = w.params)
      (outcome (exchange (Client.pushAndPull t layer.key.partner delta)) w) := by
  obtain ⟨-, hroom, hheld⟩ := h.copies i layer weight hlayer hweight
  have hpush := k.partner layer (List.mem_of_getElem? hlayer) hroom w.client.link h.usable (hheld ▸ rfl)
    delta.elements (delta.length_elements.trans (congrArg Shape.size hshape))
  rw [Layer.buffer, ← hshape] at hpush
  rw [outcome_exchange]
  rcases hresult : (t.push layer.key.partner delta.elements (List.replicate (Shape.size delta.shape) 0)
      w.client.link).result with e | ⟨⟩
  · obtain ⟨scratch, houtcome⟩ := Client.outcome_pushAndPull_error hresult
    rw [houtcome]
    obtain ⟨hfragile, -⟩ | ⟨husable, hkept⟩ := hpush
    · exact .broken hfragile
    · exact .stop (h.relink husable hkept)
  · obtain ⟨scratch, velocity, houtcome, hvelocity, -⟩ := Client.outcome_pushAndPull_ok hresult
    rw [houtcome]
    obtain ⟨-, e, he⟩ | ⟨husable, hkept⟩ := hpush
    · rw [hresult] at he
      cases he
    · exact .ok (h.relink husable hkept) ⟨hvelocity.trans hshape, rfl⟩

/-- A push to a layer gives the new copy. -/
theorem Holds.push (h : k.Holds ready w) (hkeys : (layers.map (·.key)).Nodup) (hlayer : layers[i]? = some layer)
    (hweight : w.params[i]? = some weight) (hshape : delta.shape = layer.shape) :
    k.Ends ready (fun _ _ => True) (outcome (exchange (Client.pushAndPull t layer.key delta) >>= fun value =>
      modify fun w => { w with params := w.params.set i value }) w) := by
  obtain ⟨-, hroom, hheld⟩ := h.copies i layer weight hlayer hweight
  have hpush := k.push layer (List.mem_of_getElem? hlayer) hroom w.client.link h.usable (hheld ▸ rfl)
    delta.elements (delta.length_elements.trans (congrArg Shape.size hshape))
  rw [Layer.buffer, ← hshape] at hpush
  rw [outcome_bind, outcome_exchange]
  obtain ⟨hfragile, e, he⟩ | hfills := hpush
  · obtain ⟨scratch, houtcome⟩ := Client.outcome_pushAndPull_error he
    rw [houtcome]
    exact .broken hfragile
  obtain ⟨scratch, value, houtcome, hvalue, helements⟩ := Client.outcome_pushAndPull_ok hfills.result
  rw [houtcome]
  refine .ok ⟨h.layers_eq, hfills.usable, fun j other copy hother hcopy => ?_, h.sums, fun hready => ?_⟩ trivial
  · by_cases hij : i = j
    · subst hij
      obtain rfl := Option.some.inj (hlayer.symm.trans hother)
      rw [List.getElem?_set_self (List.getElem?_eq_some_iff.1 hweight).1] at hcopy
      cases hcopy
      exact ⟨hvalue.trans hshape, hroom, hfills.answer.trans (congrArg some helements.symm)⟩
    · -- another layer has a key of its own, so the push has left it alone
      rw [List.getElem?_set_ne hij] at hcopy
      obtain ⟨hcopyShape, hcopyRoom, hcopyHeld⟩ := h.copies j other copy hother hcopy
      have hne : other.key ≠ layer.key := fun heq => hij (eq_of_key_eq hkeys hlayer hother heq.symm)
      exact ⟨hcopyShape, hcopyRoom, hfills.kept other ⟨List.mem_of_getElem? hother, hne⟩ _ hcopyHeld⟩
  · rw [List.length_set]
    exact h.all hready

/-! ## Layers -/

/-- A gradient of the shape of its layer is handed over. -/
theorem keeps_syncLayer (hkeys : (layers.map (·.key)).Nodup) (i : Nat) {gradient : Tensor α}
    (hfit : ∀ layer, layers[i]? = some layer → gradient.shape = layer.shape) :
    k.Keeps (τ := τ) ready (syncLayer t i gradient) fun _ => True := by
  intro w h
  rw [syncLayer, outcome_get_bind, h.layers_eq]
  rcases hlayer : layers[i]? with _ | layer
  · exact .stop h
  rcases hweight : w.params[i]? with _ | weight
  · exact .stop h
  have hshape := hfit layer hlayer
  dsimp only
  cases w.convention with
  | direct rate? =>
    cases rate? with
    | none => exact h.push hkeys hlayer hweight hshape
    | some rate => exact h.push hkeys hlayer hweight hshape
  | clientMomentum rate decay =>
    rw [Convention.sync, outcome_exchange_bind]
    -- a gradient that can not be decayed stops the work before anything is sent
    rw [exchange_liftExcept]
    refine Ends.liftExcept_bind h fun delta hdelta => ?_
    rw [outcome_exchange_bind]
    have hdecayed := (Convention.shape_decayed hdelta).trans hshape
    refine (h.partner hlayer hweight hdecayed).bind fun velocity w' h' hvelocity => ?_
    exact h'.push hkeys hlayer (hvelocity.2.symm ▸ hweight) hvelocity.1

/-- Gradients of the shapes of their layers are handed over, from the layer `i` on. -/
theorem keeps_syncAll (hkeys : (layers.map (·.key)).Nodup) {i : Nat} {gradients : List (Tensor α)}
    (hfit : ∀ j gradient layer, gradients[j]? = some gradient → layers[i + j]? = some layer →
      gradient.shape = layer.shape) :
    k.Keeps (τ := τ) ready (syncAll t i gradients) fun _ => True := by
  induction gradients generalizing i with
  | nil => exact .pure trivial
  | cons gradient gradients ih =>
    rw [syncAll]
    refine (keeps_syncLayer hkeys i fun layer hlayer => hfit 0 gradient layer rfl hlayer).bind fun _ _ => ?_
    refine ih fun j other layer hother hlayer => hfit (j + 1) other layer hother ?_
    rwa [Nat.add_assoc, Nat.add_comm 1] at hlayer

end Keeper

end ParamExchange
