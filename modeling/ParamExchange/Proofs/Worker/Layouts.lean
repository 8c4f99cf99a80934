/-
Layouts of tensors. What the servers are sent of a tensor are its elements at the multi-indices of its shape, the
last axis running fastest, whether its memory is sent as it lies or is copied first, and whatever was copied before;
what comes back is a tensor of the same shape with the answer at the places of that order. Under every convention the
tensors that are pushed for a gradient have their elements from those of the gradient at the same multi-indices, so
the servers see nothing of how the gradient or the local copy lie in memory.
-/
import ParamExchange.Proofs.Tensor.Views
import ParamExchange.Proofs.Worker.Exchanges

namespace ParamExchange

variable {σ α : Type} [Scalar α]

/-! ## Pushes -/

namespace Client

/-- What becomes of a filled buffer: the failure of the request, or the tensor of a shape that has each number of the
buffer at the multi-index of its place in row-major order. -/
def Returns (shape : List Nat) (filled : Filled TransportError α σ) (result : Except Stop (Tensor α)) : Prop :=
  match filled.result with
  | .error e => result = .error (.error (.transport e))
  | .ok () => ∃ value, result = .ok value ∧ value.shape = shape ∧
      ∀ index ∈ Shape.indices shape, filled.buffer[Shape.offset shape index]? = some (value.element index)

/-- `HandsOver t key shape element link result after`: over a link, a tensor is handed over for the value of a key.
The tensor is told by its shape and its elements. The transport is asked once, with the elements in row-major order
and a buffer of zeros. -/
def HandsOver (t : Transport σ α) (key : Key) (shape : List Nat) (element : List Nat → α) (link : σ)
    (result : Except Stop (Tensor α)) (after : σ) : Prop :=
  let filled := t.push key ((Shape.indices shape).map element) (List.replicate (Shape.size shape) 0) link
  after = filled.state ∧ Returns shape filled result

theorem returns_received (shape : List Nat) (filled : Filled TransportError α σ)
    (h : filled.buffer.length = Shape.size shape) : Returns shape filled (received shape filled h) := by
  obtain ⟨e | ⟨⟩, buffer, state⟩ := filled
  · rfl
  · exact ⟨_, rfl, rfl, fun index hindex => Tensor.getElem?_elements (t := .ofList shape buffer h) hindex⟩

/-- A tensor is handed over with the elements that it has at its multi-indices. -/
theorem handsOver_pushAndPull (t : Transport σ α) (key : Key) (delta : Tensor α) (client : Client σ α) :
    let done := (pushAndPull t key delta).outcome client
    HandsOver t key delta.shape delta.element client.link done.1 done.2.link := by
  obtain ⟨scratch, hbuffer, houtcome⟩ := outcome_pushAndPull t key delta client
  rw [houtcome, HandsOver, ← delta.elements_eq_map]
  exact ⟨rfl, returns_received _ _ _⟩

/-- Only elements at multi-indices of the shape are handed over. -/
theorem HandsOver.congr {t : Transport σ α} {key : Key} {shape : List Nat} {element other : List Nat → α}
    {link after : σ} {result : Except Stop (Tensor α)} (h : HandsOver t key shape element link result after)
    (hsame : ∀ index ∈ Shape.indices shape, element index = other index) :
    HandsOver t key shape other link result after := by
  rwa [HandsOver, ← List.map_congr_left hsame]

end Client

/-! ## Conventions -/

namespace Convention

/-- The element that is pushed to an accumulator: the scaled one of the gradient, and for all but biases the weight
that is repeated there, times the decay. -/
def decayedElement (rate decay : α) (key : Key) (gradient weight : Tensor α) (index : List Nat) : α :=
  if key.role = .bias then gradient.element index * rate
  else gradient.element index * rate + rate * decay * weight.element (Shape.source weight.shape index)

/-- Whether the weight takes no part, or can be repeated to the shape of the gradient. -/
def CanDecay (key : Key) (gradient weight : Tensor α) : Prop :=
  key.role = .bias ∨ Shape.fits weight.shape gradient.shape = true

/-- `Syncs t key gradient weight convention link result after`: what is handed over for a gradient. The gradient
itself or the scaled one goes to the key. With client momentum the decayed one goes to the partner and the answer
to the key, or nothing goes anywhere if the weight can not be repeated. -/
inductive Syncs (t : Transport σ α) (key : Key) (gradient weight : Tensor α) :
    Convention α → σ → Except Stop (Tensor α) → σ → Prop
  | plain {link after : σ} {result : Except Stop (Tensor α)} :
    Client.HandsOver t key gradient.shape gradient.element link result after →
    Syncs t key gradient weight (direct none) link result after
  | scaled {rate : α} {link after : σ} {result : Except Stop (Tensor α)} :
    Client.HandsOver t key gradient.shape (fun index => gradient.element index * -rate) link result after →
    Syncs t key gradient weight (direct (some rate)) link result after
  | refused {rate decay : α} {link : σ} : ¬ CanDecay key gradient weight →
    Syncs t key gradient weight (clientMomentum rate decay) link
      (.error (.cannotBroadcast weight.shape gradient.shape)) link
  | failed {rate decay : α} {link after : σ} {stop : Stop} : CanDecay key gradient weight →
    Client.HandsOver t key.partner gradient.shape (decayedElement rate decay key gradient weight) link (.error stop)
      after →
    Syncs t key gradient weight (clientMomentum rate decay) link (.error stop) after
  | passed {rate decay : α} {link between after : σ} {velocity : Tensor α} {result : Except Stop (Tensor α)} :
    CanDecay key gradient weight →
    Client.HandsOver t key.partner gradient.shape (decayedElement rate decay key gradient weight) link (.ok velocity)
      between →
    Client.HandsOver t key velocity.shape velocity.element between result after →
    Syncs t key gradient weight (clientMomentum rate decay) link result after

/-- What is pushed to an accumulator has the shape of the gradient and the decayed elements. -/
theorem decayed_cases (rate decay : α) (key : Key) (gradient weight : Tensor α) :
    (¬ CanDecay key gradient weight ∧
      decayed rate decay key gradient weight = .error (.cannotBroadcast weight.shape gradient.shape)) ∨
    ∃ delta, CanDecay key gradient weight ∧ decayed rate decay key gradient weight = .ok delta ∧
      delta.shape = gradient.shape ∧
      ∀ index ∈ Shape.indices gradient.shape,
        delta.element index = decayedElement rate decay key gradient weight index := by
  have hscaled : ∀ index ∈ Shape.indices gradient.shape,
      (gradient.scale rate).element index = gradient.element index * rate := fun index hindex =>
    Tensor.element_map _ hindex
  by_cases hbias : key.role = .bias
  · refine .inr ⟨gradient.scale rate, .inl hbias, by rw [decayed, if_pos hbias], rfl, fun index hindex => ?_⟩
    rw [decayedElement, if_pos hbias, hscaled index hindex]
  rw [decayed, if_neg hbias, Tensor.scaledAdd?]
  rcases hrepeated : weight.broadcast? (gradient.scale rate).shape with _ | repeated
  · have hfits : Shape.fits weight.shape gradient.shape = false := Tensor.broadcast?_eq_none_iff.1 hrepeated
    exact .inl ⟨fun h => h.elim hbias (by simp [hfits]), rfl⟩
  · have hfits : Shape.fits weight.shape gradient.shape = true := by
      rw [← Bool.not_eq_false, ← Tensor.broadcast?_eq_none_iff (t := weight)]
      exact fun hnone => nomatch hnone.symm.trans hrepeated
    obtain ⟨hshape, helements⟩ := Tensor.of_broadcast? hrepeated
    obtain ⟨sum, hsum⟩ := Tensor.exists_zip? (fun y x => y + rate * decay * x) hshape
    rw [Option.bind_some, hsum]
    refine .inr ⟨sum, .inr hfits, rfl, (Tensor.of_zip? hsum).2.1, fun index hindex => ?_⟩
    rw [Tensor.element_of_zip? hsum hindex, hscaled index hindex, helements index hindex, decayedElement, if_neg hbias]

/-- A gradient is handed over as its convention says. -/
theorem syncs_sync (convention : Convention α) (t : Transport σ α) (key : Key) (gradient weight : Tensor α)
    (client : Client σ α) :
    let done := (convention.sync t key gradient weight).outcome client
    Syncs t key gradient weight convention client.link done.1 done.2.link := by
  cases convention with
  | direct rate? =>
    cases rate? with
    | none => exact .plain (Client.handsOver_pushAndPull t key gradient client)
    | some rate =>
      refine .scaled ((Client.handsOver_pushAndPull t key (gradient.scale (-rate)) client).congr fun index hindex => ?_)
      exact Tensor.element_map _ hindex
  | clientMomentum rate decay =>
    intro done
    simp only [done, sync]
    rw [Exchange.outcome_bind, Exchange.outcome_liftExcept]
    obtain ⟨hcannot, hdecayed⟩ | ⟨delta, hcan, hdecayed, hshape, helements⟩ :=
      decayed_cases rate decay key gradient weight
    · rw [hdecayed]
      exact .refused hcannot
    -- the push to the partner, and what it hands on to the push to the key
    have hfirst := Client.handsOver_pushAndPull t key.partner delta client
    rw [hshape] at hfirst
    have hfirst := Client.HandsOver.congr hfirst helements
    rw [hdecayed]
    dsimp only
    rw [Exchange.outcome_bind]
    rcases hpush : (Client.pushAndPull t key.partner delta).outcome client with ⟨stop | velocity, between⟩
    · rw [hpush] at hfirst
      exact .failed hcan hfirst
    · rw [hpush] at hfirst
      exact .passed hcan hfirst (Client.handsOver_pushAndPull t key velocity between)

end Convention

/-! ## Layouts -/

/-- The layout of a tensor is invisible to the servers. A tensor lies in row-major order, with the listed elements at
the places of that order, or is the view of such a one with all axes reversed, with the same elements at the reversed
multi-indices. A client sends its elements at the multi-indices of its shape, the last axis running fastest: its
memory if that is contiguous, or else a copy that replaces what was copied before. So a push hands over these
elements, and under every convention what is handed over for a gradient has its elements from those of the gradient
and of the local copy. -/
theorem layout_invisible (t : Transport σ α) (key : Key) (client : Client σ α) :
    (∀ (shape : List Nat) (xs : List α) (h : xs.length = Shape.size shape), ∀ index ∈ Shape.indices shape,
      (Tensor.ofList shape xs h).get? index = xs[Shape.offset shape index]? ∧
      (Tensor.ofList shape xs h).reverseAxes.get? index.reverse = xs[Shape.offset shape index]?) ∧
    (∀ delta : Tensor α,
      (∃ shape xs h, delta = .ofList shape xs h ∨ delta = (Tensor.ofList shape xs h).reverseAxes) ∧
      (∀ index ∈ Shape.indices delta.shape, delta.get? index = some (delta.element index)) ∧
      (client.staged delta).1 = (Shape.indices delta.shape).map delta.element ∧
      (∀ xs, delta.slice? = some xs → xs = (Shape.indices delta.shape).map delta.element) ∧
      (delta.slice? = none → (client.staged delta).2.scratch = (Shape.indices delta.shape).map delta.element) ∧
      let done := (Client.pushAndPull t key delta).outcome client
      Client.HandsOver t key delta.shape delta.element client.link done.1 done.2.link) ∧
    ∀ (convention : Convention α) (gradient weight : Tensor α),
      let done := (convention.sync t key gradient weight).outcome client
      convention.Syncs t key gradient weight client.link done.1 done.2.link := by
  refine ⟨fun shape xs h index hindex => ?_, fun delta => ?_, fun convention gradient weight => ?_⟩
  · have hlisted := Tensor.getElem?_elements (t := .ofList shape xs h) hindex
    constructor
    · exact (Tensor.get?_eq_some_element hindex).trans hlisted.symm
    · rw [Tensor.get?_eq_some_element (Shape.reverse_mem_indices hindex), Tensor.element_reverseAxes hindex]
      exact hlisted.symm
  · refine ⟨delta.exists_ofList, fun index hindex => Tensor.get?_eq_some_element hindex, ?_, fun xs hslice => ?_,
      fun hslice => ?_, Client.handsOver_pushAndPull t key delta client⟩
    · rw [(client.staged_eq delta).1, delta.elements_eq_map]
    · obtain ⟨hcontiguous, rfl⟩ := Tensor.slice?_eq_some_iff.1 hslice
      rw [← Tensor.elements_of_isContiguous hcontiguous, delta.elements_eq_map]
    · rw [Client.staged, hslice, delta.elements_eq_map]
  · exact convention.syncs_sync t key gradient weight client

/-- A square whose axes are reversed. -/
def reversedSquare : Tensor Single :=
  (Tensor.ofList [2, 2] [⟨0x3F800000⟩, ⟨0x40000000⟩, ⟨0x40400000⟩, ⟨0x40800000⟩] rfl).reverseAxes

/-- A client that copied something before, over a store whose parameters start with ones. -/
def usedClient : Client (Store Single) Single :=
  ⟨.empty ⟨fun _ n => List.replicate n ⟨0x3F800000⟩, .additive, 0⟩, [⟨0x40E00000⟩]⟩

/-- The columns of the square are sent one after another, and the sums come back in their places. -/
theorem layout_invisible_square :
    let key := Key.ofRole .weight 3
    let done := (Client.pushAndPull .ofStore key reversedSquare).outcome usedClient
    reversedSquare.slice? = none ∧
    (usedClient.staged reversedSquare).1 = [⟨0x3F800000⟩, ⟨0x40400000⟩, ⟨0x40000000⟩, ⟨0x40800000⟩] ∧
    Client.HandsOver .ofStore key [2, 2] reversedSquare.element usedClient.link done.1 done.2.link ∧
    ∃ value, done.1 = .ok value ∧ value.shape = [2, 2] ∧
      (Shape.indices [2, 2]).map value.element = [⟨0x40000000⟩, ⟨0x40800000⟩, ⟨0x40400000⟩, ⟨0x40A00000⟩] := by
  intro key done
  obtain ⟨-, hpushes, -⟩ := layout_invisible .ofStore key usedClient
  obtain ⟨-, -, hsent, -, -, hdone⟩ := hpushes reversedSquare
  have hvalue : done.1 =
      .ok (.ofList [2, 2] [⟨0x40000000⟩, ⟨0x40800000⟩, ⟨0x40400000⟩, ⟨0x40A00000⟩] rfl) := by decide +kernel
  exact ⟨by decide, hsent.trans (by decide), hdone, _, hvalue, rfl, by decide⟩

end ParamExchange
