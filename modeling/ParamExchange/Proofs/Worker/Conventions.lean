/-
Conventions that agree. Over exact numbers it does not matter whether the learning rate and the momentum
are applied on the worker or on the server: a worker that scales its gradients, against a server that only
adds, gets the parameters that a server gives which scales what it gets; and a worker that keeps the
momentum under the partner of a key gets those of a server with a velocity of its own. What couples the two
servers is that the accumulator is the velocity times the negated learning rate. A push keeps this, and a
run keeps it by induction on the gradients.
-/
import ParamExchange.Proofs.Key.Partners
import ParamExchange.Proofs.Store.Meets
import ParamExchange.Proofs.Worker.Exchanges

namespace ParamExchange

variable {σ υ α : Type} [Scalar α]

/-! ## Pushes -/

/-- A tensor that is pushed to a store at hand is answered with the new values of the parameter, and no
other parameter is changed. -/
theorem Client.outcome_pushAndPull_ofStore {client : Client (Store α) α} {key : Key} {values next : List α}
    {rule after : Rule α} (h : client.link.Meets ⟨key, values, rule⟩) (delta : Tensor α)
    (hsize : Shape.size delta.shape = values.length) (hpush : rule.push delta.elements values = .ok (next, after)) :
    ∃ hlen client', (Client.pushAndPull Transport.ofStore key delta).outcome client =
        (.ok (Tensor.ofList delta.shape next hlen), client') ∧
      client'.link.Meets ⟨key, next, after⟩ ∧
      ∀ entry, client.link.Meets entry → entry.key.name ≠ key.name → client'.link.Meets entry := by
  obtain ⟨store, hserves⟩ := h.serves (delta.length_elements.trans hsize) hpush
  obtain ⟨scratch, hbuffer, houtcome⟩ := outcome_pushAndPull Transport.ofStore key delta client
  have hfilled : Transport.ofStore.push key delta.elements (List.replicate (Shape.size delta.shape) 0)
      client.link = ⟨.ok (), next, store⟩ := by
    have hrequest := hserves.request (List.replicate (Shape.size delta.shape) 0) (by simp [hsize])
    exact congrArg (Filled.mapError TransportError.store) hrequest
  refine ⟨by simpa only [hfilled] using hbuffer, ⟨store, scratch⟩, ?_, hserves.sets.meets,
    fun entry hentry hne => hentry.sets hserves.sets hne⟩
  rw [houtcome]
  simp only [hfilled]
  rfl

/-! ## Runs -/

/-- Pushes gradients of a parameter one after another, each with the local copy that the one before left,
and gives the values after each. -/
def Convention.syncEach (convention : Convention α) (t : Transport σ α) (key : Key) :
    List (Tensor α) → Tensor α → Exchange σ α (List (Tensor α))
  | [], _ => pure []
  | gradient :: rest, weight => do
    let value ← convention.sync t key gradient weight
    let values ← syncEach convention t key rest value
    pure (value :: values)

/-- `StepsAlike shape R first second`: from clients that are related, a gradient and a local copy of the
shape get one answer of the shape under both conventions, and leave clients that are related. -/
def StepsAlike (shape : List Nat) (R : Client σ α → Client υ α → Prop)
    (first : Tensor α → Tensor α → Exchange σ α (Tensor α)) (second : Tensor α → Tensor α → Exchange υ α (Tensor α)) :
    Prop :=
  ∀ c d gradient weight, R c d → gradient.shape = shape → weight.shape = shape →
    ∃ value c' d', value.shape = shape ∧ (first gradient weight).outcome c = (.ok value, c') ∧
      (second gradient weight).outcome d = (.ok value, d') ∧ R c' d'

/-- What every step keeps a run keeps. -/
theorem StepsAlike.run {shape : List Nat} {R : Client σ α → Client υ α → Prop} {t : Transport σ α}
    {u : Transport υ α} {first second : Convention α} {key : Key}
    (h : StepsAlike shape R (first.sync t key) (second.sync u key)) {gradients : List (Tensor α)}
    (hgradients : ∀ gradient ∈ gradients, gradient.shape = shape) {weight : Tensor α} (hweight : weight.shape = shape)
    {c : Client σ α} {d : Client υ α} (hR : R c d) :
    ∃ values c' d', (first.syncEach t key gradients weight).outcome c = (.ok values, c') ∧
      (second.syncEach u key gradients weight).outcome d = (.ok values, d') ∧ R c' d' := by
  induction gradients generalizing weight c d with
  | nil => exact ⟨[], c, d, rfl, rfl, hR⟩
  | cons gradient gradients ih =>
    obtain ⟨hgradient, hgradients⟩ := List.forall_mem_cons.1 hgradients
    obtain ⟨value, c₁, d₁, hvalue, hc, hd, hR₁⟩ := h c d gradient weight hR hgradient hweight
    obtain ⟨values, c₂, d₂, hcs, hds, hR₂⟩ := ih hgradients hvalue hR₁
    refine ⟨value :: values, c₂, d₂, ?_, ?_, hR₂⟩
    · rw [Convention.syncEach, Exchange.outcome_bind_ok hc, Exchange.outcome_bind_ok hcs, Exchange.outcome_pure]
    · rw [Convention.syncEach, Exchange.outcome_bind_ok hd, Exchange.outcome_bind_ok hds, Exchange.outcome_pure]

/-! ## Couplings -/

variable {key : Key} {rate momentum : Rat} {shape : List Nat} {c d : Client (Store Rat) Rat}

/-- A parameter has the same values on a server that adds and on one that descends. -/
structure Descends (key : Key) (rate : Rat) (shape : List Nat) (c d : Client (Store Rat) Rat) (values : List Rat) :
    Prop where
  length : values.length = Shape.size shape
  adding : c.link.Meets ⟨key, values, .additive⟩
  descending : d.link.Meets ⟨key, values, .descent rate⟩

/-- A parameter has the same values on a server that adds and on one that descends with a velocity, and
the accumulator of the first server is the velocity times the negated learning rate. -/
structure Glides (key : Key) (rate momentum : Rat) (shape : List Nat) (c d : Client (Store Rat) Rat)
    (values velocity : List Rat) : Prop where
  length : values.length = Shape.size shape
  length_velocity : velocity.length = Shape.size shape
  adding : c.link.Meets ⟨key, values, .additive⟩
  accumulating : c.link.Meets ⟨key.partner, velocity.map (-rate * ·), .accumulate momentum⟩
  gliding : d.link.Meets ⟨key, values, .momentumDescent rate momentum velocity⟩

namespace Rule

variable {gradient values velocity : List Rat}

/-- Adding the gradient times the negated rate is descending. -/
theorem push_additive_scaled (rate : Rat) (h : values.length = gradient.length) :
    additive.push (gradient.map (· * -rate)) values =
      .ok (List.zipWith (fun p g => p - rate * g) values gradient, additive) := by
  rw [push_additive (by simpa using h), List.zipWith_map_right]
  congr
  funext p g
  ring

theorem push_additive_velocity (rate : Rat) (h : values.length = velocity.length) :
    additive.push (velocity.map (-rate * ·)) values =
      .ok (List.zipWith (fun p v => p - rate * v) values velocity, additive) := by
  rw [push_additive (by simpa using h), List.zipWith_map_right]
  congr
  funext p v
  ring

/-- An accumulator that is the velocity times the negated rate stays it. -/
theorem push_accumulate_scaled (rate momentum : Rat) (h : velocity.length = gradient.length) :
    (accumulate momentum).push (gradient.map (· * rate)) (velocity.map (-rate * ·)) =
      .ok ((List.zipWith (fun v g => momentum * v + g) velocity gradient).map (-rate * ·), accumulate momentum) := by
  rw [push_accumulate (by simpa using h), List.zipWith_map, List.map_zipWith]
  congr
  funext v g
  ring

end Rule

/-- Without weight decay the scaled gradient is pushed, also for a weight. -/
theorem Convention.decayed_zero (rate : Rat) (key : Key) {gradient weight : Tensor Rat}
    (h : weight.shape = gradient.shape) :
    ∃ delta, decayed rate 0 key gradient weight = .ok delta ∧ delta.shape = gradient.shape ∧
      delta.elements = gradient.elements.map (· * rate) := by
  unfold decayed
  by_cases hbias : key.role = .bias
  · rw [if_pos hbias]
    exact ⟨_, rfl, rfl, Tensor.elements_map _ _⟩
  · rw [if_neg hbias]
    have hbroadcast : weight.broadcast? (gradient.scale rate).shape = some weight := if_pos h
    obtain ⟨delta, hdelta⟩ := Tensor.exists_zip? (fun y x => y + rate * 0 * x) (t := gradient.scale rate) h
    have hadd : (gradient.scale rate).scaledAdd? (rate * 0) weight = some delta := by
      rw [Tensor.scaledAdd?, hbroadcast, Option.bind_some]
      exact hdelta
    refine ⟨delta, ?_, (Tensor.of_zip? hdelta).2.1, ?_⟩
    · rw [hadd]
    · have hlen : gradient.elements.length = weight.elements.length := by
        rw [gradient.length_elements, weight.length_elements, h]
      rw [Tensor.elements_zip? hdelta, Tensor.scale, Tensor.elements_map]
      apply List.ext_getElem
      · simp [hlen]
      · simp

/-! ## Steps -/

theorem stepsAlike_direct (key : Key) (rate : Rat) (shape : List Nat) :
    StepsAlike shape (fun c d => ∃ values, Descends key rate shape c d values)
      ((Convention.direct (some rate)).sync Transport.ofStore key)
      ((Convention.direct none).sync Transport.ofStore key) := by
  rintro c d gradient weight ⟨values, h⟩ rfl -
  have hlen : values.length = gradient.elements.length := h.length.trans gradient.length_elements.symm
  have hscaled : Rule.additive.push (gradient.scale (-rate)).elements values =
      .ok (List.zipWith (fun p g => p - rate * g) values gradient.elements, .additive) := by
    rw [Tensor.scale, Tensor.elements_map]
    exact Rule.push_additive_scaled rate hlen
  obtain ⟨hsize, c', hc, hadding, -⟩ := Client.outcome_pushAndPull_ofStore h.adding (gradient.scale (-rate))
    h.length.symm hscaled
  obtain ⟨_, d', hd, hdescending, -⟩ := Client.outcome_pushAndPull_ofStore h.descending gradient
    h.length.symm (Rule.push_descent hlen)
  exact ⟨Tensor.ofList gradient.shape _ hsize, c', d', rfl, hc, hd, _, hsize, hadding, hdescending⟩

theorem stepsAlike_momentum {key : Key} (hkey : Key.ofName key.name = .ok key) (rate momentum : Rat)
    (shape : List Nat) :
    StepsAlike shape (fun c d => ∃ values velocity, Glides key rate momentum shape c d values velocity)
      ((Convention.clientMomentum rate 0).sync Transport.ofStore key)
      ((Convention.direct none).sync Transport.ofStore key) := by
  rintro c d gradient weight ⟨values, velocity, h⟩ rfl hweight
  have hlen : values.length = gradient.elements.length := h.length.trans gradient.length_elements.symm
  have hv : velocity.length = gradient.elements.length := h.length_velocity.trans gradient.length_elements.symm
  have hne := Key.name_partner_ne hkey
  obtain ⟨delta, hdecayed, hshape, hdelta⟩ := Convention.decayed_zero rate key hweight
  -- the accumulator is pushed first and answers with its new value
  have haccumulate := Rule.push_accumulate_scaled rate momentum hv
  rw [← hdelta] at haccumulate
  obtain ⟨hsize₁, c₁, hc₁, haccumulating₁, hothers₁⟩ := Client.outcome_pushAndPull_ofStore h.accumulating delta
    (by simp [hshape, h.length_velocity]) haccumulate
  have hlen' : values.length = (List.zipWith (fun v g => momentum * v + g) velocity gradient.elements).length := by
    simp [hlen, hv]
  -- what it answered is then pushed to the parameter
  obtain ⟨hsize₂, c₂, hc₂, hadding₂, hothers₂⟩ := Client.outcome_pushAndPull_ofStore
    (hothers₁ _ h.adding hne.symm) (Tensor.ofList delta.shape _ hsize₁) (by simp [hshape, h.length])
    (Rule.push_additive_velocity rate hlen')
  obtain ⟨_, d', hd, hgliding, -⟩ := Client.outcome_pushAndPull_ofStore h.gliding gradient h.length.symm
    (Rule.push_momentumDescent hlen hv)
  refine ⟨Tensor.ofList delta.shape _ hsize₂, c₂, d', hshape, ?_, ?_, _, _, ?_, ?_, hadding₂,
    hothers₂ _ haccumulating₁ hne, hgliding⟩
  · rw [Convention.sync, Exchange.outcome_bind_ok (by rw [hdecayed, Exchange.outcome_liftExcept]),
      Exchange.outcome_bind_ok hc₁]
    exact hc₂
  · simp only [hshape]
    exact hd
  · rw [hsize₂]
    exact congrArg Shape.size hshape
  · rw [← hlen', h.length]

/-! ## Agreement -/

/-- The update conventions agree over exact numbers, for a weight or a bias, whatever its initial values,
the rate, the momentum and the gradients are. Pushing gradients times the negated rate to a server that
adds gives the same values, one after each gradient, as pushing the gradients to a server that descends.
Momentum on the client without weight decay, against a server that adds and whose accumulators decay with
the momentum, gives the same values as pushing the gradients to a server that descends with momentum; and
the accumulator is the velocity of the other server times the negated rate, after every gradient. -/
theorem conventions_agree (key : Key) (hkey : Key.ofName key.name = .ok key) (hrole : key.role.isMomentum = false)
    (initial : List Rat) (rate momentum : Rat) (weight : Tensor Rat) (gradients : List (Tensor Rat))
    (hinitial : initial.length = Shape.size weight.shape)
    (hgradients : ∀ gradient ∈ gradients, gradient.shape = weight.shape) (c d : Client (Store Rat) Rat)
    (hadding : c.link.plan.update = .additive) (hc : c.link.Unpushed key initial) (hd : d.link.Unpushed key initial) :
    (d.link.plan.update = .descent rate →
      ∃ values c' d',
        ((Convention.direct (some rate)).syncEach Transport.ofStore key gradients weight).outcome c = (.ok values, c') ∧
        ((Convention.direct none).syncEach Transport.ofStore key gradients weight).outcome d = (.ok values, d')) ∧
    (d.link.plan.update = .momentumDescent rate momentum → c.link.plan.momentum = momentum →
      c.link.Unpushed key.partner (List.replicate initial.length 0) →
      ∃ values c' d' final velocity,
        ((Convention.clientMomentum rate 0).syncEach Transport.ofStore key gradients weight).outcome c =
          (.ok values, c') ∧
        ((Convention.direct none).syncEach Transport.ofStore key gradients weight).outcome d = (.ok values, d') ∧
        c'.link.Meets ⟨key, final, .additive⟩ ∧
        c'.link.Meets ⟨key.partner, velocity.map (-rate * ·), .accumulate momentum⟩ ∧
        d'.link.Meets ⟨key, final, .momentumDescent rate momentum velocity⟩) := by
  have hmeets := hc.meets hkey
  have hother := hd.meets hkey
  simp only [Rule.ofRole, hrole, Bool.false_eq_true, if_false, hadding] at hmeets hother
  constructor
  · intro hdescent
    rw [hdescent] at hother
    obtain ⟨values, c', d', hcs, hds, -⟩ := (stepsAlike_direct key rate weight.shape).run hgradients rfl
      ⟨initial, hinitial, hmeets, hother⟩
    exact ⟨values, c', d', hcs, hds⟩
  · intro hmomentum hdecay hpartner
    rw [hmomentum] at hother
    have haccumulating := hpartner.meets (Key.ofName_partner key)
    have hrole' : key.partner.role.isMomentum = true := by
      show key.role.partner.isMomentum = true
      rw [Key.isMomentum_partner, hrole]
      rfl
    simp only [Rule.ofRole, hrole', if_true, hdecay] at haccumulating
    have hzeros : (List.replicate initial.length (0 : Rat)).map (-rate * ·) = List.replicate initial.length 0 := by
      rw [List.map_replicate]
      congr 1
      exact mul_zero (-rate)
    obtain ⟨values, c', d', hcs, hds, final, velocity, hglides⟩ :=
      (stepsAlike_momentum hkey rate momentum weight.shape).run hgradients rfl
        ⟨initial, List.replicate initial.length 0, hinitial, by simp [hinitial], hmeets,
          by rwa [hzeros], hother⟩
    exact ⟨values, c', d', final, velocity, hcs, hds, hglides.adding, hglides.accumulating,
      hglides.gliding⟩

/-- A square of ones. -/
def squareOfOnes : Tensor Rat := Tensor.ofList [2, 2] [1, 1, 1, 1] rfl

/-- A client of an empty store whose weights start with ones and whose accumulators start with zeros. -/
def clientOfOnes (update : Update Rat) : Client (Store Rat) Rat :=
  .ofLink (.empty ⟨fun key n => List.replicate n (if key.role.isMomentum then 0 else 1), update, 3 / 4⟩)

/-- The conventions agree on a weight after two gradients, the second one in column-major order. -/
theorem conventions_agree_square :
    let gradients : List (Tensor Rat) := [squareOfOnes, (Tensor.ofList [2, 2] [1, 2, 3, 4] rfl).reverseAxes]
    let run (convention : Convention Rat) (update : Update Rat) :=
      (convention.syncEach Transport.ofStore (Key.ofRole .weight 0) gradients squareOfOnes).outcome
        (clientOfOnes update)
    (∃ values c' d', run (.direct (some (1 / 4))) .additive = (.ok values, c') ∧
      run (.direct none) (.descent (1 / 4)) = (.ok values, d')) ∧
    ∃ values c' d', run (.clientMomentum (1 / 4) 0) .additive = (.ok values, c') ∧
      run (.direct none) (.momentumDescent (1 / 4) (3 / 4)) = (.ok values, d') := by
  intro gradients run
  have hshapes : ∀ gradient ∈ gradients, gradient.shape = squareOfOnes.shape := by
    intro gradient hgradient
    simp only [gradients, List.mem_cons, List.not_mem_nil, or_false] at hgradient
    rcases hgradient with rfl | rfl <;> rfl
  have hkey := Key.ofName_ofRole .weight 0
  have hweight : ∀ update, (clientOfOnes update).link.Unpushed (Key.ofRole .weight 0) [1, 1, 1, 1] :=
    fun update => ⟨rfl, nofun⟩
  have hpartner : ∀ update, (clientOfOnes update).link.Unpushed (Key.ofRole .weight 0).partner
      (List.replicate 4 0) := fun update => ⟨rfl, nofun⟩
  constructor
  · exact (conventions_agree _ hkey rfl [1, 1, 1, 1] (1 / 4) (3 / 4) squareOfOnes gradients rfl hshapes
      (clientOfOnes .additive) (clientOfOnes (.descent (1 / 4))) rfl (hweight _) (hweight _)).1 rfl
  · obtain ⟨values, c', d', -, -, hc, hd, -⟩ := (conventions_agree _ hkey rfl [1, 1, 1, 1] (1 / 4) (3 / 4)
      squareOfOnes gradients rfl hshapes (clientOfOnes .additive) (clientOfOnes (.momentumDescent (1 / 4) (3 / 4)))
      rfl (hweight _) (hweight _)).2 rfl rfl (hpartner _)
    exact ⟨values, c', d', hc, hd⟩

end ParamExchange
