/-
Exchanges of a client. What is pushed are the elements of a tensor, whatever its memory is, so two
clients over the same link that push tensors with the same elements get the same answer and end over the
same link; only what they copied last may differ.
-/
import ParamExchange.Proofs.Tensor.Layout
import ParamExchange.Proofs.Worker.Work

namespace ParamExchange

variable {σ α β γ : Type}

/-! ## Parts -/

namespace Exchange

@[simp] theorem outcome_pure (b : β) (client : Client σ α) :
    (pure b : Exchange σ α β).outcome client = (.ok b, client) := rfl

@[simp] theorem outcome_liftExcept (e : Except Stop β) (client : Client σ α) :
    (liftExcept e : Exchange σ α β).outcome client = (e, client) := by
  cases e <;> rfl

theorem outcome_bind (e : Exchange σ α γ) (f : γ → Exchange σ α β) (client : Client σ α) :
    (e >>= f).outcome client =
      match e.outcome client with
      | (.ok c, between) => (f c).outcome between
      | (.error stop, between) => (.error stop, between) := by
  show ExceptT.bindCont (fun c => f c) (e.outcome client).1 (e.outcome client).2 = _
  rcases e.outcome client with ⟨stop | c, between⟩ <;> rfl

theorem outcome_bind_ok {e : Exchange σ α γ} {f : γ → Exchange σ α β} {client between : Client σ α} {c : γ}
    (h : e.outcome client = (.ok c, between)) : (e >>= f).outcome client = (f c).outcome between := by
  rw [outcome_bind, h]

end Exchange

/-- Two exchanges end with the same result and over the same link. -/
structure Exchange.Matches (first second : Exchange σ α β) (c d : Client σ α) : Prop where
  result : (first.outcome c).1 = (second.outcome d).1
  link : (first.outcome c).2.link = (second.outcome d).2.link

theorem Exchange.Matches.bind {first second : Exchange σ α γ} {f g : γ → Exchange σ α β} {c d : Client σ α}
    (h : first.Matches second c d)
    (hrest : ∀ x c' d', c'.link = d'.link → (f x).Matches (g x) c' d') :
    (first >>= f).Matches (second >>= g) c d := by
  obtain ⟨hresult, hlink⟩ := h
  rcases hc : first.outcome c with ⟨stop | x, c'⟩ <;> rcases hd : second.outcome d with ⟨stop' | y, d'⟩ <;>
    rw [hc, hd] at hresult hlink <;> cases hresult
  · constructor
    · rw [outcome_bind, outcome_bind, hc, hd]
    · rw [outcome_bind, outcome_bind, hc, hd]
      exact hlink
  · obtain ⟨hresult', hlink'⟩ := hrest x c' d' hlink
    constructor
    · rw [outcome_bind_ok hc, outcome_bind_ok hd, hresult']
    · rw [outcome_bind_ok hc, outcome_bind_ok hd, hlink']

/-! ## Pushes -/

namespace Client

variable [Scalar α] {t : Transport σ α} {key : Key} {c d : Client σ α}

/-- What is sent of a tensor are its elements, and sending it leaves the link as it is. -/
theorem staged_eq (client : Client σ α) (delta : Tensor α) :
    (client.staged delta).1 = delta.elements ∧ (client.staged delta).2.link = client.link := by
  unfold staged Tensor.slice?
  split
  · rename_i xs hslice
    split at hslice
    · rename_i hcontiguous
      cases hslice
      exact ⟨(Tensor.elements_of_isContiguous hcontiguous).symm, rfl⟩
    · cases hslice
  · exact ⟨rfl, rfl⟩

/-- A push hands the elements to the transport, and gives what is in the buffer after it. -/
theorem outcome_pushAndPull (t : Transport σ α) (key : Key) (delta : Tensor α) (client : Client σ α) :
    ∃ scratch h, (pushAndPull t key delta).outcome client =
      (received delta.shape (t.push key delta.elements (List.replicate (Shape.size delta.shape) 0) client.link) h,
        ⟨(t.push key delta.elements (List.replicate (Shape.size delta.shape) 0) client.link).state, scratch⟩) := by
  obtain ⟨hstaged, hlink⟩ := client.staged_eq delta
  have hpush : t.push key (client.staged delta).1 (List.replicate (Shape.size delta.shape) 0)
      (client.staged delta).2.link =
      t.push key delta.elements (List.replicate (Shape.size delta.shape) 0) client.link := by
    rw [hstaged, hlink]
  refine ⟨(client.staged delta).2.scratch, (t.length_push _ _ _ _).trans List.length_replicate, ?_⟩
  unfold pushAndPull Exchange.outcome
  simp only [← hpush]
  rfl

/-- Tensors with the same shape and elements are pushed alike. -/
theorem pushAndPull_matches (key : Key) {delta other : Tensor α} (hsame : Tensor.Same delta other)
    (hlink : c.link = d.link) : (pushAndPull t key delta).Matches (pushAndPull t key other) c d := by
  obtain ⟨hshape, helements⟩ := hsame
  obtain ⟨scratch, h, hc⟩ := outcome_pushAndPull t key delta c
  obtain ⟨scratch', h', hd⟩ := outcome_pushAndPull t key other d
  constructor <;> simp only [hc, hd, hshape, helements, hlink]

theorem pull_matches (key : Key) (shape : List Nat) (hlink : c.link = d.link) :
    (pull t key shape).Matches (pull t key shape) c d := by
  have houtcome : ∀ client : Client σ α, (pull t key shape).outcome client =
      if Shape.isAddressable shape then
        (received shape (t.pull key (List.replicate (Shape.size shape) 0) client.link)
            ((t.length_pull _ _ _).trans List.length_replicate),
          { client with link := (t.pull key (List.replicate (Shape.size shape) 0) client.link).state })
      else (.error (.tooLarge shape), client) := fun client => by
    unfold pull Exchange.outcome
    simp only [ExceptT.run, StateT.run]
  constructor <;> rw [houtcome, houtcome] <;> split <;> simp only [hlink]

end Client

/-! ## Conventions -/

namespace Convention

variable [Scalar α] {t : Transport σ α} {c d : Client σ α} {gradient other : Tensor α}

/-- Gradients with the same shape and elements decay alike. -/
theorem decayed_same (rate decay : α) (key : Key) (hsame : Tensor.Same gradient other) (weight : Tensor α) :
    (∃ stop, decayed rate decay key gradient weight = .error stop ∧ decayed rate decay key other weight = .error stop) ∨
      ∃ delta delta', decayed rate decay key gradient weight = .ok delta ∧
        decayed rate decay key other weight = .ok delta' ∧ Tensor.Same delta delta' := by
  have hscaled : Tensor.Same (gradient.scale rate) (other.scale rate) := hsame.map _
  unfold decayed
  by_cases hbias : key.role = .bias
  · rw [if_pos hbias, if_pos hbias]
    exact .inr ⟨_, _, rfl, rfl, hscaled⟩
  · rw [if_neg hbias, if_neg hbias]
    unfold Tensor.scaledAdd?
    rw [hscaled.shape]
    rcases weight.broadcast? (other.scale rate).shape with _ | repeated
    · exact .inl ⟨_, rfl, rfl⟩
    · obtain ⟨hs, hr⟩ | ⟨s, r, hs, hr, hsum⟩ := hscaled.zip? (fun y x => y + rate * decay * x) repeated
      · simp only [Option.bind_some, hs, hr]
        exact .inl ⟨_, rfl, rfl⟩
      · simp only [Option.bind_some, hs, hr]
        exact .inr ⟨s, r, rfl, rfl, hsum⟩

/-- Gradients with the same shape and elements are handed over alike. -/
theorem sync_matches (convention : Convention α) (key : Key) (hsame : Tensor.Same gradient other) (weight : Tensor α)
    (hlink : c.link = d.link) :
    (convention.sync t key gradient weight).Matches (convention.sync t key other weight) c d := by
  cases convention with
  | direct rate? =>
    cases rate? with
    | none => exact Client.pushAndPull_matches key hsame hlink
    | some rate => exact Client.pushAndPull_matches key (hsame.map _) hlink
  | clientMomentum rate decay =>
    simp only [sync]
    obtain ⟨stop, hg, ho⟩ | ⟨delta, delta', hg, ho, hdelta⟩ := decayed_same rate decay key hsame weight
    · rw [hg, ho]
      exact ⟨rfl, hlink⟩
    · rw [hg, ho]
      have hpushes := (Client.pushAndPull_matches (t := t) key.partner hdelta hlink).bind fun velocity c' d' hlink' =>
        Client.pushAndPull_matches (t := t) key (.refl velocity) hlink'
      exact ⟨hpushes.result, hpushes.link⟩

end Convention

end ParamExchange
