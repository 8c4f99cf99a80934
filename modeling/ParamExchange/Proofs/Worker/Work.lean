/-
Work that ends well. What a piece of work gives, and the worker that it leaves behind, are told by
what its parts give and leave behind, one after another.
-/
import Mathlib.Tactic
import ParamExchange.Worker.Basic

namespace ParamExchange

variable {σ τ α β γ : Type}

/-- What an exchange ends with, and the client after it. -/
def Exchange.outcome (e : Exchange σ α β) (client : Client σ α) : Except Stop β × Client σ α :=
  e.run.run client

namespace Worker

/-- What work ends with, and the worker after it. -/
def outcome (work : Work σ τ α β) (w : Worker σ τ α) : Except Stop β × Worker σ τ α := work.run.run w

/-- The work ends well: from the worker `w` on it gives `b` and leaves `after` behind. -/
def Gives (work : Work σ τ α β) (w : Worker σ τ α) (b : β) (after : Worker σ τ α) : Prop :=
  outcome work w = (.ok b, after)

variable {w after : Worker σ τ α} {b : β}

/-! ## Parts -/

theorem gives_of_outcome {work : Work σ τ α β} {c : β} {other : Worker σ τ α}
    (h : outcome work w = (.ok c, other)) : Gives work w b after ↔ b = c ∧ after = other := by
  unfold Gives
  rw [h, Prod.mk.injEq, Except.ok.injEq, eq_comm, @eq_comm _ other]

theorem not_gives_of_outcome {work : Work σ τ α β} {e : Stop} {other : Worker σ τ α}
    (h : outcome work w = (.error e, other)) : ¬ Gives work w b after := by
  unfold Gives
  rw [h, Prod.mk.injEq]
  exact fun heq => nomatch heq.1

theorem gives_of_ok {work : Work σ τ α β} (h : (outcome work w).1 = .ok b) : Gives work w b (outcome work w).2 :=
  Prod.ext h rfl

theorem gives_pure {c : β} : Gives (pure c : Work σ τ α β) w b after ↔ b = c ∧ after = w :=
  gives_of_outcome rfl

theorem gives_get {c : Worker σ τ α} : Gives (get : Work σ τ α _) w c after ↔ c = w ∧ after = w :=
  gives_of_outcome rfl

theorem gives_modify {f : Worker σ τ α → Worker σ τ α} {u : Unit} :
    Gives (modify f : Work σ τ α _) w u after ↔ after = f w :=
  (gives_of_outcome rfl).trans (and_iff_right rfl)

theorem not_gives_throw {e : Stop} : ¬ Gives (throw e : Work σ τ α β) w b after :=
  not_gives_of_outcome rfl

theorem gives_liftExcept {e : Except Stop β} :
    Gives (liftExcept e : Work σ τ α β) w b after ↔ e = .ok b ∧ after = w := by
  cases e with
  | error e => exact ⟨fun h => absurd h (not_gives_of_outcome rfl), fun h => nomatch h.1⟩
  | ok c =>
    rw [Except.ok.injEq, eq_comm]
    exact gives_of_outcome rfl

theorem outcome_exchange (e : Exchange σ α β) (w : Worker σ τ α) :
    outcome (exchange e) w = ((e.outcome w.client).1, { w with client := (e.outcome w.client).2 }) := rfl

theorem outcome_get_bind (f : Worker σ τ α → Work σ τ α β) (w : Worker σ τ α) :
    outcome (get >>= f) w = outcome (f w) w := rfl

theorem outcome_modify_bind (f : Worker σ τ α → Worker σ τ α) (work : Unit → Work σ τ α β) (w : Worker σ τ α) :
    outcome (modify f >>= work) w = outcome (work ()) (f w) := rfl

theorem outcome_bind (work : Work σ τ α γ) (f : γ → Work σ τ α β) (w : Worker σ τ α) :
    outcome (work >>= f) w =
      match outcome work w with
      | (.ok c, between) => outcome (f c) between
      | (.error e, between) => (.error e, between) := by
  show ExceptT.bindCont (fun c => f c) (outcome work w).1 (outcome work w).2 = _
  rcases outcome work w with ⟨e | c, between⟩ <;> rfl

theorem gives_exchange {e : Exchange σ α β} :
    Gives (exchange e : Work σ τ α β) w b after ↔
      ∃ client, e.outcome w.client = (.ok b, client) ∧ after = { w with client := client } := by
  unfold Gives
  rw [outcome_exchange]
  rcases e.outcome w.client with ⟨result, client⟩
  simp only [Prod.mk.injEq]
  constructor
  · rintro ⟨rfl, rfl⟩
    exact ⟨client, ⟨rfl, rfl⟩, rfl⟩
  · rintro ⟨_, ⟨rfl, rfl⟩, rfl⟩
    exact ⟨rfl, rfl⟩

/-- Work after work: the second part goes on with what the first one gives and leaves. -/
theorem gives_bind {work : Work σ τ α γ} {f : γ → Work σ τ α β} :
    Gives (work >>= f) w b after ↔ ∃ c between, Gives work w c between ∧ Gives (f c) between b after := by
  unfold Gives
  rw [outcome_bind]
  rcases outcome work w with ⟨e | c, between⟩
  · simp only [Prod.mk.injEq, reduceCtorEq, false_and, exists_false]
  · simp only [Prod.mk.injEq, Except.ok.injEq]
    constructor
    · exact fun h => ⟨c, between, ⟨rfl, rfl⟩, h⟩
    · rintro ⟨_, _, ⟨rfl, rfl⟩, h⟩
      exact h

/-- Work that ends well hands over to the rest. -/
theorem Gives.outcome_bind {work : Work σ τ α γ} {c : γ} {between : Worker σ τ α} (h : Gives work w c between)
    (f : γ → Work σ τ α β) : outcome (work >>= f) w = outcome (f c) between := by
  rw [Worker.outcome_bind, h]

/-- Work that looks at the worker first. -/
theorem gives_get_bind {f : Worker σ τ α → Work σ τ α β} :
    Gives (get >>= f) w b after ↔ Gives (f w) w b after := by
  rw [gives_bind]
  constructor
  · rintro ⟨c, between, hget, hf⟩
    obtain ⟨hc, hbetween⟩ := gives_get.1 hget
    rwa [hc, hbetween] at hf
  · exact fun hf => ⟨w, w, gives_get.2 ⟨rfl, rfl⟩, hf⟩

/-! ## Loops -/

/-- What holds before a loop and is kept by each round holds after it. -/
theorem Gives.foldlM {f : β → γ → Work σ τ α β} {P : List γ → β → Worker σ τ α → Prop}
    (hround : ∀ done b w c b' w', P done b w → Gives (f b c) w b' w' → P (done ++ [c]) b' w')
    {list done : List γ} {b b' : β} {w w' : Worker σ τ α} (h : P done b w)
    (hgives : Gives (list.foldlM f b) w b' w') : P (done ++ list) b' w' := by
  induction list generalizing done b w with
  | nil =>
    obtain ⟨rfl, rfl⟩ := gives_pure.1 hgives
    rwa [List.append_nil]
  | cons c list ih =>
    rw [List.foldlM_cons] at hgives
    obtain ⟨between, wb, hfirst, hrest⟩ := gives_bind.1 hgives
    have hall := ih (hround done b w c between wb h hfirst) hrest
    rwa [List.append_assoc] at hall

theorem gives_mapM_cons {f : γ → Work σ τ α β} {c : γ} {list : List γ} {bs : List β} :
    Gives ((c :: list).mapM f) w bs after ↔ ∃ b rest between, bs = b :: rest ∧ Gives (f c) w b between ∧
      Gives (list.mapM f) between rest after := by
  rw [List.mapM_cons]
  simp only [gives_bind, gives_pure]
  constructor
  · rintro ⟨b, between, hfirst, rest, _, hrest, rfl, rfl⟩
    exact ⟨b, rest, between, rfl, hfirst, hrest⟩
  · rintro ⟨b, rest, between, rfl, hfirst, hrest⟩
    exact ⟨b, between, hfirst, rest, after, hrest, rfl, rfl⟩

end Worker

end ParamExchange
