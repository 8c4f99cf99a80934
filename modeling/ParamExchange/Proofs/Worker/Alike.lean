/-
Work that ends alike. Two pieces of work of two workers end alike if both end well, or both stop for the
same reason and leave workers that look the same. Parts that end alike do so one after another, and over
lists.
-/
import ParamExchange.Proofs.Worker.Deeds
import ParamExchange.Proofs.Worker.Exchanges

namespace ParamExchange.Worker

variable {σ τ α β γ δ ε : Type}

/-! ## Views -/

/-- What a worker is and shows, apart from how its gradients leave it. -/
structure View (σ τ α : Type) where
  identity : Identity
  layers : List Layer
  devices : Positive
  backend : Backend
  convention : Convention α
  params : List (Tensor α)
  link : σ
  trainer : τ
  globalStep : Nat
  epoch : Nat

/-- The view of a worker. -/
def view (w : Worker σ τ α) : View σ τ α where
  identity := w.identity
  layers := w.layers
  devices := w.devices
  backend := w.backend
  convention := w.convention
  params := w.params
  link := w.client.link
  trainer := w.trainer
  globalStep := w.globalStep
  epoch := w.epoch

/-! ## Outcomes -/

/-- Two outcomes: both are good and `R` relates them, or both are the same failure and the workers look
the same. -/
inductive Alike (R : β → γ → Worker σ τ α → Worker σ τ α → Prop) :
    Except Stop β × Worker σ τ α → Except Stop γ × Worker σ τ α → Prop
  | ok {x : β} {y : γ} {d b : Worker σ τ α} : R x y d b → Alike R (.ok x, d) (.ok y, b)
  | error {stop : Stop} {d b : Worker σ τ α} : d.view = b.view → Alike R (.error stop, d) (.error stop, b)

namespace Alike

variable {R : β → γ → Worker σ τ α → Worker σ τ α → Prop} {S : δ → ε → Worker σ τ α → Worker σ τ α → Prop}
  {d b : Worker σ τ α}

/-- What is known of good outcomes can be added to the relation. -/
theorem imp {first : Work σ τ α β} {second : Work σ τ α γ}
    {R' : β → γ → Worker σ τ α → Worker σ τ α → Prop} (h : Alike R (outcome first d) (outcome second b))
    (himp : ∀ x y d' b', R x y d' b' → Gives first d x d' → Gives second b y b' → R' x y d' b') :
    Alike R' (outcome first d) (outcome second b) := by
  unfold Gives at himp
  generalize outcome first d = dense at h himp
  generalize outcome second b = bulk at h himp
  cases h with
  | ok hR => exact .ok (himp _ _ _ _ hR rfl rfl)
  | error hview => exact .error hview

theorem bind {first : Work σ τ α β} {second : Work σ τ α γ} {f : β → Work σ τ α δ} {g : γ → Work σ τ α ε}
    (h : Alike R (outcome first d) (outcome second b))
    (hrest : ∀ x y d' b', R x y d' b' → Alike S (outcome (f x) d') (outcome (g y) b')) :
    Alike S (outcome (first >>= f) d) (outcome (second >>= g) b) := by
  rw [outcome_bind, outcome_bind]
  generalize outcome first d = dense at h
  generalize outcome second b = bulk at h
  cases h with
  | ok hR => exact hrest _ _ _ _ hR
  | error hview => exact .error hview

/-- The same result is put in front of the same rest. -/
theorem liftExcept_bind {e : Except Stop γ} {f g : γ → Work σ τ α β} {R : β → β → Worker σ τ α → Worker σ τ α → Prop}
    (hview : d.view = b.view) (hrest : ∀ c, e = .ok c → Alike R (outcome (f c) d) (outcome (g c) b)) :
    Alike R (outcome (liftExcept e >>= f) d) (outcome (liftExcept e >>= g) b) := by
  rw [outcome_bind, outcome_bind]
  cases e with
  | error stop => exact .error hview
  | ok c => exact hrest c rfl

/-- Related results of the rounds of a loop and related workers, round by round. -/
theorem foldlM {f g : β → γ → Work σ τ α β} {I : β → Worker σ τ α → Worker σ τ α → Prop}
    (hround : ∀ x c d b, I x d b → Alike (fun x y d b => x = y ∧ I x d b) (outcome (f x c) d) (outcome (g x c) b))
    (list : List γ) {x : β} (h : I x d b) :
    Alike (fun x y d b => x = y ∧ I x d b) (outcome (list.foldlM f x) d) (outcome (list.foldlM g x) b) := by
  induction list generalizing x d b with
  | nil => exact .ok ⟨rfl, h⟩
  | cons c list ih =>
    rw [List.foldlM_cons, List.foldlM_cons]
    refine (hround x c d b h).bind ?_
    rintro y _ d' b' ⟨rfl, hnext⟩
    exact ih hnext

theorem mapM {f g : γ → Work σ τ α β} {I : Worker σ τ α → Worker σ τ α → Prop}
    (hround : ∀ c d b, I d b → Alike (fun x y d b => x = y ∧ I d b) (outcome (f c) d) (outcome (g c) b))
    (list : List γ) (h : I d b) :
    Alike (fun x y d b => x = y ∧ I d b) (outcome (list.mapM f) d) (outcome (list.mapM g) b) := by
  induction list generalizing d b with
  | nil => exact .ok ⟨rfl, h⟩
  | cons c list ih =>
    rw [List.mapM_cons, List.mapM_cons]
    refine (hround c d b h).bind ?_
    rintro x _ d₁ b₁ ⟨rfl, h₁⟩
    refine (ih h₁).bind ?_
    rintro xs _ d₂ b₂ ⟨rfl, h₂⟩
    exact .ok ⟨rfl, h₂⟩

end Alike

/-! ## Exchanges -/

variable {d b : Worker σ τ α}

/-- Exchanges that match end alike for workers that look the same, and changes
nothing but the client. -/
theorem alike_exchange {first second : Exchange σ α β} (hview : d.view = b.view)
    (h : first.Matches second d.client b.client) :
    Alike (fun x y d' b' => x = y ∧ d'.view = b'.view) (outcome (exchange first) d) (outcome (exchange second) b) := by
  rw [outcome_exchange, outcome_exchange]
  obtain ⟨hresult, hlink⟩ := h
  have hafter : ({ d with client := (first.outcome d.client).2 } : Worker σ τ α).view =
      ({ b with client := (second.outcome b.client).2 } : Worker σ τ α).view := by
    show { d.view with link := (first.outcome d.client).2.link } =
      { b.view with link := (second.outcome b.client).2.link }
    rw [hview, hlink]
  rw [hresult]
  rcases (second.outcome b.client).1 with stop | x
  · exact .error hafter
  · exact .ok ⟨rfl, hafter⟩

end ParamExchange.Worker
