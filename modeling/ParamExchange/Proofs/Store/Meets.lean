/-
Entries that are met. Each rule takes in a gradient of the right length, and the new values are told by an
equation. The next request for a parameter goes on with an entry that is held, or with one that it makes;
either way a push that its rule takes in is served, and requests for other names change nothing about it.
-/
import ParamExchange.Proofs.Store.Isolation

namespace ParamExchange

variable {α : Type} [Scalar α]

/-! ## Rules -/

namespace Rule

variable {gradient values : List α}

theorem push_additive (h : values.length = gradient.length) :
    additive.push gradient values = .ok (List.zipWith (fun p g => p + g) values gradient, additive) := by
  simp [push, SizeMismatch.check, h, bind, Except.bind, pure, Except.pure]

theorem push_accumulate {momentum : α} (h : values.length = gradient.length) :
    (accumulate momentum).push gradient values =
      .ok (List.zipWith (fun p g => momentum * p - g) values gradient, accumulate momentum) := by
  simp [push, SizeMismatch.check, h, bind, Except.bind, pure, Except.pure]

theorem push_descent {rate : α} (h : values.length = gradient.length) :
    (descent rate).push gradient values =
      .ok (List.zipWith (fun p g => p - rate * g) values gradient, descent rate) := by
  simp [push, SizeMismatch.check, h, bind, Except.bind, pure, Except.pure]

theorem push_momentumDescent {rate momentum : α} {velocity : List α} (h : values.length = gradient.length)
    (hv : velocity.length = gradient.length) :
    (momentumDescent rate momentum velocity).push gradient values =
      .ok (List.zipWith (fun p v => p - rate * v) values
          (List.zipWith (fun v g => momentum * v + g) velocity gradient),
        momentumDescent rate momentum (List.zipWith (fun v g => momentum * v + g) velocity gradient)) := by
  simp [push, SizeMismatch.check, h, hv, bind, Except.bind, pure, Except.pure]

end Rule

/-! ## Entries that are met -/

namespace Store

/-- The next request for a parameter goes on with this entry: the store holds it, or will make it. -/
inductive Meets (store : Store α) (entry : Entry α) : Prop
  | held : store.get? entry.key.name = some entry → Meets store entry
  | new : store.get? entry.key.name = none → Key.ofName entry.key.name = .ok entry.key →
      store.fresh entry.key entry.values.length = entry → Meets store entry

/-- Nothing was pushed to a parameter: its entry, if there is one, is as the plan makes it. -/
structure Unpushed (store : Store α) (key : Key) (values : List α) : Prop where
  initial : store.plan.initial key values.length = values
  entry : ∀ entry, store.get? key.name = some entry → entry = store.fresh key values.length

variable {store after : Store α} {entry other : Entry α}

theorem Sets.meets (h : store.Sets entry.key.name entry after) : after.Meets entry :=
  .held ((h.get? _).trans (if_pos rfl))

/-- Setting an entry of another name does not change what is met. -/
theorem Meets.sets (h : store.Meets entry) {name : String} (hsets : store.Sets name other after)
    (hne : entry.key.name ≠ name) : after.Meets entry := by
  have hget : after.get? entry.key.name = store.get? entry.key.name := (hsets.get? _).trans (if_neg hne)
  cases h with
  | held hheld => exact .held (hget.trans hheld)
  | new hnone hkey hfresh =>
    refine .new (hget.trans hnone) hkey ?_
    rw [fresh, hsets.plan]
    exact hfresh

theorem Meets.touched (h : store.Meets entry) :
    ∃ after, Touched store entry.key.name entry.values.length entry after := by
  cases h with
  | held hheld => exact ⟨store, .held hheld _⟩
  | new hnone hkey hfresh =>
    have hnew := Touched.new hnone hkey entry.values.length
    rw [hfresh] at hnew
    exact ⟨_, hnew⟩

/-- A parameter that nothing was pushed to is met with its initial values and the rule of its role. -/
theorem Unpushed.meets {key : Key} {values : List α} (h : store.Unpushed key values)
    (hkey : Key.ofName key.name = .ok key) :
    store.Meets ⟨key, values, Rule.ofRole key.role store.plan.update store.plan.momentum values.length⟩ := by
  have hfresh : store.fresh key values.length =
      ⟨key, values, Rule.ofRole key.role store.plan.update store.plan.momentum values.length⟩ := by
    rw [fresh, h.initial]
  rcases hget : store.get? key.name with _ | entry
  · exact .new hget hkey hfresh
  · refine .held (hget.trans ?_)
    rw [h.entry entry hget, hfresh]

/-- A push is made to the entry that is met. -/
theorem Meets.serves (h : store.Meets entry) {gradient values : List α} {rule : Rule α}
    (hlen : gradient.length = entry.values.length)
    (hpush : entry.rule.push gradient entry.values = .ok (values, rule)) :
    ∃ after, Serves store entry.key.name (some gradient) entry.values.length ⟨entry.key, values, rule⟩ after := by
  obtain ⟨between, htouched⟩ := h.touched
  refine ⟨_, .push htouched hlen fun buffer hbuffer => ?_⟩
  unfold Entry.pushed
  rw [Entry.check_of_length hlen.symm, Entry.check_of_length hbuffer.symm, hpush]
  rfl

end Store

end ParamExchange
