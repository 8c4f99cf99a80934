/-
Lengths in a store. The store of a configuration makes every entry with the length that it is asked
for, whatever its generators are, and what the rule of an entry keeps has this length too. In such a
store a request under a parsed name succeeds exactly if its gradient, and the value that is held
under the name, if any, have the length of the buffer.
-/
import ParamExchange.Proofs.Store.Constant
import ParamExchange.Proofs.Store.Isolation

namespace ParamExchange

open ParamExchange.Random

/-! ## Sound stores -/

theorem Sampler.length_fill (sampler : Sampler) (s : Stream) (n : Nat) : (sampler.fill s n).1.length = n := by
  induction n generalizing s with
  | zero => rfl
  | succ n ih =>
    show ((sampler.fill (sampler.draw s).2 n).1).length + 1 = n + 1
    rw [ih]

variable {α : Type} [Scalar α]

namespace Store

/-- New entries get the length that they are asked for, and in each entry what the rule keeps has
the length of the values. -/
structure IsSound (store : Store α) : Prop where
  sized : ∀ key n, (store.plan.initial key n).length = n
  fits : ∀ name entry, store.get? name = some entry → entry.Fits

namespace IsSound

variable {store after : Store α} {name : String} {entry : Entry α} {gradient? : Option (List α)}

omit [Scalar α] in
theorem empty {plan : Plan α} (h : ∀ key n, (plan.initial key n).length = n) : (Store.empty plan).IsSound :=
  ⟨h, nofun⟩

omit [Scalar α] in
theorem sets (h : store.IsSound) (hsets : store.Sets name entry after) (hentry : entry.Fits) :
    after.IsSound := by
  refine ⟨hsets.plan ▸ h.sized, fun other held hheld => ?_⟩
  rw [hsets.get?] at hheld
  split at hheld
  · cases hheld
    exact hentry
  · exact h.fits other held hheld

/-- What a request finds or makes fits, and it has the length of the request if it is made. -/
theorem touch (h : store.IsSound) {n : Nat} (ht : store.touch name n = .ok (entry, after)) :
    entry.Fits ∧ (store.get? name = some entry ∨ store.get? name = none ∧ entry.values.length = n) := by
  rcases store.touch_cases name n with ⟨held, hheld, hcase⟩ | ⟨key, hnone, -, hcase⟩ | ⟨e, -, -, hcase⟩ <;>
    rw [hcase] at ht <;> cases ht
  · exact ⟨h.fits _ _ hheld, .inl hheld⟩
  · have hlen : (store.fresh key n).values.length = n := h.sized key n
    refine ⟨?_, .inr ⟨hnone, hlen⟩⟩
    show (Rule.ofRole _ _ _ n).HasLength (store.fresh key n).values.length
    rw [hlen]
    exact Rule.hasLength_ofRole _ _ _ _

/-- A request under a parsed name is served if its lengths agree. -/
theorem serves (h : store.IsSound) {key : Key} (hkey : Key.ofName key.name = .ok key) {n : Nat}
    (hg : ∀ gradient ∈ gradient?, gradient.length = n)
    (hheld : ∀ values ∈ store.value? key.name, values.length = n) :
    ∃ entry after, entry.values.length = n ∧ Serves store key.name gradient? n entry after := by
  obtain ⟨entry, between, htouched⟩ : ∃ entry between, Touched store key.name n entry between := by
    rcases hget : store.get? key.name with _ | entry
    · exact ⟨_, _, .new hget hkey n⟩
    · exact ⟨_, _, .held hget n⟩
  obtain ⟨hfits, hcases⟩ := h.touch htouched.touch
  have hlen : entry.values.length = n := by
    rcases hcases with hget | ⟨-, hlen⟩
    · exact hheld _ (by rw [value?, hget]; rfl)
    · exact hlen
  cases gradient? with
  | none => exact ⟨entry, between, hlen, .pull htouched hlen⟩
  | some gradient =>
    have hgradient : gradient.length = entry.values.length := (hg gradient rfl).trans hlen.symm
    obtain ⟨next, hpush, -, hnext, -, -⟩ := Entry.pushed_slices hfits hgradient hgradient
    refine ⟨next, _, hnext.trans hlen, .push htouched (hg gradient rfl) fun buffer hb => ?_⟩
    rw [Entry.pushed_congr entry gradient (hb.trans (hg gradient rfl).symm)]
    exact hpush

end IsSound

end Store

/-! ## Requests that succeed -/

namespace Entry

/-- A push that is taken in has the length of the values, and so has its buffer. -/
theorem length_of_pushed_ok {entry after : Entry α} {gradient buffer : List α}
    (h : entry.pushed gradient buffer = .ok after) :
    gradient.length = entry.values.length ∧ buffer.length = entry.values.length := by
  obtain ⟨⟨⟩, hgradient, h⟩ := ok_of_bind h
  obtain ⟨⟨⟩, hbuffer, -⟩ := ok_of_bind h
  exact ⟨(length_of_check hgradient).symm, (length_of_check hbuffer).symm⟩

/-- A request that succeeds has the length of the values, and leaves an entry that fits. -/
theorem request_ok {entry : Entry α} (hfits : entry.Fits) {gradient? : Option (List α)} {buffer : List α}
    (h : (entry.request gradient? buffer).result = .ok ()) :
    entry.values.length = buffer.length ∧ (entry.request gradient? buffer).state.Fits := by
  cases gradient? with
  | none =>
    unfold request read at h ⊢
    rcases hcheck : entry.check buffer.length with e | ⟨⟩
    · simp only [hcheck] at h
      cases h
    · exact ⟨length_of_check hcheck, hfits⟩
  | some gradient =>
    unfold request at h ⊢
    rcases hpushed : entry.pushed gradient buffer with e | after
    · simp only [write_error hpushed] at h
      cases h
    · obtain ⟨hgradient, hbuffer⟩ := length_of_pushed_ok hpushed
      obtain ⟨next, hnext, -, -, hnextFits, -⟩ := pushed_slices hfits hgradient hbuffer
      rw [hpushed] at hnext
      cases hnext
      simp only [write_ok hpushed]
      exact ⟨hbuffer.symm, hnextFits⟩

/-- An entry that refuses a request is left as it is. -/
theorem request_error {entry : Entry α} {gradient? : Option (List α)} {buffer : List α} {e : StoreError}
    (h : (entry.request gradient? buffer).result = .error e) : (entry.request gradient? buffer).state = entry := by
  cases gradient? with
  | none =>
    show (entry.read buffer).state = entry
    unfold read
    split <;> rfl
  | some gradient =>
    change (entry.write gradient buffer).result = _ at h
    show (entry.write gradient buffer).state = entry
    rcases hpushed : entry.pushed gradient buffer with e | after
    · rw [write_error hpushed]
    · rw [write_ok hpushed] at h
      cases h

end Entry

/-- A request that succeeds found a value of its own length under the name or none, and leaves a
sound store in which no other name changed. -/
theorem Store.IsSound.request_ok {store : Store α} (hs : store.IsSound) {name : String}
    {gradient? : Option (List α)} {buffer : List α}
    (h : (store.request name gradient? buffer).result = .ok ()) :
    (∀ values ∈ store.value? name, values.length = buffer.length) ∧
      (store.request name gradient? buffer).state.IsSound ∧
      ∀ other, other ≠ name → (store.request name gradient? buffer).state.get? other = store.get? other := by
  have hframe := (request_frame store name gradient? buffer).2
  obtain ⟨e, -, hrequest⟩ | ⟨entry, between, after, htouch, hrequest, hsets⟩ :=
    request_cases store name gradient? buffer
  · rw [hrequest] at h
    cases h
  rw [hrequest] at h hframe ⊢
  obtain ⟨hfits, hcases⟩ := hs.touch htouch
  obtain ⟨hlen, hafter⟩ := Entry.request_ok hfits h
  refine ⟨fun values hvalues => ?_, hs.sets hsets hafter, hframe⟩
  rcases hcases with hget | ⟨hget, -⟩
  · rw [value?, hget] at hvalues
    cases hvalues
    exact hlen
  · rw [value?, hget] at hvalues
    cases hvalues

/-- A request leaves a sound store, whether it succeeds or fails. -/
theorem Store.IsSound.request {store : Store α} (h : store.IsSound) (name : String)
    (gradient? : Option (List α)) (buffer : List α) :
    (store.request name gradient? buffer).state.IsSound := by
  obtain ⟨e, -, hrequest⟩ | ⟨entry, between, after, htouch, hrequest, hsets⟩ :=
    request_cases store name gradient? buffer
  · rw [hrequest]
    exact h
  rw [hrequest]
  apply h.sets hsets
  have hfits := (h.touch htouch).1
  rcases hresult : (entry.request gradient? buffer).result with e | ⟨⟩
  · rw [Entry.request_error hresult]
    exact hfits
  · exact (Entry.request_ok hfits hresult).2

/-! ## Configured servers -/

/-- A new server has a sound store, which is empty, and waits for the number of ranks. -/
structure Server.IsFresh (server : Server) : Prop where
  sound : server.store.IsSound
  empty : ∀ name, server.store.get? name = none
  rankSize : server.rankSize = none

/-- Every server that is made of a configuration is fresh. -/
theorem Server.isFresh_ofConfig {config : ServerConfig} {rank : UInt64} {server : Server}
    (h : Server.ofConfig config rank = .ok server) : server.IsFresh := by
  unfold Server.ofConfig Store.ofConfig at h
  split at h
  · cases h
  · rcases hplan : Store.planOf config rank with e | plan
    · rw [hplan] at h
      cases h
    · rw [hplan] at h
      cases h
      obtain ⟨init, -, rfl⟩ := Store.planOf_eq_ok hplan
      exact ⟨.empty fun key n => Sampler.length_fill _ _ n, fun _ => rfl, rfl⟩

end ParamExchange
