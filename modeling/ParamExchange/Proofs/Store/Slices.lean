/-
Stores that hold slices. A rule works on each element by itself, also on the state that it keeps,
so an entry can be cut into slices and every request can be made to each slice. A store is sharded
over some stores if each of them holds the slices that its spans call for; requests keep it so.
-/
import ParamExchange.Proofs.Network.Spans
import ParamExchange.Proofs.Store.Requests

namespace ParamExchange

open Network

variable {α : Type} [Scalar α]

/-! ## Slices of rules -/

namespace Rule

/-- The rule of the elements of a span. -/
def slice (span : Span) : Rule α → Rule α
  | additive => additive
  | accumulate momentum => accumulate momentum
  | descent rate => descent rate
  | momentumDescent rate momentum velocity => momentumDescent rate momentum (span.slice velocity)

/-- What the rule keeps has a number for each of `n` elements. -/
def HasLength (n : Nat) : Rule α → Prop
  | additive => True
  | accumulate _ => True
  | descent _ => True
  | momentumDescent _ _ velocity => velocity.length = n

theorem hasLength_ofRole (role : Role) (update : Update α) (momentum : α) (n : Nat) :
    (ofRole role update momentum n).HasLength n := by
  unfold ofRole
  split
  · trivial
  · cases update with
    | additive => trivial
    | descent rate => trivial
    | momentumDescent rate momentum => exact List.length_replicate

theorem slice_ofRole {span : Span} {n : Nat} (h : span.stop ≤ n) (role : Role) (update : Update α)
    (momentum : α) : (ofRole role update momentum n).slice span = ofRole role update momentum span.length := by
  unfold ofRole
  split
  · rfl
  · cases update with
    | additive => rfl
    | descent rate => rfl
    | momentumDescent rate momentum =>
      show momentumDescent rate momentum (span.slice (List.replicate n 0)) = _
      rw [Span.slice_replicate h]

/-- A push with a gradient of the right length succeeds, and so does the push of each slice of the
gradient to the slice of the values. -/
theorem push_slices {rule : Rule α} {gradient values : List α} (hr : rule.HasLength values.length)
    (hg : gradient.length = values.length) :
    ∃ next after, rule.push gradient values = .ok (next, after) ∧ after.HasLength values.length ∧
      ∀ span : Span, span.stop ≤ values.length →
        (rule.slice span).push (span.slice gradient) (span.slice values) =
          .ok (span.slice next, after.slice span) := by
  have hcheck : SizeMismatch.check values.length gradient.length = .ok () := if_pos hg.symm
  have hpart : ∀ {span : Span}, span.stop ≤ values.length →
      SizeMismatch.check (span.slice values).length (span.slice gradient).length = .ok () := by
    intro span hs
    exact if_pos (by rw [Span.length_slice hs, Span.length_slice (hg ▸ hs)])
  cases rule with
  | additive =>
    refine ⟨List.zipWith (fun p g => p + g) values gradient, additive, ?_, trivial, fun span hs => ?_⟩
    · simp only [push, hcheck]
      rfl
    · simp only [push, slice, hpart hs, Span.slice_zipWith]
      rfl
  | accumulate momentum =>
    refine ⟨List.zipWith (fun p g => momentum * p - g) values gradient, accumulate momentum, ?_, trivial,
      fun span hs => ?_⟩
    · simp only [push, hcheck]
      rfl
    · simp only [push, slice, hpart hs, Span.slice_zipWith]
      rfl
  | descent rate =>
    refine ⟨List.zipWith (fun p g => p - rate * g) values gradient, descent rate, ?_, trivial, fun span hs => ?_⟩
    · simp only [push, hcheck]
      rfl
    · simp only [push, slice, hpart hs, Span.slice_zipWith]
      rfl
  | momentumDescent rate momentum velocity =>
    have hv : velocity.length = gradient.length := Eq.trans hr hg.symm
    have hvcheck : SizeMismatch.check velocity.length gradient.length = .ok () := if_pos hv
    have hnext : (List.zipWith (fun v g => momentum * v + g) velocity gradient).length = values.length := by
      rw [List.length_zipWith, hv, hg, Nat.min_self]
    refine ⟨List.zipWith (fun p v => p - rate * v) values
      (List.zipWith (fun v g => momentum * v + g) velocity gradient),
      momentumDescent rate momentum (List.zipWith (fun v g => momentum * v + g) velocity gradient),
      ?_, hnext, fun span hs => ?_⟩
    · simp only [push, hcheck, hvcheck]
      rfl
    · -- the slice of the velocity is checked against the slice of the gradient
      have hvpart : SizeMismatch.check (span.slice velocity).length (span.slice gradient).length = .ok () :=
        if_pos (by rw [Span.length_slice (Eq.symm hr ▸ hs), Span.length_slice (hg ▸ hs)])
      simp only [push, slice, hpart hs, hvpart, Span.slice_zipWith]
      rfl

end Rule

/-! ## Slices of entries -/

namespace Entry

/-- The entry of the elements of a span. -/
def slice (span : Span) (entry : Entry α) : Entry α :=
  { entry with values := span.slice entry.values, rule := entry.rule.slice span }

/-- The rule of an entry keeps as many numbers as there are values. -/
def Fits (entry : Entry α) : Prop := entry.rule.HasLength entry.values.length

omit [Scalar α] in
theorem check_of_length {entry : Entry α} {n : Nat} (h : entry.values.length = n) : entry.check n = .ok () := by
  have hcheck : SizeMismatch.check entry.values.length n = .ok () := if_pos h
  unfold check
  rw [hcheck]
  rfl

omit [Scalar α] in
theorem read_of_length {entry : Entry α} {buffer : List α} (h : entry.values.length = buffer.length) :
    entry.read buffer = ⟨.ok (), entry.values, entry⟩ := by
  unfold read
  rw [check_of_length h]

/-- An entry takes in a gradient as its slices take in the slices of the gradient. -/
theorem pushed_slices {entry : Entry α} (hfits : entry.Fits) {gradient buffer : List α}
    (hg : gradient.length = entry.values.length) (hb : buffer.length = entry.values.length) :
    ∃ after, entry.pushed gradient buffer = .ok after ∧ after.key = entry.key ∧
      after.values.length = entry.values.length ∧ after.Fits ∧
      ∀ span : Span, span.stop ≤ entry.values.length → ∀ part : List α, part.length = span.length →
        (entry.slice span).pushed (span.slice gradient) part = .ok (after.slice span) := by
  obtain ⟨next, rule, hpush, hrule, hslices⟩ := Rule.push_slices hfits hg
  have hlen : next.length = entry.values.length := Rule.length_push hpush
  refine ⟨{ entry with values := next, rule := rule }, ?_, rfl, hlen, ?_, fun span hs part hp => ?_⟩
  · unfold pushed
    rw [check_of_length hg.symm, check_of_length hb.symm, hpush]
    rfl
  · show rule.HasLength next.length
    rw [hlen]
    exact hrule
  · have hvalues : (entry.slice span).values.length = span.length := Span.length_slice hs
    have hgradient : (span.slice gradient).length = span.length := Span.length_slice (hg ▸ hs)
    have hpushed : (entry.slice span).rule.push (span.slice gradient) (entry.slice span).values =
        .ok (span.slice next, rule.slice span) := hslices span hs
    unfold pushed
    rw [check_of_length (hvalues.trans hgradient.symm), check_of_length (hvalues.trans hp.symm), hpushed]
    rfl

end Entry

/-! ## Stores with one entry changed -/

/-- `store.Sets name entry after`: the store after holds the entry under the name, and else what it
held before. -/
structure Store.Sets (store : Store α) (name : String) (entry : Entry α) (after : Store α) : Prop where
  plan : after.plan = store.plan
  get? : ∀ other, after.get? other = if other = name then some entry else store.get? other

namespace Store.Sets

variable {store between after : Store α} {name : String} {entry next : Entry α}

omit [Scalar α] in
theorem held (h : store.get? name = some entry) : store.Sets name entry store := by
  refine ⟨rfl, fun other => ?_⟩
  split
  · rename_i heq
    rw [heq, h]
  · rfl

omit [Scalar α] in
theorem put (store : Store α) (name : String) (entry : Entry α) :
    store.Sets name entry (store.put name entry) :=
  ⟨rfl, fun other => get?_put store name other entry⟩

omit [Scalar α] in
theorem trans (h : store.Sets name entry between) (hnext : between.Sets name next after) :
    store.Sets name next after := by
  refine ⟨hnext.plan.trans h.plan, fun other => ?_⟩
  rw [hnext.get?, h.get?]
  split <;> rfl

omit [Scalar α] in
theorem value? (h : store.Sets name entry after) : after.value? name = some entry.values := by
  rw [Store.value?, h.get?, if_pos rfl]
  rfl

end Store.Sets

/-! ## Touched stores -/

/-- `Touched store name n entry after`: a request of `n` elements finds or makes the entry. -/
structure Touched (store : Store α) (name : String) (n : Nat) (entry : Entry α) (after : Store α) : Prop where
  touch : store.touch name n = .ok (entry, after)
  sets : store.Sets name entry after

theorem Touched.held {store : Store α} {name : String} {entry : Entry α} (h : store.get? name = some entry)
    (n : Nat) : Touched store name n entry store :=
  ⟨Store.touch_held h n, .held h⟩

theorem Touched.new {store : Store α} {key : Key} (h : store.get? key.name = none)
    (hkey : Key.ofName key.name = .ok key) (n : Nat) :
    Touched store key.name n (store.fresh key n) (store.put key.name (store.fresh key n)) :=
  ⟨Store.touch_new h hkey n, .put _ _ _⟩

/-! ## Sharded stores -/

/-- The initial values of a plan do not depend on what part of a parameter is made. -/
structure Plan.IsEven (plan : Plan α) : Prop where
  length : ∀ key n, (plan.initial key n).length = n
  slice : ∀ key n (span : Span), span.stop ≤ n →
    span.slice (plan.initial key n) = plan.initial key span.length

/-- A store is sharded over some stores: what it does not hold none of them holds, and of what it
holds each has the slice of its span. -/
structure Sharded (spread : Spread) (whole : Store α) (parts : Nat → Store α) : Prop where
  even : whole.plan.IsEven
  plan : ∀ i < spread.servers, (parts i).plan = whole.plan
  absent : ∀ name, whole.get? name = none → ∀ i < spread.servers, (parts i).get? name = none
  present : ∀ name entry, whole.get? name = some entry →
    Key.ofName name = .ok entry.key ∧ entry.Fits ∧
      ∀ span ∈ spread.route entry.key entry.values.length,
        (parts span.server).get? name = some (entry.slice span)

namespace Sharded

variable {spread : Spread} {whole after : Store α} {parts next : Nat → Store α} {key : Key}

omit [Scalar α] in
/-- Stores without entries are sharded. -/
theorem empty {plan : Plan α} (h : plan.IsEven) : Sharded spread (.empty plan) fun _ => .empty plan :=
  ⟨h, fun _ _ => rfl, fun _ _ _ _ => rfl, nofun⟩

omit [Scalar α] in
/-- An entry can be set in a store and its slices in the stores that it is sharded over. -/
theorem sets (h : Sharded spread whole parts) {entry : Entry α} (hentry : entry.key = key)
    (hkey : Key.ofName key.name = .ok key) (hfits : entry.Fits) (hwhole : whole.Sets key.name entry after)
    (hparts : ∀ span ∈ spread.route key entry.values.length,
      (parts span.server).Sets key.name (entry.slice span) (next span.server))
    (hothers : ∀ i, i ∉ (spread.route key entry.values.length).map (·.server) → next i = parts i) :
    Sharded spread after next := by
  subst hentry
  -- a server is on the route of the entry or is left alone
  have hserver : ∀ i, next i = parts i ∨ ∃ part, (parts i).Sets entry.key.name part (next i) := by
    intro i
    by_cases hmem : i ∈ (spread.route entry.key entry.values.length).map (·.server)
    · obtain ⟨span, hspan, rfl⟩ := List.mem_map.1 hmem
      exact .inr ⟨_, hparts span hspan⟩
    · exact .inl (hothers i hmem)
  have hkept : ∀ name, name ≠ entry.key.name → ∀ i, (next i).get? name = (parts i).get? name := by
    intro name hne i
    obtain heq | ⟨part, hset⟩ := hserver i
    · rw [heq]
    · rw [hset.get?, if_neg hne]
  refine ⟨hwhole.plan ▸ h.even, fun i hi => ?_, fun name hnone i hi => ?_, fun name held hheld => ?_⟩
  · rw [hwhole.plan, ← h.plan i hi]
    obtain heq | ⟨part, hset⟩ := hserver i
    · rw [heq]
    · exact hset.plan
  · rw [hwhole.get?] at hnone
    split at hnone
    · cases hnone
    · rename_i hne
      rw [hkept name hne i]
      exact h.absent name hnone i hi
  · rw [hwhole.get?] at hheld
    split at hheld
    · rename_i heq
      cases hheld
      refine ⟨heq ▸ hkey, hfits, fun span hspan => ?_⟩
      rw [(hparts span hspan).get?, if_pos heq]
    · rename_i hne
      obtain ⟨hname, hfit, hslices⟩ := h.present name held hheld
      refine ⟨hname, hfit, fun span hspan => ?_⟩
      rw [hkept name hne]
      exact hslices span hspan

/-- A new entry is cut as it is made. -/
theorem slice_fresh (h : Sharded spread whole parts) {n : Nat} {span : Span} (hstop : span.stop ≤ n)
    (hserver : span.server < spread.servers) :
    (whole.fresh key n).slice span = (parts span.server).fresh key span.length := by
  have hplan := h.plan span.server hserver
  unfold Store.fresh Entry.slice
  simp only [hplan, h.even.slice key n span hstop, Rule.slice_ofRole hstop]

/-- What a request finds or makes in the store has its slices on the servers of the route, where
they are found or made as well. -/
theorem touch (h : Sharded spread whole parts) (hkey : Key.ofName key.name = .ok key) {n : Nat}
    (hsize : ∀ values ∈ whole.value? key.name, values.length = n) :
    ∃ entry after, entry.key = key ∧ entry.values.length = n ∧ entry.Fits ∧
      Touched whole key.name n entry after ∧
      ∀ span ∈ spread.route key n, ∃ part,
        Touched (parts span.server) key.name span.length (entry.slice span) part := by
  rcases hheld : whole.get? key.name with _ | entry
  · -- no server has the name, so those of the route make their slices as the store makes the whole
    have hlen : (whole.fresh key n).values.length = n := h.even.length key n
    refine ⟨_, _, rfl, hlen, ?_, Touched.new hheld hkey n, fun span hspan => ?_⟩
    · show (Rule.ofRole _ _ _ n).HasLength (whole.fresh key n).values.length
      rw [hlen]
      exact Rule.hasLength_ofRole _ _ _ _
    · have hserver := Spread.server_lt_of_mem_route hspan
      have hstop := (Spread.tiles_route (Nat.zero_lt_of_lt hserver) key n).stop_le span hspan
      rw [h.slice_fresh hstop hserver]
      exact ⟨_, Touched.new (h.absent _ hheld _ hserver) hkey _⟩
  · -- the entry is there, and it is of this key since names are parsed in one way only
    obtain ⟨hname, hfits, hslices⟩ := h.present _ entry hheld
    obtain rfl : entry.key = key := by rw [hkey] at hname; cases hname; rfl
    have hlen : entry.values.length = n := hsize _ (by rw [Store.value?, hheld]; rfl)
    refine ⟨entry, whole, rfl, hlen, hfits, Touched.held hheld n, fun span hspan => ?_⟩
    exact ⟨_, Touched.held (hslices span (hlen ▸ hspan)) _⟩

end Sharded

/-! ## Requests -/

/-- A request to a store: a pull, or a push if there is a gradient. -/
def Store.request (store : Store α) (name : String) (gradient? : Option (List α)) (buffer : List α) :
    Filled StoreError α (Store α) :=
  match gradient? with
  | none => store.pull name buffer
  | some gradient => store.push name gradient buffer

/-- `Serves store name gradient? n entry after`: a request with a buffer of `n` elements succeeds,
gives the values of the entry and leaves it in the store. -/
structure Serves (store : Store α) (name : String) (gradient? : Option (List α)) (n : Nat)
    (entry : Entry α) (after : Store α) : Prop where
  request : ∀ buffer : List α, buffer.length = n →
    store.request name gradient? buffer = ⟨.ok (), entry.values, after⟩
  sets : store.Sets name entry after

namespace Serves

variable {store after : Store α} {name : String} {n : Nat} {entry next : Entry α}

theorem pull (h : Touched store name n entry after) (hlen : entry.values.length = n) :
    Serves store name none n entry after := by
  refine ⟨fun buffer hb => ?_, h.sets⟩
  show store.pull name buffer = _
  rw [Store.pull_touched (hb ▸ h.touch), Entry.read_of_length (hlen.trans hb.symm)]

theorem push (h : Touched store name n entry after) {gradient : List α} (hg : gradient.length = n)
    (hpushed : ∀ buffer : List α, buffer.length = n → entry.pushed gradient buffer = .ok next) :
    Serves store name (some gradient) n next (after.put name next) := by
  refine ⟨fun buffer hb => ?_, h.sets.trans (.put _ _ _)⟩
  show store.push name gradient buffer = _
  rw [Store.push_touched (hg ▸ h.touch), Entry.write_ok (hpushed buffer hb)]

end Serves

/-- A store that is sharded over some stores and these serve a request in the same way: with the
same entry, of which each server on the route has its slice. -/
theorem Sharded.serves {spread : Spread} {whole : Store α} {parts : Nat → Store α} {key : Key}
    (h : Sharded spread whole parts) (hkey : Key.ofName key.name = .ok key) {n : Nat}
    {gradient? : Option (List α)} (hg : ∀ gradient ∈ gradient?, gradient.length = n)
    (hsize : ∀ values ∈ whole.value? key.name, values.length = n) :
    ∃ entry after, entry.key = key ∧ entry.values.length = n ∧ entry.Fits ∧
      Serves whole key.name gradient? n entry after ∧
      ∀ span ∈ spread.route key n, ∃ part,
        Serves (parts span.server) key.name (gradient?.map span.slice) span.length (entry.slice span) part := by
  obtain ⟨entry, after, hk, hlen, hfits, htouched, hslices⟩ := h.touch hkey hsize
  have hstop : ∀ span ∈ spread.route key n, span.stop ≤ n := fun span hspan =>
    (Spread.tiles_route (Nat.zero_lt_of_lt (Spread.server_lt_of_mem_route hspan)) key n).stop_le span hspan
  cases gradient? with
  | none =>
    refine ⟨entry, after, hk, hlen, hfits, .pull htouched hlen, fun span hspan => ?_⟩
    obtain ⟨part, hpart⟩ := hslices span hspan
    exact ⟨part, .pull hpart (Span.length_slice (hlen ▸ hstop span hspan))⟩
  | some gradient =>
    have hgradient : gradient.length = entry.values.length := (hg gradient rfl).trans hlen.symm
    -- the entry after the push is the same for every buffer
    obtain ⟨next, hpush, hnextKey, hnextLen, hnextFits, hnext⟩ :=
      Entry.pushed_slices hfits hgradient hgradient
    refine ⟨next, _, hnextKey.trans hk, hnextLen.trans hlen, hnextFits, .push htouched (hg gradient rfl) ?_,
      fun span hspan => ?_⟩
    · intro buffer hb
      rw [Entry.pushed_congr entry gradient (hb.trans (hg gradient rfl).symm)]
      exact hpush
    · obtain ⟨part, hpart⟩ := hslices span hspan
      have hs : span.stop ≤ entry.values.length := hlen ▸ hstop span hspan
      exact ⟨_, .push hpart (Span.length_slice (hgradient ▸ hs)) (hnext span hs)⟩

end ParamExchange
