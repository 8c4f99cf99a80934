/-
Isolation of parameters: what a caller sees of the requests for one name does not depend on the
requests for other names, be they good or bad. A request reads the plan of the store and the entry
of its own name, and it writes that entry only; so a run and the same run without the requests for
other names agree on the name at every step.
-/
import ParamExchange.Proofs.Store.Slices

namespace ParamExchange

variable {α : Type} [Scalar α]

/-! ## What a request does -/

/-- A request to an entry: a pull, or a push if there is a gradient. -/
def Entry.request (entry : Entry α) (gradient? : Option (List α)) (buffer : List α) :
    Filled StoreError α (Entry α) :=
  match gradient? with
  | none => entry.read buffer
  | some gradient => entry.write gradient buffer

namespace Store

/-- The number of elements that a request asks for. -/
def asked (gradient? : Option (List α)) (buffer : List α) : Nat := (gradient?.getD buffer).length

theorem Sets.of_touch {store after : Store α} {name : String} {n : Nat} {entry : Entry α}
    (h : store.touch name n = .ok (entry, after)) : store.Sets name entry after := by
  rcases store.touch_cases name n with ⟨held, hheld, ht⟩ | ⟨key, -, -, ht⟩ | ⟨e, -, -, ht⟩ <;>
    rw [ht] at h <;> cases h
  · exact .held hheld
  · exact .put _ _ _

/-- A request is refused for its name, or it is made to the entry of the name and changes no other
entry. -/
theorem request_cases (store : Store α) (name : String) (gradient? : Option (List α)) (buffer : List α) :
    (∃ e, store.touch name (asked gradient? buffer) = .error e ∧
      store.request name gradient? buffer = ⟨.error e, buffer, store⟩) ∨
    ∃ entry between after, store.touch name (asked gradient? buffer) = .ok (entry, between) ∧
      store.request name gradient? buffer = ⟨(entry.request gradient? buffer).result,
        (entry.request gradient? buffer).buffer, after⟩ ∧
      store.Sets name (entry.request gradient? buffer).state after := by
  rcases ht : store.touch name (asked gradient? buffer) with e | ⟨entry, between⟩
  · refine .inl ⟨e, rfl, ?_⟩
    cases gradient? with
    | none => exact pull_untouched ht
    | some gradient => exact push_untouched ht
  · refine .inr ⟨entry, between, ?_⟩
    cases gradient? with
    | none =>
      -- a pull leaves the entry as it is
      have hstate : (entry.read buffer).state = entry := by unfold Entry.read; split <;> rfl
      exact ⟨between, rfl, pull_touched ht, hstate.symm ▸ Sets.of_touch ht⟩
    | some gradient =>
      exact ⟨_, rfl, push_touched ht, (Sets.of_touch ht).trans (.put _ _ _)⟩

/-- A request changes neither the plan nor the entries of other names. -/
theorem request_frame (store : Store α) (name : String) (gradient? : Option (List α)) (buffer : List α) :
    (store.request name gradient? buffer).state.plan = store.plan ∧
      ∀ other, other ≠ name →
        (store.request name gradient? buffer).state.get? other = store.get? other := by
  obtain ⟨e, -, hrequest⟩ | ⟨entry, between, after, -, hrequest, hsets⟩ :=
    request_cases store name gradient? buffer
  · rw [hrequest]
    exact ⟨rfl, fun _ _ => rfl⟩
  · rw [hrequest]
    exact ⟨hsets.plan, fun other hne => by rw [hsets.get?, if_neg hne]⟩

/-! ## Stores that agree on a name -/

/-- Two stores have one plan and the same entry under a name, if any. -/
structure AgreesOn (name : String) (s t : Store α) : Prop where
  plan : s.plan = t.plan
  get? : s.get? name = t.get? name

namespace AgreesOn

variable {name : String} {s t : Store α}

omit [Scalar α] in
theorem refl (name : String) (s : Store α) : AgreesOn name s s := ⟨rfl, rfl⟩

/-- Both stores go on with the same entry, or refuse the name for the same reason. -/
theorem touch (h : AgreesOn name s t) (n : Nat) :
    (s.touch name n).map Prod.fst = (t.touch name n).map Prod.fst := by
  unfold Store.touch Store.fresh
  rw [h.get?, h.plan]
  cases t.get? name with
  | some entry => rfl
  | none => cases Key.ofName name <;> rfl

/-- A request for the name is answered alike, and the stores still agree. -/
theorem request (h : AgreesOn name s t) (gradient? : Option (List α)) (buffer : List α) :
    (s.request name gradient? buffer).result = (t.request name gradient? buffer).result ∧
      (s.request name gradient? buffer).buffer = (t.request name gradient? buffer).buffer ∧
      AgreesOn name (s.request name gradient? buffer).state (t.request name gradient? buffer).state := by
  have htouch := h.touch (asked gradient? buffer)
  obtain ⟨e, hs, hsr⟩ | ⟨entry, between, s', hs, hsr, hsets⟩ := request_cases s name gradient? buffer <;>
    obtain ⟨e', ht, htr⟩ | ⟨entry', between', t', ht, htr, htsets⟩ := request_cases t name gradient? buffer <;>
    rw [hs, ht] at htouch <;> cases htouch <;> rw [hsr, htr]
  · exact ⟨rfl, rfl, h⟩
  · refine ⟨rfl, rfl, hsets.plan.trans (h.plan.trans htsets.plan.symm), ?_⟩
    rw [hsets.get?, htsets.get?, if_pos rfl, if_pos rfl]

/-- A request for another name to one of the stores is not seen. -/
theorem request_of_ne (h : AgreesOn name s t) {other : String} (hne : name ≠ other)
    (gradient? : Option (List α)) (buffer : List α) :
    AgreesOn name (s.request other gradient? buffer).state t := by
  obtain ⟨hplan, hget⟩ := request_frame s other gradient? buffer
  exact ⟨hplan.trans h.plan, (hget name hne).trans h.get?⟩

end AgreesOn

end Store

/-! ## Runs -/

/-- A request under a name: a pull into the buffer, or a push if there is a gradient. -/
structure Request (α : Type) where
  name : String
  gradient? : Option (List α)
  buffer : List α
  deriving DecidableEq

/-- What a caller sees of a request: its result, and what is in the buffer after it. -/
structure Receipt (α : Type) where
  request : Request α
  result : Except StoreError Unit
  buffer : List α

namespace Store

/-- Makes requests one after another: the receipt of each, and the store after them. -/
def requestAll : List (Request α) → Store α → List (Receipt α) × Store α
  | [], store => ([], store)
  | r :: rest, store =>
    let filled := store.request r.name r.gradient? r.buffer
    let (receipts, after) := requestAll rest filled.state
    (⟨r, filled.result, filled.buffer⟩ :: receipts, after)

/-- Two runs whose requests for a name are the same give the same receipts for it, if their stores
agree on the name at the beginning; in the end they still do. -/
theorem AgreesOn.requestAll {name : String} {s t : Store α} (h : AgreesOn name s t)
    (requests : List (Request α)) :
    (requestAll requests s).1.filter (·.request.name == name) =
        (requestAll (requests.filter (·.name == name)) t).1 ∧
      AgreesOn name (requestAll requests s).2 (requestAll (requests.filter (·.name == name)) t).2 := by
  induction requests generalizing s t with
  | nil => exact ⟨rfl, h⟩
  | cons r requests ih =>
    by_cases hname : r.name = name
    · -- the request is made in both runs
      obtain ⟨hresult, hbuffer, hagrees⟩ := (hname.symm ▸ h : AgreesOn r.name s t).request r.gradient? r.buffer
      obtain ⟨hreceipts, hafter⟩ := ih (hname ▸ hagrees)
      simp only [Store.requestAll, List.filter_cons, hname, beq_self_eq_true, if_true] at *
      exact ⟨by rw [hreceipts, hresult, hbuffer], hafter⟩
    · -- it is made in the first run only
      obtain ⟨hreceipts, hafter⟩ := ih (h.request_of_ne (Ne.symm hname) r.gradient? r.buffer)
      have hbeq : (r.name == name) = false := beq_eq_false_iff_ne.2 hname
      simp only [Store.requestAll, List.filter_cons, hbeq, Bool.false_eq_true, if_false]
      exact ⟨hreceipts, hafter⟩

/-- Requests for other names can be left out. In every run from every store, whatever the names,
gradients and buffers are, the receipts for a name are those of the run that makes only the
requests for this name, and so is what the store holds under it in the end. -/
theorem requestAll_filter (store : Store α) (requests : List (Request α)) (name : String) :
    (store.requestAll requests).1.filter (·.request.name == name) =
        (store.requestAll (requests.filter (·.name == name))).1 ∧
      (store.requestAll requests).2.get? name =
        (store.requestAll (requests.filter (·.name == name))).2.get? name := by
  obtain ⟨hreceipts, hafter⟩ := (AgreesOn.refl name store).requestAll requests
  exact ⟨hreceipts, hafter.get?⟩

end Store

end ParamExchange
