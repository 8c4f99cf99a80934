/-
Clients whose requests are interleaved. Over exact numbers, a weight or a bias that adds or descends ends
with the sum of all that was pushed to it, in whatever order the requests of the clients come: requests for
other names change nothing about it, a push adds to the values what it is worth, and a sum does not depend
on the order. Which request makes the entry does not matter either, since all ask for the same length.
-/
import ParamExchange.Proofs.Store.Invariant
import ParamExchange.Proofs.Store.Meets

namespace ParamExchange

/-! ## Interleavings -/

/-- `Interleaves clients merged`: the lists of all clients are merged, each in its own order. -/
inductive Interleaves {β : Type} : List (List β) → List β → Prop
  | done {clients : List (List β)} : (∀ client ∈ clients, client = []) → Interleaves clients []
  | next (before : List (List β)) {after : List (List β)} {rest merged : List β} {x : β} :
    Interleaves (before ++ rest :: after) merged → Interleaves (before ++ (x :: rest) :: after) (x :: merged)

/-- Whatever the order is, each item of each client comes once. -/
theorem Interleaves.perm {β : Type} {clients : List (List β)} {merged : List β} (h : Interleaves clients merged) :
    merged.Perm clients.flatten := by
  induction h with
  | done hempty => rw [List.flatten_eq_nil_iff.2 hempty]
  | next before _ ih =>
    rw [List.flatten_append, List.flatten_cons] at ih ⊢
    exact (ih.cons _).trans List.perm_middle.symm

/-! ## Sums of gradients -/

/-- The sum of some gradients of `n` elements, place by place. -/
def total (n : Nat) (gradients : List (List Rat)) : List Rat :=
  (List.range n).map fun i => (gradients.map fun gradient => gradient.getD i 0).sum

theorem length_total (n : Nat) (gradients : List (List Rat)) : (total n gradients).length = n := by simp [total]

theorem total_perm {gradients others : List (List Rat)} (h : gradients.Perm others) (n : Nat) :
    total n gradients = total n others := by
  unfold total
  congr
  funext i
  exact (h.map _).sum_eq

/-- Values to which the sum of some gradients is added, times a factor. -/
def gather (factor : Rat) (values : List Rat) (gradients : List (List Rat)) : List Rat :=
  List.zipWith (fun p s => p + factor * s) values (total values.length gradients)

theorem gather_nil (factor : Rat) (values : List Rat) : gather factor values [] = values := by
  apply List.ext_getElem
  · simp [gather, length_total]
  · simp [gather, total]

theorem gather_singleton (factor : Rat) {values gradient : List Rat} (h : gradient.length = values.length) :
    gather factor values [gradient] = List.zipWith (fun p g => p + factor * g) values gradient := by
  apply List.ext_getElem
  · simp [gather, length_total, h]
  · intro i hi hgradient
    have hlen : i < gradient.length := by
      simp at hgradient
      omega
    simp [gather, total, hlen]

/-- Some gradients can be added before the others. -/
theorem gather_append (factor : Rat) (values : List Rat) (first rest : List (List Rat)) :
    gather factor values (first ++ rest) = gather factor (gather factor values first) rest := by
  apply List.ext_getElem
  · simp [gather, length_total]
  · intro i _ _
    simp [gather, total, mul_add, add_assoc]

theorem gather_perm (factor : Rat) (values : List Rat) {gradients others : List (List Rat)}
    (h : gradients.Perm others) : gather factor values gradients = gather factor values others := by
  rw [gather, gather, total_perm h]

/-! ## Rules that add -/

/-- An update that adds what is pushed, times a factor. -/
inductive Update.Adds : Update Rat → Rat → Prop
  | additive : Adds .additive 1
  | descent (rate : Rat) : Adds (.descent rate) (-rate)

/-- A rule that adds what is pushed, times a factor, and keeps nothing. -/
def Rule.Adds (rule : Rule Rat) (factor : Rat) : Prop :=
  ∀ gradient values : List Rat, values.length = gradient.length →
    rule.push gradient values = .ok (List.zipWith (fun p g => p + factor * g) values gradient, rule)

/-- The rule of a weight or a bias adds as the update does. -/
theorem Update.Adds.ofRole {update : Update Rat} {factor : Rat} (h : update.Adds factor) {role : Role}
    (hrole : role.isMomentum = false) (momentum : Rat) (n : Nat) :
    (Rule.ofRole role update momentum n).Adds factor := by
  intro gradient values hlen
  unfold Rule.ofRole
  rw [hrole]
  cases h with
  | additive =>
    refine (Rule.push_additive hlen).trans ?_
    simp
  | descent rate =>
    refine (Rule.push_descent hlen).trans ?_
    congr
    funext p g
    ring

/-- The rule of a weight or a bias is the one that its role was given, at any time. -/
theorem Update.Adds.eq_of_atRest {update : Update Rat} {factor : Rat} (h : update.Adds factor) {role : Role}
    (hrole : role.isMomentum = false) {momentum : Rat} {n : Nat} {rule : Rule Rat}
    (hrule : rule.atRest = Rule.ofRole role update momentum n) : rule = Rule.ofRole role update momentum n := by
  unfold Rule.ofRole at hrule ⊢
  rw [hrole] at hrule ⊢
  cases h <;> cases rule <;> simp_all [Rule.atRest]

/-! ## Runs on one name -/

/-- The gradient of a request, if there is one, and its buffer have `n` elements. -/
structure Request.HasLength (n : Nat) (r : Request Rat) : Prop where
  gradient : ∀ gradient ∈ r.gradient?, gradient.length = n
  buffer : r.buffer.length = n

/-- A request for a weight or a bias, of the length that its name always has. -/
structure Request.IsTrained (length : String → Nat) (r : Request Rat) : Prop where
  key : ∃ key, Key.ofName r.name = .ok key ∧ key.role.isMomentum = false
  fits : r.HasLength (length r.name)

/-- The gradients that are pushed under a name. -/
def gradientsOf (name : String) (requests : List (Request Rat)) : List (List Rat) :=
  (requests.filter (·.name == name)).filterMap (·.gradient?)

theorem gradientsOf_perm {requests others : List (Request Rat)} (h : requests.Perm others) (name : String) :
    (gradientsOf name requests).Perm (gradientsOf name others) :=
  (h.filter _).filterMap _

namespace Store

variable {store : Store Rat} {entry : Entry Rat} {factor : Rat}

/-- A request is served by the entry that is met, and a push adds to its values. -/
theorem Meets.request (h : store.Meets entry) (hrule : entry.rule.Adds factor) {gradient? : Option (List Rat)}
    (hgradient : ∀ gradient ∈ gradient?, gradient.length = entry.values.length) :
    ∃ after, Serves store entry.key.name gradient? entry.values.length
      { entry with values := gather factor entry.values gradient?.toList } after := by
  cases gradient? with
  | none =>
    -- a pull may make the entry, with the values that it is met with
    obtain ⟨after, htouched⟩ := h.touched
    refine ⟨after, ?_⟩
    rw [show (none : Option (List Rat)).toList = [] from rfl, gather_nil]
    exact .pull htouched rfl
  | some gradient =>
    have hlen := hgradient gradient rfl
    rw [show (some gradient).toList = [gradient] from rfl, gather_singleton factor hlen]
    exact h.serves hlen (hrule gradient entry.values hlen.symm)

/-- Requests for one name are served one after another, and all their pushes are added to its values. -/
theorem Meets.requestAll (h : store.Meets entry) (hrule : entry.rule.Adds factor) {requests : List (Request Rat)}
    (hrequests : ∀ r ∈ requests, r.name = entry.key.name ∧ r.HasLength entry.values.length) :
    (∀ receipt ∈ (store.requestAll requests).1, receipt.result = .ok ()) ∧
      (requests = [] ∨ (store.requestAll requests).2.get? entry.key.name =
        some { entry with values := gather factor entry.values (requests.filterMap (·.gradient?)) }) := by
  induction requests generalizing store entry with
  | nil => exact ⟨nofun, .inl rfl⟩
  | cons r requests ih =>
    obtain ⟨⟨hname, hfits⟩, hrequests⟩ := List.forall_mem_cons.1 hrequests
    obtain ⟨after, hserves⟩ := h.request hrule hfits.gradient
    have hrequest := hserves.request r.buffer hfits.buffer
    rw [← hname] at hrequest
    have hlen : (gather factor entry.values r.gradient?.toList).length = entry.values.length := by
      simp [gather, length_total]
    -- what this request adds and what the others add after it is what all of them add
    have hgradients : gather factor entry.values ((r :: requests).filterMap (·.gradient?)) =
        gather factor (gather factor entry.values r.gradient?.toList) (requests.filterMap (·.gradient?)) := by
      rw [← gather_append, List.filterMap_cons]
      cases r.gradient? <;> rfl
    have hmeets : after.Meets { entry with values := gather factor entry.values r.gradient?.toList } :=
      Sets.meets hserves.sets
    obtain ⟨hresults, hget⟩ := ih hmeets hrule (by rw [hlen]; exact hrequests)
    rw [Store.requestAll, hrequest, hgradients]
    refine ⟨List.forall_mem_cons.2 ⟨rfl, hresults⟩, .inr ?_⟩
    rcases hget with rfl | hget
    · -- this was the last request
      rw [List.filterMap_nil, gather_nil]
      exact (hserves.sets.get? _).trans (if_pos rfl)
    · exact hget

/-- Requests for other names may come between. -/
theorem Meets.requestAll_among (h : store.Meets entry) (hrule : entry.rule.Adds factor)
    {requests : List (Request Rat)}
    (hrequests : ∀ r ∈ requests, r.name = entry.key.name → r.HasLength entry.values.length) :
    (∀ receipt ∈ (store.requestAll requests).1, receipt.request.name = entry.key.name → receipt.result = .ok ()) ∧
      ((∀ r ∈ requests, r.name ≠ entry.key.name) ∨ (store.requestAll requests).2.get? entry.key.name =
        some { entry with values := gather factor entry.values (gradientsOf entry.key.name requests) }) := by
  -- the run looks to the name like the run of its own requests
  obtain ⟨hreceipts, hagrees⟩ := (AgreesOn.refl entry.key.name store).requestAll requests
  have hown : ∀ r ∈ requests.filter (·.name == entry.key.name),
      r.name = entry.key.name ∧ r.HasLength entry.values.length := by
    intro r hr
    obtain ⟨hmem, hname⟩ := List.mem_filter.1 hr
    have hname : r.name = entry.key.name := by simpa using hname
    exact ⟨hname, hrequests r hmem hname⟩
  obtain ⟨hresults, hget⟩ := h.requestAll hrule hown
  refine ⟨fun receipt hreceipt hname => hresults receipt ?_, ?_⟩
  · rw [← hreceipts]
    exact List.mem_filter.2 ⟨hreceipt, by simpa using hname⟩
  · rw [hagrees.get?]
    rcases hget with hnone | hget
    · left
      simpa using hnone
    · exact .inr hget

/-! ## Runs of clients -/

/-- There is a receipt for each request. -/
theorem map_request_requestAll (store : Store Rat) (requests : List (Request Rat)) :
    (store.requestAll requests).1.map (·.request) = requests := by
  induction requests generalizing store with
  | nil => rfl
  | cons r requests ih => exact congrArg (r :: ·) (ih _)

/-- The values of a key, those that are held or those that the plan makes. -/
def valuesOf (store : Store Rat) (key : Key) (n : Nat) : List Rat :=
  (store.value? key.name).getD (store.plan.initial key n)

section

variable {plan : Plan Rat} {key : Key} {length : String → Nat} {requests : List (Request Rat)}

/-- After any requests, what is met under the name of a weight or a bias adds as the update does. -/
theorem meets_requestAll (hsized : ∀ key n, (plan.initial key n).length = n) (hupdate : plan.update.Adds factor)
    (earlier : List (Request Rat)) (hstore : ((empty plan).requestAll earlier).2 = store)
    (hkey : Key.ofName key.name = .ok key) (hrole : key.role.isMomentum = false) {n : Nat}
    (hheld : ∀ values ∈ store.value? key.name, values.length = n) :
    (store.valuesOf key n).length = n ∧
      store.Meets ⟨key, store.valuesOf key n, Rule.ofRole key.role plan.update plan.momentum n⟩ := by
  have hplan : store.plan = plan := hstore ▸ plan_requestAll _ earlier
  rcases hget : store.get? key.name with _ | held
  · have hvalues : store.valuesOf key n = plan.initial key n := by simp [valuesOf, value?, hget, hplan]
    rw [hvalues]
    refine ⟨hsized key n, .new hget hkey ?_⟩
    simp [fresh, hplan, hsized]
  · -- the entry that is held has the rule that its role was given
    have hvalues : store.valuesOf key n = held.values := by simp [valuesOf, value?, hget]
    have hlen : held.values.length = n := hheld _ (by simp [value?, hget])
    have hisOf : held.IsOf plan earlier key.name := isOf_requestAll hsized earlier (by rw [hstore, hget])
    have hsame : held.key = key := Except.ok.inj (hisOf.key.symm.trans hkey)
    have hrule : held.rule = Rule.ofRole key.role plan.update plan.momentum n :=
      hupdate.eq_of_atRest hrole (by rw [hisOf.rule, hsame, hlen])
    rw [hvalues, ← hrule]
    subst hsame
    exact ⟨hlen, .held hget⟩

/-- Requests for weights and biases are all served, and each key that they touch gathers its pushes. -/
theorem requestAll_trained (hsized : ∀ key n, (plan.initial key n).length = n) (hupdate : plan.update.Adds factor)
    (earlier : List (Request Rat)) (hstore : ((empty plan).requestAll earlier).2 = store)
    (htrained : ∀ r ∈ requests, r.IsTrained length)
    (hheld : ∀ r ∈ requests, ∀ values ∈ store.value? r.name, values.length = length r.name) :
    (∀ receipt ∈ (store.requestAll requests).1, receipt.result = .ok ()) ∧
      ∀ r ∈ requests, ∀ key, r.name = key.name → Key.ofName key.name = .ok key →
        (store.requestAll requests).2.get? key.name =
          some ⟨key, gather factor (store.valuesOf key (length key.name)) (gradientsOf key.name requests),
            Rule.ofRole key.role plan.update plan.momentum (length key.name)⟩ := by
  have hkeys : ∀ r ∈ requests, ∀ key, r.name = key.name → Key.ofName key.name = .ok key →
      (∀ receipt ∈ (store.requestAll requests).1, receipt.request.name = key.name → receipt.result = .ok ()) ∧
        (store.requestAll requests).2.get? key.name =
          some ⟨key, gather factor (store.valuesOf key (length key.name)) (gradientsOf key.name requests),
            Rule.ofRole key.role plan.update plan.momentum (length key.name)⟩ := by
    intro r hr key hname hkey
    obtain ⟨parsed, hparsed, hrole⟩ := (htrained r hr).key
    obtain rfl : parsed = key := Except.ok.inj (hparsed.symm.trans (hname ▸ hkey))
    obtain ⟨hlen, hmeets⟩ := meets_requestAll hsized hupdate earlier hstore hkey hrole (hname ▸ hheld r hr)
    obtain ⟨hresults, hget⟩ := hmeets.requestAll_among (hupdate.ofRole hrole _ _) fun other hother heq => by
      rw [hlen, ← show other.name = parsed.name from heq]
      exact (htrained other hother).fits
    exact ⟨hresults, hget.resolve_left fun hnone => hnone r hr hname⟩
  refine ⟨fun receipt hreceipt => ?_, fun r hr key hname hkey => (hkeys r hr key hname hkey).2⟩
  have hr : receipt.request ∈ requests := by
    rw [← map_request_requestAll store requests]
    exact List.mem_map_of_mem hreceipt
  obtain ⟨key, hkey, -⟩ := (htrained _ hr).key
  have hname := Key.name_of_ofName hkey
  exact (hkeys _ hr key hname.symm (hname.symm ▸ hkey)).1 receipt hreceipt hname.symm

/-- Asynchronous updates do not depend on their order. Let clients make requests for weights and biases,
every name always with the same length, to a store that adds or descends, after any other requests. Whatever
the interleaving is, all requests succeed and the same store is left: each key that is touched has the values
it had, or was made with, plus the sum of all that was pushed to it, times one or the negated learning rate,
and nothing else is changed. -/
theorem requestAll_interleaved (hsized : ∀ key n, (plan.initial key n).length = n) (hupdate : plan.update.Adds factor)
    (earlier : List (Request Rat)) {clients : List (List (Request Rat))}
    (htrained : ∀ client ∈ clients, ∀ r ∈ client, r.IsTrained length)
    (hheld : ∀ client ∈ clients, ∀ r ∈ client, ∀ values ∈ ((empty plan).requestAll earlier).2.value? r.name,
      values.length = length r.name)
    (h : Interleaves clients requests) :
    let start := ((empty plan).requestAll earlier).2
    let run := start.requestAll requests
    (∀ receipt ∈ run.1, receipt.result = .ok ()) ∧
      (∀ others, Interleaves clients others → ∀ name, AgreesOn name (start.requestAll others).2 run.2) ∧
      (∀ r ∈ clients.flatten, ∀ key, r.name = key.name → Key.ofName key.name = .ok key →
        run.2.value? key.name = some (gather factor (start.valuesOf key (length key.name))
          (gradientsOf key.name clients.flatten))) ∧
      ∀ name, (∀ r ∈ clients.flatten, r.name ≠ name) → run.2.get? name = start.get? name := by
  intro start run
  have hall : ∀ r ∈ clients.flatten,
      r.IsTrained length ∧ ∀ values ∈ start.value? r.name, values.length = length r.name := by
    intro r hr
    obtain ⟨client, hclient, hr⟩ := List.mem_flatten.1 hr
    exact ⟨htrained client hclient r hr, hheld client hclient r hr⟩
  -- what any interleaving leaves under a name is told by all requests of all clients
  have hleft : ∀ merged, Interleaves clients merged →
      (∀ receipt ∈ (start.requestAll merged).1, receipt.result = .ok ()) ∧
      (∀ r ∈ clients.flatten, ∀ key, r.name = key.name → Key.ofName key.name = .ok key →
        (start.requestAll merged).2.get? key.name = some ⟨key, gather factor (start.valuesOf key (length key.name))
            (gradientsOf key.name clients.flatten),
          Rule.ofRole key.role plan.update plan.momentum (length key.name)⟩) ∧
      ∀ name, (∀ r ∈ clients.flatten, r.name ≠ name) → (start.requestAll merged).2.get? name = start.get? name := by
    intro merged hmerged
    have hmem : ∀ r, r ∈ merged ↔ r ∈ clients.flatten := fun r => hmerged.perm.mem_iff
    obtain ⟨hresults, hkeys⟩ := requestAll_trained hsized hupdate earlier rfl
      (fun r hr => (hall r ((hmem r).1 hr)).1) fun r hr => (hall r ((hmem r).1 hr)).2
    refine ⟨hresults, fun r hr key hname hkey => ?_, fun name hnone => ?_⟩
    · rw [hkeys r ((hmem r).2 hr) key hname hkey, gather_perm _ _ (gradientsOf_perm hmerged.perm key.name)]
    · have hother : merged.filter (·.name == name) = [] :=
        List.filter_eq_nil_iff.2 fun r hr => by simpa using hnone r ((hmem r).1 hr)
      have hagrees := ((AgreesOn.refl name start).requestAll merged).2
      rw [hother] at hagrees
      exact hagrees.get?
  obtain ⟨hresults, hkeys, hothers⟩ := hleft requests h
  refine ⟨hresults, fun others hinterleaves name => ⟨?_, ?_⟩, fun r hr key hname hkey => ?_, hothers⟩
  · exact (plan_requestAll start others).trans (plan_requestAll start requests).symm
  · obtain ⟨-, hkeys', hothers'⟩ := hleft others hinterleaves
    by_cases htouched : ∃ r ∈ clients.flatten, r.name = name
    · obtain ⟨r, hr, rfl⟩ := htouched
      obtain ⟨key, hkey, -⟩ := (hall r hr).1.key
      have hname := Key.name_of_ofName hkey
      rw [← hname] at hkey ⊢
      rw [hkeys r hr key hname.symm hkey, hkeys' r hr key hname.symm hkey]
    · have hnone : ∀ r ∈ clients.flatten, r.name ≠ name := by simpa using htouched
      rw [hothers name hnone, hothers' name hnone]
  · rw [value?, hkeys r hr key hname hkey]
    rfl

/-- Two clients push to one weight, which one of them pulled before, and one of them pushes to a bias. -/
theorem requestAll_interleaved_two :
    let plan : Plan Rat := ⟨fun _ n => List.replicate n 1, .descent (1 / 2), 0⟩
    let push (name : String) (gradient : List Rat) : Request Rat := ⟨name, some gradient, gradient.map fun _ => 0⟩
    let pull : Request Rat := ⟨"w_0", none, [0, 0]⟩
    let clients := [[push "w_0" [2, 4], pull], [pull, push "w_0" [6, 8], push "b_1" [10]]]
    let merged := [pull, push "w_0" [2, 4], push "w_0" [6, 8], pull, push "b_1" [10]]
    Interleaves clients merged ∧ ((empty plan).requestAll merged).2.value? "w_0" = some [-3, -5] ∧
      ((empty plan).requestAll merged).2.value? "b_1" = some [-4] := by
  intro plan push pull clients merged
  have hmerged : Interleaves clients merged := by
    refine .next [[push "w_0" [2, 4], pull]] (.next [] ?_)
    refine .next [[pull]] (.next [] (.next [[]] (.done ?_)))
    simp
  have hclients : ∀ client ∈ clients, ∀ r ∈ client, r.IsTrained fun name => if name = "w_0" then 2 else 1 := by
    have hweight : ∃ key, Key.ofName "w_0" = .ok key ∧ key.role.isMomentum = false := ⟨⟨"w_0", .weight, 0⟩, rfl, rfl⟩
    have hbias : ∃ key, Key.ofName "b_1" = .ok key ∧ key.role.isMomentum = false := ⟨⟨"b_1", .bias, 1⟩, rfl, rfl⟩
    simp only [clients, List.forall_mem_cons, List.not_mem_nil, false_implies, implies_true, and_true]
    refine ⟨⟨⟨hweight, ?_⟩, hweight, ?_⟩, ⟨hweight, ?_⟩, ⟨hweight, ?_⟩, hbias, ?_⟩ <;>
      constructor <;> simp [push, pull]
  have hsized : ∀ key n, (plan.initial key n).length = n := fun _ _ => List.length_replicate
  obtain ⟨-, -, hkeys, -⟩ := requestAll_interleaved hsized (.descent (1 / 2)) [] hclients nofun hmerged
  refine ⟨hmerged, ?_, ?_⟩
  · refine (hkeys pull (by simp [clients]) ⟨"w_0", .weight, 0⟩ rfl rfl).trans ?_
    decide +kernel
  · refine (hkeys (push "b_1" [10]) (by simp [clients]) ⟨"b_1", .bias, 1⟩ rfl rfl).trans ?_
    decide +kernel

end

end Store

end ParamExchange
