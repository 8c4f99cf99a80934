/-
The invariant of a store. An entry is made under a name that parses, with the length of the first request
for it and the rule of its role, and from then on it is only changed by pushes that it takes in. These keep
its key, its length and, apart from the velocity, its rule; so what a rule keeps always has the length of
the values, and a rule never refuses what the entry let through to it. A request does at most one such step
under its own name, whether it succeeds or fails, and the induction is on the requests.
-/
import ParamExchange.Proofs.Init.Drawing
import ParamExchange.Proofs.Key.Partners
import ParamExchange.Proofs.Store.Lengths

namespace ParamExchange

/-! ## Tables -/

namespace Table

variable {κ β : Type} [BEq κ] [LawfulBEq κ] [DecidableEq κ]

theorem isSome_get?_iff {key : κ} {rows : List (κ × β)} : (get? key rows).isSome ↔ key ∈ rows.map Prod.fst := by
  induction rows with
  | nil => simp [get?]
  | cons row rows ih =>
    rw [get?_cons, List.map_cons, List.mem_cons, ← ih]
    by_cases hkey : key = row.1 <;> simp [hkey]

/-- A key that is new comes last. -/
theorem map_fst_put (key : κ) (value : β) (rows : List (κ × β)) :
    (put key value rows).map Prod.fst =
      if (get? key rows).isSome then rows.map Prod.fst else rows.map Prod.fst ++ [key] := by
  induction rows with
  | nil => rfl
  | cons row rows ih =>
    rw [put, get?_cons]
    by_cases hkey : row.1 = key
    · -- the row of the key is replaced where it is
      simp [hkey]
    · rw [if_neg (by simpa using hkey), if_neg (Ne.symm hkey), List.map_cons, ih]
      split <;> rfl

end Table

variable {α : Type} [Scalar α]

/-! ## Entries over time -/

namespace Rule

/-- A rule before any push: nothing has gathered in its velocity. -/
def atRest : Rule α → Rule α
  | momentumDescent rate momentum velocity => momentumDescent rate momentum (List.replicate velocity.length 0)
  | rule => rule

theorem atRest_ofRole (role : Role) (update : Update α) (momentum : α) (n : Nat) :
    (ofRole role update momentum n).atRest = ofRole role update momentum n := by
  unfold ofRole
  split
  · rfl
  · cases update <;> simp [atRest]

/-- A push changes nothing but the velocity of a rule. -/
theorem atRest_push {rule after : Rule α} {gradient values next : List α}
    (h : rule.push gradient values = .ok (next, after)) : after.atRest = rule.atRest := by
  obtain ⟨⟨⟩, -, h⟩ := ok_of_bind h
  cases rule with
  | momentumDescent rate momentum velocity =>
    obtain ⟨⟨⟩, hcheck, h⟩ := ok_of_bind h
    cases h
    -- the new velocity is as long as the old one, which the rule has compared with the gradient
    have hlen : velocity.length = gradient.length := by
      unfold SizeMismatch.check at hcheck
      split at hcheck
      · assumption
      · cases hcheck
    simp [atRest, hlen]
  | _ =>
    cases h
    rfl

/-- The velocity of a rule that was resolved for some elements has a number for each of them. -/
theorem length_velocity {role : Role} {update : Update α} {momentum rate decay : α} {n : Nat} {velocity : List α}
    (h : (momentumDescent rate decay velocity).atRest = ofRole role update momentum n) : velocity.length = n := by
  change momentumDescent rate decay (List.replicate velocity.length 0) = _ at h
  unfold ofRole at h
  split at h
  · cases h
  · cases update with
    | additive => cases h
    | descent rate => cases h
    | momentumDescent rate decay =>
      injection h with _ _ hvelocity
      simpa using congrArg List.length hvelocity

end Rule

namespace Entry

variable {entry between next : Entry α}

/-- What becomes of an entry by pushes that it takes in. -/
inductive Leads (entry : Entry α) : Entry α → Prop
  | refl : Leads entry entry
  | push {between next : Entry α} {gradient buffer : List α} :
    Leads entry between → between.pushed gradient buffer = .ok next → Leads entry next

theorem Leads.trans (h : entry.Leads between) (hnext : between.Leads next) : entry.Leads next := by
  induction hnext with
  | refl => exact h
  | push _ hpushed ih => exact ih.push hpushed

/-- What never changes about an entry. -/
structure Keeps (entry next : Entry α) : Prop where
  key : next.key = entry.key
  length : next.values.length = entry.values.length
  rule : next.rule.atRest = entry.rule.atRest

theorem keeps_of_pushed {gradient buffer : List α} (h : entry.pushed gradient buffer = .ok next) :
    entry.Keeps next := by
  obtain ⟨⟨⟩, -, h⟩ := ok_of_bind h
  obtain ⟨⟨⟩, -, h⟩ := ok_of_bind h
  rcases hpush : entry.rule.push gradient entry.values with e | ⟨values, rule⟩
  · rw [hpush] at h
    cases h
  · rw [hpush] at h
    cases h
    exact ⟨rfl, Rule.length_push hpush, Rule.atRest_push hpush⟩

theorem Leads.keeps (h : entry.Leads next) : entry.Keeps next := by
  induction h with
  | refl => exact ⟨rfl, rfl, rfl⟩
  | push _ hpushed ih =>
    have hlast := keeps_of_pushed hpushed
    exact ⟨hlast.key.trans ih.key, hlast.length.trans ih.length, hlast.rule.trans ih.rule⟩

/-- A request makes one push or none. -/
theorem leads_request (entry : Entry α) (gradient? : Option (List α)) (buffer : List α) :
    entry.Leads (entry.request gradient? buffer).state := by
  rcases hresult : (entry.request gradient? buffer).result with e | ⟨⟩
  · rw [request_error hresult]
    exact .refl
  cases gradient? with
  | none =>
    change (entry.read buffer).result = _ at hresult
    show entry.Leads (entry.read buffer).state
    rcases hcheck : entry.check buffer.length with e | ⟨⟩ <;> simp only [read, hcheck] <;> exact .refl
  | some gradient =>
    change (entry.write gradient buffer).result = _ at hresult
    show entry.Leads (entry.write gradient buffer).state
    rcases hpushed : entry.pushed gradient buffer with e | next
    · simp [write_error hpushed] at hresult
    · rw [write_ok hpushed]
      exact .push .refl hpushed

end Entry

/-! ## Stores over time -/

namespace Store

variable {store after : Store α} {name : String}

/-- The names of the entries, in the order in which the entries were made. -/
def names (store : Store α) : List String := store.entries.map Prod.fst

omit [Scalar α] in
theorem get?_eq_none_iff : store.get? name = none ↔ name ∉ store.names := by
  rw [names, ← Table.isSome_get?_iff, ← Option.not_isSome_iff_eq_none]
  rfl

omit [Scalar α] in
theorem names_put (store : Store α) (name : String) (entry : Entry α) :
    (store.put name entry).names = if (store.get? name).isSome then store.names else store.names ++ [name] :=
  Table.map_fst_put name entry store.entries

/-- `Grows store name n after`: a request of `n` elements for the name leads from one store to another. At
most one entry is made, and an entry that was there goes on. -/
structure Grows (store : Store α) (name : String) (n : Nat) (after : Store α) : Prop where
  plan : after.plan = store.plan
  others : ∀ other, other ≠ name → after.get? other = store.get? other
  held : ∀ entry, store.get? name = some entry → ∃ next, after.get? name = some next ∧ entry.Leads next
  made : ∀ key, store.get? name = none → Key.ofName name = .ok key →
    ∃ next, after.get? name = some next ∧ (store.fresh key n).Leads next
  refused : ∀ e, store.get? name = none → Key.ofName name = .error e → after = store
  names : after.names = store.names ∨ name ∉ store.names ∧ after.names = store.names ++ [name]

/-- A name is added if a request makes an entry under it. -/
theorem names_touch {n : Nat} {entry : Entry α} (h : store.touch name n = .ok (entry, after)) :
    after.names = store.names ∨ name ∉ store.names ∧ after.names = store.names ++ [name] := by
  rcases store.touch_cases name n with ⟨held, -, ht⟩ | ⟨key, hnone, -, ht⟩ | ⟨e, -, -, ht⟩ <;>
    rw [ht] at h <;> cases h
  · exact .inl rfl
  · refine .inr ⟨get?_eq_none_iff.1 hnone, ?_⟩
    rw [names_put, hnone]
    rfl

theorem names_request (store : Store α) (name : String) (gradient? : Option (List α)) (buffer : List α) :
    (store.request name gradient? buffer).state.names = store.names ∨
      name ∉ store.names ∧ (store.request name gradient? buffer).state.names = store.names ++ [name] := by
  cases gradient? with
  | none =>
    show (store.pull name buffer).state.names = _ ∨ _ ∧ (store.pull name buffer).state.names = _
    rcases htouch : store.touch name buffer.length with e | ⟨entry, between⟩
    · exact .inl (by rw [pull_untouched htouch])
    · rw [pull_touched htouch]
      exact names_touch htouch
  | some gradient =>
    show (store.push name gradient buffer).state.names = _ ∨ _ ∧ (store.push name gradient buffer).state.names = _
    rcases htouch : store.touch name gradient.length with e | ⟨entry, between⟩
    · exact .inl (by rw [push_untouched htouch])
    · -- the push writes to the entry that it found or made
      rw [push_touched htouch, names_put, get?_of_touch htouch]
      exact names_touch htouch

/-- Every request leads from its store to the next one, whether it succeeds or fails. -/
theorem grows_request (store : Store α) (name : String) (gradient? : Option (List α)) (buffer : List α) :
    store.Grows name (asked gradient? buffer) (store.request name gradient? buffer).state := by
  obtain ⟨hplan, hothers⟩ := request_frame store name gradient? buffer
  refine ⟨hplan, hothers, ?_, ?_, ?_, names_request store name gradient? buffer⟩ <;>
    obtain ⟨e, htouch, hrequest⟩ | ⟨entry, between, after, htouch, hrequest, hsets⟩ :=
      request_cases store name gradient? buffer <;>
    rw [hrequest]
  -- the entry that is held
  · exact fun held hheld => ⟨held, hheld, .refl⟩
  · intro held hheld
    rw [touch_held hheld] at htouch
    cases htouch
    exact ⟨_, by rw [hsets.get?, if_pos rfl], Entry.leads_request _ gradient? buffer⟩
  -- the entry that is made, even if the request fails after that
  · intro key hnone hkey
    rw [touch_new hnone hkey] at htouch
    cases htouch
  · intro key hnone hkey
    rw [touch_new hnone hkey] at htouch
    cases htouch
    exact ⟨_, by rw [hsets.get?, if_pos rfl], Entry.leads_request _ gradient? buffer⟩
  -- the name that does not parse
  · exact fun _ _ _ => rfl
  · intro e hnone hkey
    simp [touch, hnone, hkey] at htouch

/-! ## Runs -/

/-- The number of elements that the first request for a name asks for. -/
def firstAsked? (name : String) (requests : List (Request α)) : Option Nat :=
  (requests.find? (·.name == name)).map fun r => asked r.gradient? r.buffer

theorem plan_requestAll (store : Store α) (requests : List (Request α)) :
    (store.requestAll requests).2.plan = store.plan := by
  induction requests generalizing store with
  | nil => rfl
  | cons r requests ih => exact (ih _).trans (store.grows_request r.name r.gradient? r.buffer).plan

theorem nodup_names_requestAll (h : store.names.Nodup) (requests : List (Request α)) :
    (store.requestAll requests).2.names.Nodup := by
  induction requests generalizing store with
  | nil => exact h
  | cons r requests ih =>
    apply ih
    rcases names_request store r.name r.gradient? r.buffer with hsame | ⟨hnew, hadded⟩
    · rwa [hsame]
    · rw [hadded, ← List.concat_eq_append]
      exact h.concat hnew

/-- An entry goes on through every run. -/
theorem requestAll_held {entry : Entry α} (h : store.get? name = some entry) (requests : List (Request α)) :
    ∃ next, (store.requestAll requests).2.get? name = some next ∧ entry.Leads next := by
  induction requests generalizing store entry with
  | nil => exact ⟨entry, h, .refl⟩
  | cons r requests ih =>
    have hgrows := store.grows_request r.name r.gradient? r.buffer
    by_cases hname : name = r.name
    · subst hname
      -- the request may push to the entry, and the others go on from there
      obtain ⟨between, hbetween, hleads⟩ := hgrows.held entry h
      obtain ⟨next, hnext, hrest⟩ := ih hbetween
      exact ⟨next, hnext, hleads.trans hrest⟩
    · exact ih ((hgrows.others name hname).trans h)

/-- A run makes an entry if its name parses and is asked for. The first request for it tells the length. -/
theorem requestAll_made (h : store.get? name = none) (requests : List (Request α)) :
    (store.requestAll requests).2.get? name = none ∨
      ∃ key n next, Key.ofName name = .ok key ∧ firstAsked? name requests = some n ∧
        (store.requestAll requests).2.get? name = some next ∧ (store.fresh key n).Leads next := by
  induction requests generalizing store with
  | nil => exact .inl h
  | cons r requests ih =>
    have hgrows := store.grows_request r.name r.gradient? r.buffer
    by_cases hname : r.name = name
    · subst hname
      rcases hkey : Key.ofName r.name with e | key
      · -- no request for the name leaves an entry
        rcases ih ((congrArg (get? · r.name) (hgrows.refused e h hkey)).trans h) with hnone | ⟨key, _, _, hok, _⟩
        · exact .inl hnone
        · rw [hkey] at hok
          cases hok
      · -- this is the first request, and the entry that it makes goes on
        obtain ⟨between, hbetween, hleads⟩ := hgrows.made key h hkey
        obtain ⟨next, hnext, hrest⟩ := requestAll_held hbetween requests
        exact .inr ⟨key, _, next, rfl, by simp [firstAsked?], hnext, hleads.trans hrest⟩
    · have hfirst : firstAsked? name (r :: requests) = firstAsked? name requests := by
        simp [firstAsked?, hname]
      have hfresh : (store.request r.name r.gradient? r.buffer).state.fresh = store.fresh := by
        funext key n
        simp only [fresh, hgrows.plan]
      have hrest := ih ((hgrows.others name (Ne.symm hname)).trans h)
      rw [hfresh] at hrest
      rwa [hfirst]

end Store

/-! ## Failures -/

omit [Scalar α] in
/-- A length is refused for being another one. -/
theorem Entry.error_of_check {entry : Entry α} {n : Nat} {e : StoreError} (h : entry.check n = .error e) :
    n ≠ entry.values.length ∧ e = .sizeMismatch entry.key.name entry.values.length n := by
  unfold Entry.check SizeMismatch.check at h
  split at h
  · cases h
  · rename_i hne
    cases h
    exact ⟨Ne.symm hne, rfl⟩

/-- What an entry lets through to its rule, the rule takes in. -/
theorem Entry.Fits.push_ok {entry : Entry α} (h : entry.Fits) {gradient : List α}
    (hgradient : entry.check gradient.length = .ok ()) :
    ∃ values rule, entry.rule.push gradient entry.values = .ok (values, rule) := by
  obtain ⟨values, rule, hpush, -⟩ := Rule.push_slices h (length_of_check hgradient).symm
  exact ⟨values, rule, hpush⟩

/-- An entry refuses a request for the length of its gradient or of its buffer only. -/
theorem Entry.Fits.error_of_request {entry : Entry α} (h : entry.Fits) {gradient? : Option (List α)}
    {buffer : List α} {e : StoreError} (he : (entry.request gradient? buffer).result = .error e) :
    ∃ got, got ∈ buffer.length :: gradient?.toList.map List.length ∧ got ≠ entry.values.length ∧
      e = .sizeMismatch entry.key.name entry.values.length got := by
  cases gradient? with
  | none =>
    change (entry.read buffer).result = _ at he
    rcases hcheck : entry.check buffer.length with cause | ⟨⟩ <;> simp only [Entry.read, hcheck] at he <;> cases he
    exact ⟨_, by simp, Entry.error_of_check hcheck⟩
  | some gradient =>
    change (entry.write gradient buffer).result = _ at he
    rcases hgradient : entry.check gradient.length with cause | ⟨⟩
    · simp only [Entry.write, Entry.pushed, hgradient, bind, Except.bind] at he
      cases he
      exact ⟨_, by simp, Entry.error_of_check hgradient⟩
    rcases hbuffer : entry.check buffer.length with cause | ⟨⟩
    · simp only [Entry.write, Entry.pushed, hgradient, hbuffer, bind, Except.bind] at he
      cases he
      exact ⟨_, by simp, Entry.error_of_check hbuffer⟩
    · obtain ⟨values, rule, hpush⟩ := h.push_ok hgradient
      simp [Entry.write, Entry.pushed, hgradient, hbuffer, hpush, bind, Except.bind] at he

namespace Store

variable {store after : Store α} {name : String}

/-- What a request finds or makes in a sound store takes in what it lets through to its rule. -/
theorem IsSound.push_touched_ok (h : store.IsSound) {n : Nat} {entry : Entry α}
    (htouch : store.touch name n = .ok (entry, after)) {gradient : List α}
    (hgradient : entry.check gradient.length = .ok ()) :
    ∃ values rule, entry.rule.push gradient entry.values = .ok (values, rule) :=
  (h.touch htouch).1.push_ok hgradient

/-- A request to a sound store fails for a name that does not parse, or for the length of its gradient or of
its buffer, which is not that of the entry. -/
theorem IsSound.error_of_request (h : store.IsSound)
    (hkeys : ∀ entry, store.get? name = some entry → entry.key.name = name) {gradient? : Option (List α)}
    {buffer : List α} {e : StoreError} (he : (store.request name gradient? buffer).result = .error e) :
    (∃ cause, Key.ofName name = .error cause ∧ e = .key cause) ∨
      ∃ entry got, (store.request name gradient? buffer).state.get? name = some entry ∧
        got ∈ buffer.length :: gradient?.toList.map List.length ∧ got ≠ entry.values.length ∧
        e = .sizeMismatch name entry.values.length got := by
  obtain ⟨cause, htouch, hrequest⟩ | ⟨entry, between, after, htouch, hrequest, hsets⟩ :=
    request_cases store name gradient? buffer <;>
    rw [hrequest] at he ⊢
  · cases he
    rcases store.touch_cases name (asked gradient? buffer) with ⟨held, -, ht⟩ | ⟨key, -, -, ht⟩ | ⟨e, -, hkey, ht⟩ <;>
      rw [ht] at htouch <;> cases htouch
    exact .inl ⟨e, hkey, rfl⟩
  · obtain ⟨got, hgot, hne, heq⟩ := (h.touch htouch).1.error_of_request he
    have hname : entry.key.name = name := by
      rcases store.touch_cases name (asked gradient? buffer) with
        ⟨held, hheld, ht⟩ | ⟨key, -, hkey, ht⟩ | ⟨e, -, -, ht⟩ <;> rw [ht] at htouch <;> cases htouch
      · exact hkeys _ hheld
      · exact Key.name_of_ofName hkey
    rw [hname] at heq
    refine .inr ⟨entry, got, ?_, hgot, hne, heq⟩
    -- the entry stays as it is
    rw [hsets.get?, if_pos rfl, Entry.request_error he]

theorem IsSound.requestAll (h : store.IsSound) (requests : List (Request α)) :
    (store.requestAll requests).2.IsSound := by
  induction requests generalizing store with
  | nil => exact h
  | cons r requests ih => exact ih (h.request r.name r.gradient? r.buffer)

end Store

/-! ## The invariant -/

/-- What an entry of a store is after some requests. -/
structure Entry.IsOf (plan : Plan α) (requests : List (Request α)) (name : String) (entry : Entry α) : Prop where
  key : Key.ofName name = .ok entry.key
  length : Store.firstAsked? name requests = some entry.values.length
  rule : entry.rule.atRest = Rule.ofRole entry.key.role plan.update plan.momentum entry.values.length
  velocity : ∀ rate momentum velocity, entry.rule = .momentumDescent rate momentum velocity →
    velocity.length = entry.values.length
  values : ((Store.empty plan).fresh entry.key entry.values.length).Leads entry

namespace Store

/-- Whatever is asked of a store without entries, each of its entries is of a name and of its role. -/
theorem isOf_requestAll {plan : Plan α} (hsized : ∀ key n, (plan.initial key n).length = n)
    (requests : List (Request α)) {name : String} {entry : Entry α}
    (h : ((empty plan).requestAll requests).2.get? name = some entry) : entry.IsOf plan requests name := by
  have hnone : (empty plan).get? name = none := rfl
  obtain hnone | ⟨key, n, next, hkey, hfirst, hnext, hleads⟩ := requestAll_made hnone requests
  · rw [hnone] at h
    cases h
  rw [h] at hnext
  cases hnext
  -- the entry is one that the plan made, after some pushes
  obtain ⟨hsame, hlength, hrule⟩ := hleads.keeps
  obtain rfl : entry.key = key := hsame
  obtain rfl : entry.values.length = n := hlength.trans (hsized entry.key n)
  have hrest : entry.rule.atRest =
      Rule.ofRole entry.key.role plan.update plan.momentum entry.values.length :=
    hrule.trans (Rule.atRest_ofRole _ _ _ _)
  refine ⟨hkey, hfirst, hrest, fun rate decay velocity heq => ?_, hleads⟩
  rw [heq] at hrest
  exact Rule.length_velocity hrest

/-- The store of a configuration after any requests, whether they succeeded or failed. Every entry is of a
name that parses, with the length that the first request for it asked for and the rule of its role, and what
the rule keeps has this length. Entries go on through all that follows, and a request adds one at most. The
rules refuse nothing that an entry lets through to them; drawing initial values fails for no key; and so a
request fails only for its name or for the length of its gradient or buffer. -/
theorem requestAll_ofConfig {config : ServerConfig} {rank : UInt64} {store : Store Single}
    (h : ofConfig config rank = .ok store) (requests : List (Request Single)) :
    let reached := (store.requestAll requests).2
    (reached.plan.update = config.update ∧ reached.plan.momentum = config.momentum ∧ reached.names.Nodup ∧
      ∀ name entry, reached.get? name = some entry → entry.IsOf reached.plan requests name) ∧
    (∀ more name entry, reached.get? name = some entry →
      ∃ next, (reached.requestAll more).2.get? name = some next ∧ entry.Leads next ∧ entry.Keeps next) ∧
    (∀ name gradient? buffer,
      let filled := reached.request name gradient? buffer
      (filled.state.names = reached.names ∨
        name ∉ reached.names ∧ filled.state.names = reached.names ++ [name]) ∧
      ∀ e, filled.result = .error e →
        (∃ cause, Key.ofName name = .error cause ∧ e = .key cause) ∨
        ∃ entry got, filled.state.get? name = some entry ∧
          got ∈ buffer.length :: gradient?.toList.map List.length ∧ got ≠ entry.values.length ∧
          e = .sizeMismatch name entry.values.length got) ∧
    (∀ name n entry after gradient, reached.touch name n = .ok (entry, after) →
      entry.check gradient.length = .ok () →
      ∃ values rule, entry.rule.push gradient entry.values = .ok (values, rule)) ∧
    ∃ init, Initializer.ofConfig config.init (serverSeed (config.seed.getD 0) rank) = .ok init ∧
      reached.plan.initial = init.values ∧
      ∀ key n, config.init.draw key (Random.Stream.ofSeed (init.keySeed key)) n = .ok (init.values key n) := by
  intro reached
  rcases hplan : planOf config rank with e | plan
  · rw [ofConfig, hplan] at h
    cases h
  obtain rfl : empty plan = store := by
    rw [ofConfig, hplan] at h
    cases h
    rfl
  obtain ⟨init, hinit, rfl⟩ := planOf_eq_ok hplan
  have hsized : ∀ key n, (init.values key n).length = n := fun key n => Sampler.length_fill _ _ n
  have hreached : reached.plan = ⟨init.values, config.update, config.momentum⟩ := plan_requestAll _ requests
  have hsound : reached.IsSound := (IsSound.empty hsized).requestAll requests
  refine ⟨⟨by rw [hreached], by rw [hreached], ?_, fun name entry hentry => ?_⟩, fun more name entry hentry => ?_,
    fun name gradient? buffer => ⟨names_request reached name gradient? buffer, fun e he => ?_⟩,
    fun name n entry after gradient htouch hcheck => hsound.push_touched_ok htouch hcheck,
    init, hinit, by rw [hreached], fun key n => Initializer.draw_ofConfig hinit key n⟩
  · exact nodup_names_requestAll (show (empty _).names.Nodup from List.nodup_nil) requests
  · rw [hreached]
    exact isOf_requestAll hsized requests hentry
  · obtain ⟨next, hnext, hleads⟩ := requestAll_held hentry more
    exact ⟨next, hnext, hleads, hleads.keeps⟩
  · refine hsound.error_of_request (fun entry hentry => ?_) he
    exact Key.name_of_ofName (isOf_requestAll hsized requests hentry).key

/-- A weight is made by a push of two elements, after a name that does not parse, and refuses a push of one. -/
theorem requestAll_ofConfig_refused :
    let config : ServerConfig := ⟨1, some 7, ⟨.constant ⟨0x3F800000⟩, .constant 0, []⟩,
      .momentumDescent ⟨0x3F000000⟩ ⟨0x3F000000⟩, ServerConfig.defaultMomentum⟩
    let requests : List (Request Single) :=
      [⟨"x_0", none, [0]⟩, ⟨"w_0", some [0, 0], [0, 0]⟩, ⟨"w_0", some [0], [0]⟩]
    ∃ store entry, ofConfig config 0 = .ok store ∧ (store.requestAll requests).2.get? "w_0" = some entry ∧
      entry.values.length = 2 ∧
      (∀ rate decay velocity, entry.rule = .momentumDescent rate decay velocity → velocity.length = 2) ∧
      ∀ gradient : List Single, gradient.length = 2 →
        ∃ values rule, entry.rule.push gradient entry.values = .ok (values, rule) := by
  intro config requests
  let init : Initializer := ⟨serverSeed 7 0, .constant ⟨0x3F800000⟩, .constant 0, []⟩
  have hstore : ofConfig config 0 = .ok (empty ⟨init.values, config.update, config.momentum⟩) := rfl
  obtain ⟨⟨-, -, -, hentries⟩, -, -, hpush, -⟩ := requestAll_ofConfig hstore requests
  obtain ⟨entry, hentry⟩ := Option.isSome_iff_exists.1 (show ((requestAll requests
    (empty ⟨init.values, config.update, config.momentum⟩)).2.get? "w_0").isSome from rfl)
  have hisOf := hentries "w_0" entry hentry
  have hlength : entry.values.length = 2 := (Option.some.inj hisOf.length).symm
  refine ⟨_, entry, hstore, hentry, hlength, fun rate decay velocity heq => ?_, fun gradient hgradient => ?_⟩
  · exact (hisOf.velocity rate decay velocity heq).trans hlength
  · exact hpush "w_0" 2 entry _ gradient (touch_held hentry 2)
      (Entry.check_of_length (hlength.trans hgradient.symm))

end Store

end ParamExchange
