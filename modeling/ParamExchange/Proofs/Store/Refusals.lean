/-
Requests that fail. A store refuses a request for its name, for the length of an entry that it holds, or
after it made an entry for a gradient that the buffer does not match. Whatever the reason is, the buffer of
the caller and all entries that were there stay as they were. The rules are told once more as they work on
the values in place, where what is written before a failure stays written: they look at all lengths before
they write anything.
-/
import ParamExchange.Proofs.Store.Invariant
import ParamExchange.Proofs.Store.Meets

namespace ParamExchange

open ParamExchange.Random

/-! ## Tables -/

/-- To put in a table what is there already changes nothing. -/
theorem Table.put_of_get? {κ β : Type} [BEq κ] [LawfulBEq κ] [DecidableEq κ] {key : κ} {value : β}
    {rows : List (κ × β)} (h : get? key rows = some value) : put key value rows = rows := by
  induction rows with
  | nil => cases h
  | cons row rows ih =>
    obtain ⟨k, held⟩ := row
    rw [get?_cons] at h
    by_cases hk : key = k
    · subst hk
      rw [if_pos rfl] at h
      cases h
      exact if_pos (beq_self_eq_true key)
    · rw [if_neg hk] at h
      have hput : put key value ((k, held) :: rows) = (k, held) :: put key value rows :=
        if_neg (by simpa using Ne.symm hk)
      rw [hput, ih h]

/-! ## Work in place -/

/-- What works on a state where it is: what was written before a failure stays written. -/
abbrev InPlace (ε σ β : Type) := ExceptT ε (StateM σ) β

/-- What follows a check happens if nothing was refused. -/
theorem run_check_bind {ε σ : Type} (check : Except ε Unit) (next : InPlace ε σ Unit) (s : σ) :
    ((liftExcept check : InPlace ε σ Unit) >>= fun _ => next).run s =
      match check with
      | .error e => (.error e, s)
      | .ok () => next.run s := by
  cases check <;> rfl

/-- What follows some work happens if the work is done. -/
theorem run_bind {ε σ : Type} (work next : InPlace ε σ Unit) (s : σ) :
    (work >>= fun _ => next).run s =
      match work.run s with
      | (.error e, s) => (.error e, s)
      | (.ok (), s) => next.run s := by
  rcases hwork : work.run s with ⟨e | ⟨⟩, after⟩ <;> unfold ExceptT.run at hwork <;>
    simp only [ExceptT.run, bind, ExceptT.bind, ExceptT.mk, StateT.bind, hwork] <;> rfl

variable {α : Type} [Scalar α]

/-! ## Rules in place -/

namespace Rule

/-- Changes each value by the number at its place. -/
def change (f : α → α → α) (numbers : List α) : InPlace SizeMismatch (List α × Rule α) Unit :=
  modify fun place => (List.zipWith f place.1 numbers, place.2)

/-- The update of the values of a parameter and of their rule in place. The velocity is written before the
values that go along it. -/
def update (gradient : List α) : InPlace SizeMismatch (List α × Rule α) Unit := do
  let (values, rule) ← get
  liftExcept (SizeMismatch.check values.length gradient.length)
  match rule with
  | additive => change (fun p g => p + g) gradient
  | accumulate momentum => change (fun p g => momentum * p - g) gradient
  | descent rate => change (fun p g => p - rate * g) gradient
  | momentumDescent rate momentum velocity => do
    liftExcept (SizeMismatch.check velocity.length gradient.length)
    let velocity := List.zipWith (fun v g => momentum * v + g) velocity gradient
    modify fun place => (place.1, momentumDescent rate momentum velocity)
    change (fun p v => p - rate * v) velocity

/-- The lengths that a gradient is compared with. -/
def lengths (values : List α) : Rule α → List Nat
  | momentumDescent _ _ velocity => [values.length, velocity.length]
  | _ => [values.length]

/-- A rule refuses the first length that is not that of the gradient, and nothing else. -/
theorem push_cases (rule : Rule α) (gradient values : List α) :
    (∃ expected, (rule.lengths values).find? (· ≠ gradient.length) = some expected ∧
      rule.push gradient values = .error ⟨expected, gradient.length⟩) ∨
    ((rule.lengths values).find? (· ≠ gradient.length) = none ∧
      ∃ next after, rule.push gradient values = .ok (next, after)) := by
  by_cases hvalues : values.length = gradient.length
  · cases rule with
    | momentumDescent rate momentum velocity =>
      by_cases hvelocity : velocity.length = gradient.length
      · exact .inr ⟨by simp [lengths, hvalues, hvelocity], _, _, push_momentumDescent hvalues hvelocity⟩
      · refine .inl ⟨velocity.length, by simp [lengths, hvalues, hvelocity], ?_⟩
        simp [push, SizeMismatch.check, hvalues, hvelocity, bind, Except.bind]
    | accumulate momentum => exact .inr ⟨by simp [lengths, hvalues], _, _, push_accumulate hvalues⟩
    | additive => exact .inr ⟨by simp [lengths, hvalues], _, _, push_additive hvalues⟩
    | descent rate => exact .inr ⟨by simp [lengths, hvalues], _, _, push_descent hvalues⟩
  · refine .inl ⟨values.length, by cases rule <;> simp [lengths, hvalues], ?_⟩
    simp [push, SizeMismatch.check, hvalues, bind, Except.bind]

/-- In place a rule leaves what it gives, and what it found if it fails. -/
theorem update_eq (rule : Rule α) (gradient values : List α) :
    (update gradient).run (values, rule) =
      match rule.push gradient values with
      | .error e => (.error e, values, rule)
      | .ok place => (.ok (), place) := by
  refine (run_check_bind _ _ (values, rule)).trans ?_
  unfold push
  rcases SizeMismatch.check values.length gradient.length with e | ⟨⟩
  · rfl
  cases rule with
  | momentumDescent rate momentum velocity =>
    refine (run_check_bind _ _ (values, _)).trans ?_
    rcases hvelocity : SizeMismatch.check velocity.length gradient.length with e | ⟨⟩
    · simp only [bind, Except.bind, hvelocity]
    · simp only [bind, Except.bind, hvelocity]
      rfl
  | _ => rfl

/-- A rule fails for the first length that is not that of the gradient, and then the values and the rule are
as they were; if there is none, the rule leaves what a push gives. -/
theorem update_cases (rule : Rule α) (gradient values : List α) :
    (∃ expected, (rule.lengths values).find? (· ≠ gradient.length) = some expected ∧
      (update gradient).run (values, rule) = (.error ⟨expected, gradient.length⟩, values, rule)) ∨
    ((rule.lengths values).find? (· ≠ gradient.length) = none ∧
      ∃ next after, rule.push gradient values = .ok (next, after) ∧
        (update gradient).run (values, rule) = (.ok (), next, after)) := by
  rcases rule.push_cases gradient values with ⟨expected, hother, hpush⟩ | ⟨hsame, next, after, hpush⟩
  · exact .inl ⟨expected, hother, by rw [update_eq, hpush]⟩
  · exact .inr ⟨hsame, next, after, hpush, by rw [update_eq, hpush]⟩

end Rule

/-! ## Entries -/

/-- The first length of a request that is another one than `n`. A gradient comes before the buffer. -/
def otherLength? (n : Nat) (gradient? : Option (List α)) (buffer : List α) : Option Nat :=
  ((gradient?.toList ++ [buffer]).map List.length).find? (· ≠ n)

omit [Scalar α] in
/-- Of the length that is asked for, only the buffer of a push can be another one. -/
theorem otherLength?_asked {gradient? : Option (List α)} {buffer : List α} {got : Nat} :
    otherLength? (Store.asked gradient? buffer) gradient? buffer = some got ↔
      ∃ gradient, gradient? = some gradient ∧ buffer.length ≠ gradient.length ∧ got = buffer.length := by
  cases gradient? with
  | none => simp [otherLength?, Store.asked]
  | some gradient => by_cases h : buffer.length = gradient.length <;> simp [otherLength?, Store.asked, h, eq_comm]

namespace Entry

omit [Scalar α] in
theorem check_of_ne {entry : Entry α} {n : Nat} (h : entry.values.length ≠ n) :
    entry.check n = .error (.sizeMismatch entry.key.name entry.values.length n) := by
  have hcheck : SizeMismatch.check entry.values.length n = .error ⟨entry.values.length, n⟩ := if_neg h
  unfold check
  rw [hcheck]
  rfl

/-- An entry refuses the first length that is not its own, and leaves the buffer and itself as they are. -/
theorem request_of_otherLength {entry : Entry α} {gradient? : Option (List α)} {buffer : List α} {got : Nat}
    (hgot : otherLength? entry.values.length gradient? buffer = some got) :
    entry.request gradient? buffer =
      ⟨.error (.sizeMismatch entry.key.name entry.values.length got), buffer, entry⟩ := by
  cases gradient? with
  | none =>
    obtain ⟨hne, rfl⟩ : buffer.length ≠ entry.values.length ∧ buffer.length = got := by
      simpa [otherLength?] using hgot
    show entry.read buffer = _
    unfold read
    rw [check_of_ne hne.symm]
  | some gradient =>
    refine write_error ?_
    unfold pushed
    by_cases hgradient : entry.values.length = gradient.length
    · -- the gradient fits, and nothing has been written when the buffer is looked at
      obtain ⟨hne, rfl⟩ : buffer.length ≠ entry.values.length ∧ buffer.length = got := by
        simpa [otherLength?, hgradient] using hgot
      rw [check_of_length hgradient, check_of_ne hne.symm]
      rfl
    · obtain rfl : gradient.length = got := by
        simpa [otherLength?, Ne.symm hgradient] using hgot
      rw [check_of_ne hgradient]
      rfl

theorem Fits.request_ok {entry : Entry α} (h : entry.Fits) {gradient? : Option (List α)} {buffer : List α}
    (hsame : otherLength? entry.values.length gradient? buffer = none) :
    (entry.request gradient? buffer).result = .ok () := by
  cases gradient? with
  | none =>
    have hbuffer : buffer.length = entry.values.length := by simpa [otherLength?] using hsame
    exact congrArg Filled.result (read_of_length hbuffer.symm)
  | some gradient =>
    obtain ⟨hgradient, hbuffer⟩ : gradient.length = entry.values.length ∧ buffer.length = entry.values.length := by
      simpa [otherLength?] using hsame
    obtain ⟨next, hnext, -⟩ := pushed_slices h hgradient hbuffer
    exact congrArg Filled.result (write_ok hnext)

/-- Lets work be done on the values and the rule of an entry, and keeps what it leaves even if it fails. -/
def within (work : InPlace SizeMismatch (List α × Rule α) Unit) : InPlace StoreError (Entry α × List α) Unit :=
  fun place =>
    let (result, values, rule) := work.run (place.1.values, place.1.rule)
    (result.mapError place.1.mismatch, { place.1 with values := values, rule := rule }, place.2)

/-- The update of an entry and of the buffer of a caller in place. -/
def update (gradient : List α) : InPlace StoreError (Entry α × List α) Unit := do
  let (entry, buffer) ← get
  liftExcept (entry.check gradient.length)
  liftExcept (entry.check buffer.length)
  within (Rule.update gradient)
  modify fun place => (place.1, place.1.values)

/-- A rule that fails leaves the entry as it was. -/
theorem run_within_update (entry : Entry α) (gradient buffer : List α) :
    (within (Rule.update gradient)).run (entry, buffer) =
      match entry.rule.push gradient entry.values with
      | .error e => (.error (entry.mismatch e), entry, buffer)
      | .ok (values, rule) => (.ok (), { entry with values := values, rule := rule }, buffer) := by
  have hwithin : (within (Rule.update gradient)).run (entry, buffer) =
      let (result, values, rule) := (Rule.update gradient).run (entry.values, entry.rule)
      (result.mapError entry.mismatch, { entry with values := values, rule := rule }, buffer) := rfl
  rw [hwithin, Rule.update_eq]
  cases entry.rule.push gradient entry.values <;> rfl

/-- In place an entry and a buffer are left as a write gives them, also if it fails. -/
theorem update_eq (entry : Entry α) (gradient buffer : List α) :
    (update gradient).run (entry, buffer) =
      ((entry.write gradient buffer).result, (entry.write gradient buffer).state,
        (entry.write gradient buffer).buffer) := by
  refine (run_check_bind (entry.check gradient.length) _ (entry, buffer)).trans ?_
  rcases hgradient : entry.check gradient.length with e | ⟨⟩
  · have hpushed : entry.pushed gradient buffer = .error e := by simp only [pushed, hgradient, bind, Except.bind]
    rw [write_error hpushed]
  refine (run_check_bind (entry.check buffer.length) _ (entry, buffer)).trans ?_
  rcases hbuffer : entry.check buffer.length with e | ⟨⟩
  · have hpushed : entry.pushed gradient buffer = .error e := by
      simp only [pushed, hgradient, hbuffer, bind, Except.bind]
    rw [write_error hpushed]
  -- the rule is all that is left to fail
  refine (run_bind (within (Rule.update gradient)) _ (entry, buffer)).trans ?_
  rw [run_within_update]
  rcases hpush : entry.rule.push gradient entry.values with e | ⟨values, rule⟩
  · have hpushed : entry.pushed gradient buffer = .error (entry.mismatch e) := by
      simp only [pushed, hgradient, hbuffer, hpush, bind, Except.bind]
    rw [write_error hpushed]
  · have hpushed : entry.pushed gradient buffer = .ok { entry with values := values, rule := rule } := by
      simp only [pushed, hgradient, hbuffer, hpush, bind, Except.bind]
    rw [write_ok hpushed]
    rfl

end Entry

/-! ## Stores -/

namespace Store

variable {store between : Store α} {name : String} {entry : Entry α}

omit [Scalar α] in
/-- To put in a store what it holds already changes nothing. -/
theorem put_of_get? (h : store.get? name = some entry) : store.put name entry = store := by
  unfold put
  rw [Table.put_of_get? h]

/-- How a store refuses a request: the error, and what is left of the store. -/
inductive Refuses (store : Store α) (name : String) :
    Option (List α) → List α → StoreError → Store α → Prop
  /-- The name is not that of a parameter. -/
  | name {cause : KeyError} {gradient? : Option (List α)} {buffer : List α} :
    Key.ofName name = .error cause → Refuses store name gradient? buffer (.key cause) store
  /-- The entry of the name has another length. -/
  | held {entry : Entry α} {gradient? : Option (List α)} {buffer : List α} {got : Nat} :
    store.get? name = some entry → otherLength? entry.values.length gradient? buffer = some got →
    Refuses store name gradient? buffer (.sizeMismatch name entry.values.length got) store
  /-- An entry is made for a gradient, and the buffer has another length. -/
  | made {key : Key} {gradient buffer : List α} :
    store.get? name = none → Key.ofName name = .ok key → buffer.length ≠ gradient.length →
    Refuses store name (some gradient) buffer (.sizeMismatch name gradient.length buffer.length)
      (store.put name (store.fresh key gradient.length))

/-- What the entry of a request refuses, the store refuses, and it is left as it was touched. -/
theorem request_of_refused {gradient? : Option (List α)} {buffer : List α} {e : StoreError}
    (htouch : store.touch name (asked gradient? buffer) = .ok (entry, between))
    (h : entry.request gradient? buffer = ⟨.error e, buffer, entry⟩) :
    store.request name gradient? buffer = ⟨.error e, buffer, between⟩ := by
  cases gradient? with
  | none =>
    change store.touch name buffer.length = _ at htouch
    change entry.read buffer = _ at h
    show store.pull name buffer = _
    rw [pull_touched htouch, h]
  | some gradient =>
    change store.touch name gradient.length = _ at htouch
    change entry.write gradient buffer = _ at h
    show store.push name gradient buffer = _
    rw [push_touched htouch, h, put_of_get? (get?_of_touch htouch)]

theorem request_of_accepted {gradient? : Option (List α)} {buffer : List α}
    (htouch : store.touch name (asked gradient? buffer) = .ok (entry, between))
    (h : (entry.request gradient? buffer).result = .ok ()) :
    (store.request name gradient? buffer).result = .ok () := by
  cases gradient? with
  | none => exact (congrArg Filled.result (pull_touched htouch)).trans h
  | some gradient => exact (congrArg Filled.result (push_touched htouch)).trans h

/-- A store whose entries are all of their names refuses as it is told. -/
theorem Refuses.request {gradient? : Option (List α)} {buffer : List α} {e : StoreError} {after : Store α}
    (hrefuses : store.Refuses name gradient? buffer e after) (h : store.IsSound)
    (hkeys : ∀ entry, store.get? name = some entry → Key.ofName name = .ok entry.key) :
    store.request name gradient? buffer = ⟨.error e, buffer, after⟩ := by
  cases hrefuses with
  | name hcause =>
    rcases store.touch_cases name (asked gradient? buffer) with
      ⟨entry, hheld, -⟩ | ⟨key, -, hkey, -⟩ | ⟨cause, -, hkey, htouch⟩
    · rw [hkeys entry hheld] at hcause
      cases hcause
    · rw [hkey] at hcause
      cases hcause
    · rw [hkey] at hcause
      cases hcause
      cases gradient? with
      | none => exact pull_untouched htouch
      | some gradient => exact push_untouched htouch
  | @held entry _ _ got hheld hgot =>
    refine request_of_refused (touch_held hheld _) ?_
    rw [Entry.request_of_otherLength hgot, Key.name_of_ofName (hkeys entry hheld)]
  | @made key gradient _ hnone hkey hne =>
    have htouch := touch_new hnone hkey gradient.length
    have hlen : (store.fresh key gradient.length).values.length = gradient.length := h.sized key _
    have hgot : otherLength? (store.fresh key gradient.length).values.length (some gradient) buffer =
        some buffer.length := by
      rw [hlen]
      exact otherLength?_asked.2 ⟨gradient, rfl, hne, rfl⟩
    refine request_of_refused htouch ?_
    rw [Entry.request_of_otherLength hgot, hlen, show (store.fresh key _).key.name = name from Key.name_of_ofName hkey]

/-- There is no other way to be refused. -/
theorem IsSound.exists_refuses (h : store.IsSound) {gradient? : Option (List α)} {buffer : List α} {e : StoreError}
    (he : (store.request name gradient? buffer).result = .error e)
    (hkeys : ∀ entry, store.get? name = some entry → Key.ofName name = .ok entry.key) :
    ∃ after, store.Refuses name gradient? buffer e after := by
  suffices hsome : ∃ e after, store.Refuses name gradient? buffer e after by
    obtain ⟨e', after, hrefuses⟩ := hsome
    rw [hrefuses.request h hkeys] at he
    cases he
    exact ⟨after, hrefuses⟩
  rcases store.touch_cases name (asked gradient? buffer) with
    ⟨entry, hheld, htouch⟩ | ⟨key, hnone, hkey, htouch⟩ | ⟨cause, -, hkey, -⟩
  · rcases hother : otherLength? entry.values.length gradient? buffer with _ | got
    · rw [request_of_accepted htouch ((h.touch htouch).1.request_ok hother)] at he
      cases he
    · exact ⟨_, _, .held hheld hother⟩
  · -- the entry that is made has the length that is asked for, so only a buffer can be refused
    have hlen : (store.fresh key (asked gradient? buffer)).values.length = asked gradient? buffer := h.sized key _
    rcases hother : otherLength? (asked gradient? buffer) gradient? buffer with _ | got
    · rw [← hlen] at hother
      rw [request_of_accepted htouch ((h.touch htouch).1.request_ok hother)] at he
      cases he
    · obtain ⟨gradient, rfl, hne, -⟩ := otherLength?_asked.1 hother
      exact ⟨_, _, .made hnone hkey hne⟩
  · exact ⟨_, _, .name hkey⟩

/-- A refusal changes no entry that is there. -/
theorem Refuses.keeps {gradient? : Option (List α)} {buffer : List α} {e : StoreError} {after : Store α}
    (h : store.Refuses name gradient? buffer e after) {other : String} (hheld : store.get? other = some entry) :
    after.get? other = some entry := by
  cases h with
  | name => exact hheld
  | held => exact hheld
  | made hnone =>
    rw [get?_put]
    split
    · rename_i heq
      rw [heq, hnone] at hheld
      cases hheld
    · exact hheld

/-- A name is refused for what it is if and only if it does not parse. -/
theorem Refuses.isKey_iff {gradient? : Option (List α)} {buffer : List α} {e : StoreError} {after : Store α}
    (h : store.Refuses name gradient? buffer e after)
    (hkeys : ∀ entry, store.get? name = some entry → Key.ofName name = .ok entry.key) :
    (∃ cause, e = .key cause) ↔ ∃ cause, Key.ofName name = .error cause := by
  cases h with
  | name hcause => exact ⟨fun _ => ⟨_, hcause⟩, fun _ => ⟨_, rfl⟩⟩
  | held hheld =>
    rw [hkeys _ hheld]
    exact ⟨nofun, nofun⟩
  | made _ hkey =>
    rw [hkey]
    exact ⟨nofun, nofun⟩

/-- Requests that fail change nothing that is there. On the store of a configuration after any requests, a
request fails exactly in one of the ways of `Refuses`: its error, the buffer of its caller and the whole store
after it are told by it, so all entries that there were are as they were, with their values and velocities,
and an entry is added only by a push under a new name whose buffer does not match its gradient, which is
the initial one for the length of the gradient; drawing its values does not fail. The error is that of the
name if and only if the name does not parse. An entry and a buffer that are written where they are end alike.
And each rule fails in place exactly if it is given a gradient of another length than the values or its
velocity, and then changes neither of them. -/
theorem request_refuses {config : ServerConfig} {rank : UInt64} {store : Store Single}
    (h : ofConfig config rank = .ok store) (requests : List (Request Single)) :
    let reached := (store.requestAll requests).2
    (∃ init, Initializer.ofConfig config.init (serverSeed (config.seed.getD 0) rank) = .ok init ∧
      reached.plan = ⟨init.values, config.update, config.momentum⟩ ∧
      ∀ key n, config.init.draw key (Stream.ofSeed (init.keySeed key)) n = .ok (init.values key n)) ∧
    (∀ name gradient? buffer e, (reached.request name gradient? buffer).result = .error e →
      (reached.request name gradient? buffer).buffer = buffer ∧
      reached.Refuses name gradient? buffer e (reached.request name gradient? buffer).state ∧
      (∀ other entry, reached.get? other = some entry →
        (reached.request name gradient? buffer).state.get? other = some entry) ∧
      ((∃ cause, e = .key cause) ↔ ∃ cause, Key.ofName name = .error cause)) ∧
    (∀ name gradient? buffer e after, reached.Refuses name gradient? buffer e after →
      reached.request name gradient? buffer = ⟨.error e, buffer, after⟩) ∧
    (∀ (entry : Entry Single) (gradient buffer : List Single),
      (Entry.update gradient).run (entry, buffer) =
        ((entry.write gradient buffer).result, (entry.write gradient buffer).state,
          (entry.write gradient buffer).buffer)) ∧
    ∀ (rule : Rule Single) (gradient values : List Single),
      (∃ expected, (rule.lengths values).find? (· ≠ gradient.length) = some expected ∧
        (Rule.update gradient).run (values, rule) = (.error ⟨expected, gradient.length⟩, values, rule)) ∨
      ((rule.lengths values).find? (· ≠ gradient.length) = none ∧
        ∃ next after, rule.push gradient values = .ok (next, after) ∧
          (Rule.update gradient).run (values, rule) = (.ok (), next, after)) := by
  intro reached
  rcases hplan : planOf config rank with e | plan
  · rw [ofConfig, hplan] at h
    cases h
  obtain rfl : empty plan = store := by
    rw [ofConfig, hplan] at h
    cases h
    rfl
  obtain ⟨init, hinit, rfl⟩ := planOf_eq_ok hplan
  have hsized : ∀ key n, (init.values key n).length = n := fun key n => Sampler.length_fill _ _ n
  have hsound : reached.IsSound := (IsSound.empty hsized).requestAll requests
  have hkeys : ∀ name entry, reached.get? name = some entry → Key.ofName name = .ok entry.key :=
    fun name entry hentry => (isOf_requestAll hsized requests hentry).key
  refine ⟨⟨init, hinit, plan_requestAll _ requests, fun key n => Initializer.draw_ofConfig hinit key n⟩,
    fun name gradient? buffer e he => ?_, fun name _ _ _ _ hrefuses => hrefuses.request hsound (hkeys name),
    Entry.update_eq, Rule.update_cases⟩
  obtain ⟨after, hrefuses⟩ := hsound.exists_refuses he (hkeys name)
  rw [hrefuses.request hsound (hkeys name)]
  exact ⟨rfl, hrefuses, fun other entry hheld => hrefuses.keeps hheld, hrefuses.isKey_iff (hkeys name)⟩

/-- A weight has gathered a velocity, and a push to a new bias comes with a buffer that is too long: the bias is
made and the weight is kept. -/
theorem request_refuses_made :
    let config : ServerConfig := ⟨1, some 7, ⟨.constant .one, .constant 0, []⟩,
      .momentumDescent ⟨0x3F000000⟩ ⟨0x3F400000⟩, ServerConfig.defaultMomentum⟩
    let requests : List (Request Single) := [⟨"w_0", some [.one, 0], [0, 0]⟩]
    ∃ store entry, ofConfig config 0 = .ok store ∧
      let reached := (store.requestAll requests).2
      let filled := reached.request "b_1" (some [.one]) [0, .one]
      reached.get? "w_0" = some entry ∧ filled.result = .error (.sizeMismatch "b_1" 1 2) ∧
      filled.buffer = [0, .one] ∧ filled.state.get? "w_0" = some entry ∧
      filled.state.get? "b_1" = some ⟨⟨"b_1", .bias, 1⟩, [0], .momentumDescent ⟨0x3F000000⟩ ⟨0x3F400000⟩ [0]⟩ := by
  intro config requests
  let init : Initializer := ⟨serverSeed 7 0, .constant .one, .constant 0, []⟩
  have hstore : ofConfig config 0 = .ok (empty ⟨init.values, config.update, config.momentum⟩) := rfl
  obtain ⟨-, hfails, -, -⟩ := request_refuses hstore requests
  obtain ⟨hbuffer, -, hkept, -⟩ := hfails "b_1" (some [.one]) [0, .one] (.sizeMismatch "b_1" 1 2) rfl
  exact ⟨_, _, hstore, rfl, rfl, hbuffer, hkept "w_0" _ rfl, rfl⟩

end Store

end ParamExchange
