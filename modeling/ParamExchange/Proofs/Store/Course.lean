/-
The course of a parameter. A rule works on each number of a parameter by itself, with a velocity of its own,
so a parameter is a row of cells, and a push changes each of them by the number that is pushed to its place.
The values that a request returns are the initial values with all pushes so far applied one after another.
Pulls and requests for other names have no part in it: what is met under a name changes with the pushes to
this name only, whichever request makes the entry. The induction is on the requests.
-/
import ParamExchange.Proofs.Store.Invariant
import ParamExchange.Proofs.Store.Meets

namespace ParamExchange

/-! ## Cells -/

/-- One number of a parameter, and the velocity that is kept for it. -/
structure Cell (α : Type) where
  value : α
  velocity : α

variable {α : Type} [Scalar α]

namespace Cell

/-- A cell that nothing was pushed to. -/
def initial (value : α) : Cell α := ⟨value, 0⟩

/-- What a pushed number does to a cell. Accumulators decay whatever the update is, and weights and biases
follow the update. -/
def push (role : Role) (update : Update α) (momentum : α) (cell : Cell α) (g : α) : Cell α :=
  if role.isMomentum then ⟨momentum * cell.value - g, cell.velocity⟩
  else
    match update with
    | .additive => ⟨cell.value + g, cell.velocity⟩
    | .descent rate => ⟨cell.value - rate * g, cell.velocity⟩
    | .momentumDescent rate decay =>
      ⟨cell.value - rate * (decay * cell.velocity + g), decay * cell.velocity + g⟩

/-- The values of some cells. -/
def values (cells : List (Cell α)) : List α := cells.map (·.value)

/-- Cells after some gradients, which come one after another. -/
def pushAll (step : Cell α → α → Cell α) (cells : List (Cell α)) (gradients : List (List α)) : List (Cell α) :=
  gradients.foldl (List.zipWith step) cells

omit [Scalar α] in
theorem length_values (cells : List (Cell α)) : (values cells).length = cells.length := by simp [values]

omit [Scalar α] in
theorem pushAll_append (step : Cell α → α → Cell α) (cells : List (Cell α)) (first rest : List (List α)) :
    pushAll step cells (first ++ rest) = pushAll step (pushAll step cells first) rest :=
  List.foldl_append

omit [Scalar α] in
/-- Gradients of the right length leave as many cells as there were. -/
theorem length_pushAll (step : Cell α → α → Cell α) {cells : List (Cell α)} {gradients : List (List α)}
    (h : ∀ gradient ∈ gradients, gradient.length = cells.length) :
    (pushAll step cells gradients).length = cells.length := by
  induction gradients generalizing cells with
  | nil => rfl
  | cons gradient gradients ih =>
    obtain ⟨hgradient, hgradients⟩ := List.forall_mem_cons.1 h
    have hlen : (List.zipWith step cells gradient).length = cells.length := by simp [hgradient]
    show (pushAll step (List.zipWith step cells gradient) gradients).length = cells.length
    rw [ih (by rwa [hlen]), hlen]

end Cell

/-! ## Rules and cells -/

namespace Rule

variable {role : Role} {update : Update α} {momentum : α}

/-- The rule of a role over some cells, which keeps their velocities. -/
def ofCells (role : Role) (update : Update α) (momentum : α) (cells : List (Cell α)) : Rule α :=
  if role.isMomentum then accumulate momentum
  else
    match update with
    | .additive => additive
    | .descent rate => descent rate
    | .momentumDescent rate decay => momentumDescent rate decay (cells.map (·.velocity))

theorem ofCells_initial (values : List α) :
    ofCells role update momentum (values.map Cell.initial) = ofRole role update momentum values.length := by
  have hvelocity : (values.map Cell.initial).map (·.velocity) = List.replicate values.length 0 := by
    rw [List.map_map]
    exact List.map_const' ..
  unfold ofCells ofRole
  split
  · rfl
  · cases update with
    | additive => rfl
    | descent rate => rfl
    | momentumDescent rate decay => exact congrArg (momentumDescent rate decay) hvelocity

/-- A rule does to the values what a push does to each cell. -/
theorem push_ofCells {cells : List (Cell α)} {gradient : List α} (h : gradient.length = cells.length) :
    (ofCells role update momentum cells).push gradient (Cell.values cells) =
      .ok (Cell.values (List.zipWith (Cell.push role update momentum) cells gradient),
        ofCells role update momentum (List.zipWith (Cell.push role update momentum) cells gradient)) := by
  have hvalues : (Cell.values cells).length = gradient.length := by simp [Cell.values, h]
  by_cases hrole : role.isMomentum = true
  · simp only [ofCells, hrole, if_true]
    rw [push_accumulate hvalues]
    simp [Cell.values, Cell.push, hrole, List.zipWith_map_left, List.map_zipWith]
  · simp only [ofCells, hrole]
    cases update with
    | additive =>
      refine (push_additive hvalues).trans ?_
      simp [Cell.values, Cell.push, hrole, List.zipWith_map_left, List.map_zipWith]
    | descent rate =>
      refine (push_descent hvalues).trans ?_
      simp [Cell.values, Cell.push, hrole, List.zipWith_map_left, List.map_zipWith]
    | momentumDescent rate decay =>
      have hvelocity : (cells.map (·.velocity)).length = gradient.length := by simp [h]
      refine (push_momentumDescent hvalues hvelocity).trans ?_
      -- the value of a cell goes along its new velocity
      have hcells : List.zipWith (fun p v => p - rate * v) (Cell.values cells)
          (List.zipWith (fun v g => decay * v + g) (cells.map (·.velocity)) gradient) =
          List.zipWith (fun (c : Cell α) g => c.value - rate * (decay * c.velocity + g)) cells gradient := by
        apply List.ext_getElem
        · simp [Cell.values]
        · intro i _ _
          simp [Cell.values]
      rw [hcells]
      simp [Cell.values, Cell.push, hrole, List.zipWith_map_left, List.map_zipWith]

end Rule

/-! ## Entries and cells -/

/-- The entry of a key over some cells, in a store of a plan. -/
def Entry.ofCells (plan : Plan α) (key : Key) (cells : List (Cell α)) : Entry α :=
  ⟨key, Cell.values cells, Rule.ofCells key.role plan.update plan.momentum cells⟩

/-- The cells of a parameter before any push. -/
def Plan.cells (plan : Plan α) (key : Key) (n : Nat) : List (Cell α) := (plan.initial key n).map Cell.initial

/-- What a push does to the cells of a key. -/
def Plan.push (plan : Plan α) (key : Key) : Cell α → α → Cell α :=
  Cell.push key.role plan.update plan.momentum

/-! ## Runs -/

/-- The gradients that some requests push under a name, in their order. -/
def pushesTo (name : String) (requests : List (Request α)) : List (List α) :=
  requests.flatMap fun r => if r.name = name then r.gradient?.toList else []

/-- Every request for a name has a buffer, and a gradient if it has one, of `n` elements. -/
def AreOfLength (name : String) (n : Nat) (requests : List (Request α)) : Prop :=
  ∀ r ∈ requests, r.name = name → r.buffer.length = n ∧ ∀ gradient ∈ r.gradient?, gradient.length = n

omit [Scalar α] in
theorem AreOfLength.pushesTo {name : String} {n : Nat} {requests : List (Request α)}
    (h : AreOfLength name n requests) : ∀ gradient ∈ pushesTo name requests, gradient.length = n := by
  intro gradient hmem
  obtain ⟨r, hr, hgradient⟩ := List.mem_flatMap.1 hmem
  split at hgradient
  · exact (h r hr ‹_›).2 gradient (by simpa using hgradient)
  · cases hgradient

namespace Store

variable {store : Store α} {plan : Plan α} {key : Key} {cells : List (Cell α)}

/-- A request is served by the cells that are met, and leaves them with its push. -/
theorem Meets.serves_cells (h : store.Meets (.ofCells plan key cells)) {gradient? : Option (List α)}
    (hgradient : ∀ gradient ∈ gradient?, gradient.length = cells.length) :
    ∃ after, Serves store key.name gradient? cells.length
      (.ofCells plan key (Cell.pushAll (plan.push key) cells gradient?.toList)) after := by
  have hlen : (Entry.ofCells plan key cells).values.length = cells.length := Cell.length_values cells
  cases gradient? with
  | none =>
    -- a pull may make the entry, with the values that it is met with
    obtain ⟨after, htouched⟩ := h.touched
    rw [hlen] at htouched
    exact ⟨after, .pull htouched hlen⟩
  | some gradient =>
    have hgradient := hgradient gradient rfl
    obtain ⟨after, hserves⟩ := h.serves (hgradient.trans hlen.symm) (Rule.push_ofCells hgradient)
    rw [hlen] at hserves
    exact ⟨after, hserves⟩

/-- After any requests the cells are met with all pushes to their name. -/
theorem Meets.requestAll_cells (h : store.Meets (.ofCells plan key cells)) {requests : List (Request α)}
    (hlength : AreOfLength key.name cells.length requests) :
    (store.requestAll requests).2.Meets
      (.ofCells plan key (Cell.pushAll (plan.push key) cells (pushesTo key.name requests))) := by
  induction requests generalizing store cells with
  | nil => exact h
  | cons r requests ih =>
    obtain ⟨hr, hrequests⟩ := List.forall_mem_cons.1 hlength
    show ((store.request r.name r.gradient? r.buffer).state.requestAll requests).2.Meets _
    rw [pushesTo, List.flatMap_cons]
    by_cases hname : r.name = key.name
    · -- the request pushes to the cells, or pulls and leaves them
      obtain ⟨hbuffer, hgradient⟩ := hr hname
      obtain ⟨after, hserves⟩ := h.serves_cells hgradient
      have hlen : (Cell.pushAll (plan.push key) cells r.gradient?.toList).length = cells.length :=
        Cell.length_pushAll _ fun gradient hmem => hgradient gradient (by simpa using hmem)
      rw [if_pos hname, Cell.pushAll_append, hname, hserves.request _ hbuffer]
      exact ih (Sets.meets hserves.sets) (by rwa [hlen])
    · rw [if_neg hname, List.nil_append]
      refine ih ?_ hrequests
      obtain ⟨e, -, hrequest⟩ | ⟨entry, between, after, -, hrequest, hsets⟩ :=
        request_cases store r.name r.gradient? r.buffer <;>
        rw [hrequest]
      · exact h
      · exact h.sets hsets (Ne.symm hname)

/-- Requests can be made in two runs, one after the other. -/
theorem requestAll_append (store : Store α) (first rest : List (Request α)) :
    store.requestAll (first ++ rest) =
      ((store.requestAll first).1 ++ ((store.requestAll first).2.requestAll rest).1,
        ((store.requestAll first).2.requestAll rest).2) := by
  induction first generalizing store with
  | nil => rfl
  | cons r first ih => simp only [List.cons_append, requestAll, ih]

theorem length_requestAll (store : Store α) (requests : List (Request α)) :
    (store.requestAll requests).1.length = requests.length := by
  induction requests generalizing store with
  | nil => rfl
  | cons r requests ih => exact congrArg (· + 1) (ih _)

/-- The receipt of a request that comes after some others. -/
theorem receipt_requestAll (store : Store α) (before : List (Request α)) (r : Request α) (after : List (Request α)) :
    (store.requestAll (before ++ r :: after)).1[before.length]? =
      let filled := (store.requestAll before).2.request r.name r.gradient? r.buffer
      some ⟨r, filled.result, filled.buffer⟩ := by
  rw [requestAll_append, List.getElem?_append_right (by rw [length_requestAll]), length_requestAll, Nat.sub_self]
  rfl

/-- A store without entries meets every key with its initial cells. -/
theorem meets_empty (hsized : ∀ key n, (plan.initial key n).length = n) {key : Key}
    (hkey : Key.ofName key.name = .ok key) (n : Nat) :
    (empty plan).Meets (.ofCells plan key (plan.cells key n)) := by
  have hvalues : Cell.values (plan.cells key n) = plan.initial key n := by
    simp [Cell.values, Plan.cells, Cell.initial, Function.comp_def]
  refine .new rfl hkey ?_
  unfold Entry.ofCells Plan.cells
  rw [Rule.ofCells_initial, hsized, ← Plan.cells, hvalues]
  show (empty plan).fresh key (plan.initial key n).length = _
  rw [hsized]
  rfl

/-- A request for a key is served by its initial cells with all pushes to it so far. -/
theorem serves_requestAll (hsized : ∀ key n, (plan.initial key n).length = n) {key : Key}
    (hkey : Key.ofName key.name = .ok key) {n : Nat} {before : List (Request α)}
    (hbefore : AreOfLength key.name n before) {gradient? : Option (List α)}
    (hgradient : ∀ gradient ∈ gradient?, gradient.length = n) :
    ∃ after, Serves ((empty plan).requestAll before).2 key.name gradient? n
      (.ofCells plan key (Cell.pushAll (plan.push key) (plan.cells key n)
        (pushesTo key.name before ++ gradient?.toList))) after := by
  have hlen : (plan.cells key n).length = n := (List.length_map ..).trans (hsized key n)
  have hmeets := (meets_empty hsized hkey n).requestAll_cells (by rwa [hlen])
  have hpushed : (Cell.pushAll (plan.push key) (plan.cells key n) (pushesTo key.name before)).length = n :=
    (Cell.length_pushAll _ (by rw [hlen]; exact hbefore.pushesTo)).trans hlen
  rw [Cell.pushAll_append]
  rw [← hpushed] at hgradient
  obtain ⟨after, hserves⟩ := hmeets.serves_cells hgradient
  rw [hpushed] at hserves
  exact ⟨after, hserves⟩

/-- What a pull does to a store: nothing, or it makes the entry of its name. -/
theorem state_pull (store : Store α) (name : String) (buffer : List α) :
    (∀ other, (store.pull name buffer).state.get? other = store.get? other) ∨
      ∃ key, store.get? name = none ∧ Key.ofName name = .ok key ∧
        store.Sets name (store.fresh key buffer.length) (store.pull name buffer).state := by
  rcases store.touch_cases name buffer.length with ⟨entry, -, htouch⟩ | ⟨key, hnone, hkey, htouch⟩ | ⟨e, -, -, htouch⟩
  · rw [pull_touched htouch]
    exact .inl fun _ => rfl
  · rw [pull_touched htouch]
    exact .inr ⟨key, hnone, hkey, .put _ _ _⟩
  · rw [pull_untouched htouch]
    exact .inl fun _ => rfl

/-- The values of a parameter are the fold of the pushes. Let a run on the new store of a configuration make
all its requests for the name of a key with one length; requests for other names may be anything. Every
request for the name succeeds, and it returns the initial values of the key with all pushes to it up to and
with this request applied, one after another and to each number by itself; what a number does is told by the
role of the key and the configured update. A pull, whatever its name and length are and whatever was asked
before, changes no entry; it makes that of its name, with the initial values, if there is none. -/
theorem requestAll_course {config : ServerConfig} {rank : UInt64} {store : Store Single}
    (h : ofConfig config rank = .ok store) {name : String} {key : Key} (hkey : Key.ofName name = .ok key) {n : Nat}
    {requests : List (Request Single)} (hlength : AreOfLength name n requests) :
    ∃ init, Initializer.ofConfig config.init (serverSeed (config.seed.getD 0) rank) = .ok init ∧
      (∀ before r after, requests = before ++ r :: after → r.name = name →
        (store.requestAll requests).1[before.length]? = some ⟨r, .ok (),
          Cell.values (Cell.pushAll (Cell.push key.role config.update config.momentum)
            ((init.values key n).map Cell.initial) (pushesTo name (before ++ [r])))⟩) ∧
      ∀ earlier other buffer,
        let reached := (store.requestAll earlier).2
        let pulled := (reached.pull other buffer).state
        ∀ held, pulled.get? held = reached.get? held ∨
          held = other ∧ reached.get? other = none ∧ ∃ key, Key.ofName other = .ok key ∧
            pulled.get? other = some ⟨key, init.values key buffer.length,
              Rule.ofRole key.role config.update config.momentum buffer.length⟩ := by
  rcases hplan : planOf config rank with e | plan
  · rw [ofConfig, hplan] at h
    cases h
  obtain rfl : empty plan = store := by
    rw [ofConfig, hplan] at h
    cases h
    rfl
  obtain ⟨init, hinit, rfl⟩ := planOf_eq_ok hplan
  let plan : Plan Single := ⟨init.values, config.update, config.momentum⟩
  have hsized : ∀ key n, (plan.initial key n).length = n := fun key n => Sampler.length_fill _ _ n
  obtain rfl : key.name = name := Key.name_of_ofName hkey
  refine ⟨init, hinit, ?_, ?_⟩
  · rintro before r after rfl hname
    have hbefore : AreOfLength key.name n before := fun other hother => hlength other (by simp [hother])
    obtain ⟨hbuffer, hgradient⟩ := hlength r (by simp) hname
    have hpushes : pushesTo key.name (before ++ [r]) = pushesTo key.name before ++ r.gradient?.toList := by
      simp [pushesTo, hname]
    obtain ⟨_, hserves⟩ := serves_requestAll hsized hkey hbefore hgradient
    rw [receipt_requestAll, hname, hserves.request _ hbuffer, hpushes]
    rfl
  · intro earlier other buffer reached pulled held
    have hreached : reached.plan = plan := plan_requestAll _ earlier
    obtain hsame | ⟨made, hnone, hmade, hsets⟩ := state_pull reached other buffer
    · exact .inl (hsame held)
    · by_cases hother : held = other
      · refine .inr ⟨hother, hnone, made, hmade, ?_⟩
        rw [hsets.get?, if_pos rfl, fresh, hreached]
      · exact .inl ((hsets.get? held).trans (if_neg hother))

/-- A weight is pulled first and pushed to twice, with a velocity; between that a bad name is asked for, and
an accumulator with another length. -/
theorem requestAll_course_velocity :
    let rate : Single := ⟨0x3F000000⟩
    let decay : Single := ⟨0x3F400000⟩
    let config : ServerConfig := ⟨1, some 7, ⟨.constant .one, .constant 0, []⟩, .momentumDescent rate decay,
      ServerConfig.defaultMomentum⟩
    let last : Request Single := ⟨"w_0", some [.one, rate], [0, 0]⟩
    let requests : List (Request Single) :=
      [⟨"w_0", none, [0, 0]⟩, ⟨"x_0", none, [0]⟩, ⟨"w_0", some [decay, 0], [0, 0]⟩, ⟨"wd_0", some [rate], [0]⟩, last]
    ∃ store, ofConfig config 0 = .ok store ∧ Key.ofName "w_0" = .ok ⟨"w_0", .weight, 0⟩ ∧
      AreOfLength "w_0" 2 requests ∧
      (store.requestAll requests).1[4]? = some ⟨last, .ok (),
        [.one - rate * (decay * 0 + decay) - rate * (decay * (decay * 0 + decay) + .one),
          .one - rate * (decay * 0 + 0) - rate * (decay * (decay * 0 + 0) + rate)]⟩ := by
  intro rate decay config last requests
  let init : Initializer := ⟨serverSeed 7 0, .constant .one, .constant 0, []⟩
  have hstore : ofConfig config 0 = .ok (empty ⟨init.values, config.update, config.momentum⟩) := rfl
  have hlength : AreOfLength "w_0" 2 requests := by simp [AreOfLength, requests, last]
  have hkey : Key.ofName "w_0" = .ok ⟨"w_0", .weight, 0⟩ := rfl
  obtain ⟨init', hinit, hreceipts, -⟩ := requestAll_course hstore hkey hlength
  obtain rfl : init = init' := Except.ok.inj hinit
  exact ⟨_, hstore, hkey, hlength, hreceipts (requests.take 4) last [] rfl rfl⟩

end Store

end ParamExchange
