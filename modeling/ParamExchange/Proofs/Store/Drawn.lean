/-
Stores that draw. Here an entry is made as its configuration says when its name is first asked for, and a request
fails with the diagnostic of its generator if it can not be sampled. No request to a store that was built of a
configuration fails so: in every run it gives what the store gives whose plan was validated, which has no such
failure.
-/
import ParamExchange.Proofs.Init.Validation
import ParamExchange.Proofs.Store.Isolation

namespace ParamExchange

/-! ## Requests -/

/-- Why a request failed to a store that draws: as one to any store, or for the generator of its entry. -/
inductive DrawnError
  | store (e : StoreError)
  | init (name : String) (e : SamplerError)

/-- What a caller sees of a request to a store that draws. -/
structure DrawnReceipt where
  request : Request Single
  result : Except DrawnError Unit
  buffer : List Single

/-- The receipt of a request to any store. -/
def Receipt.drawn (receipt : Receipt Single) : DrawnReceipt :=
  ⟨receipt.request, receipt.result.mapError .store, receipt.buffer⟩

namespace Store

section Drawn

variable (config : InitConfig) (seed : UInt64)

/-- The entry of a name, which is made if there is none: zeros are filled as the configuration says. -/
def drawnTouch (store : Store Single) (name : String) (length : Nat) :
    Except DrawnError (Entry Single × Store Single) :=
  match store.get? name with
  | some entry => .ok (entry, store)
  | none =>
    match Key.ofName name with
    | .error e => .error (.store (.key e))
    | .ok key =>
      match config.initLayer seed key (List.replicate length 0) with
      | .error e => .error (.init name e)
      | .ok values =>
        let entry : Entry Single :=
          ⟨key, values, Rule.ofRole key.role store.plan.update store.plan.momentum length⟩
        .ok (entry, store.put name entry)

/-- Copies the values of a parameter to a buffer. -/
def drawnPull (store : Store Single) (name : String) (buffer : List Single) :
    Filled DrawnError Single (Store Single) :=
  match store.drawnTouch config seed name buffer.length with
  | .error e => ⟨.error e, buffer, store⟩
  | .ok (entry, store) =>
    let filled := entry.read buffer
    ⟨filled.result.mapError .store, filled.buffer, store⟩

/-- Applies a gradient to a parameter and copies its new values to a buffer. -/
def drawnPush (store : Store Single) (name : String) (gradient buffer : List Single) :
    Filled DrawnError Single (Store Single) :=
  match store.drawnTouch config seed name gradient.length with
  | .error e => ⟨.error e, buffer, store⟩
  | .ok (entry, store) =>
    let filled := entry.write gradient buffer
    ⟨filled.result.mapError .store, filled.buffer, store.put name filled.state⟩

/-- A pull, or a push if there is a gradient. -/
def drawnRequest (store : Store Single) (name : String) (gradient? : Option (List Single)) (buffer : List Single) :
    Filled DrawnError Single (Store Single) :=
  match gradient? with
  | none => store.drawnPull config seed name buffer
  | some gradient => store.drawnPush config seed name gradient buffer

/-- Makes requests one after another: the receipt of each, and the store after them. -/
def drawnRequestAll : List (Request Single) → Store Single → List DrawnReceipt × Store Single
  | [], store => ([], store)
  | r :: rest, store =>
    let filled := store.drawnRequest config seed r.name r.gradient? r.buffer
    let (receipts, after) := drawnRequestAll rest filled.state
    (⟨r, filled.result, filled.buffer⟩ :: receipts, after)

end Drawn

/-! ## Validated plans -/

variable {config : InitConfig} {seed : UInt64} {store : Store Single}

/-- The plan of a store makes the values that its configuration draws. -/
def DrawsFrom (config : InitConfig) (seed : UInt64) (store : Store Single) : Prop :=
  ∀ key buffer, config.initLayer seed key buffer = .ok (store.plan.initial key buffer.length)

/-- A store that is built of a configuration makes what the configuration draws. -/
theorem drawsFrom_ofConfig {server : ServerConfig} {rank : UInt64} (h : Store.ofConfig server rank = .ok store) :
    store.DrawsFrom server.init (serverSeed (server.seed.getD 0) rank) := by
  unfold Store.ofConfig at h
  rcases hplan : planOf server rank with e | plan
  · rw [hplan] at h
    cases h
  · rw [hplan] at h
    cases h
    obtain ⟨init, hinit, rfl⟩ := planOf_eq_ok hplan
    exact Initializer.initLayer_ofConfig hinit

namespace DrawsFrom

theorem touch (h : store.DrawsFrom config seed) (name : String) (length : Nat) :
    store.drawnTouch config seed name length = (store.touch name length).mapError .store := by
  unfold drawnTouch Store.touch
  cases store.get? name with
  | some entry => rfl
  | none =>
    cases Key.ofName name with
    | error e => rfl
    | ok key =>
      simp only [h key (List.replicate length 0), List.length_replicate]
      rfl

/-- A request is answered as by the store whose plan was validated. -/
theorem request (h : store.DrawsFrom config seed) (name : String) (gradient? : Option (List Single))
    (buffer : List Single) :
    store.drawnRequest config seed name gradient? buffer = (store.request name gradient? buffer).mapError .store := by
  cases gradient? with
  | none =>
    show store.drawnPull config seed name buffer = (store.pull name buffer).mapError .store
    rw [drawnPull, Store.pull, h.touch]
    rcases store.touch name buffer.length with e | ⟨entry, between⟩ <;> rfl
  | some gradient =>
    show store.drawnPush config seed name gradient buffer = (store.push name gradient buffer).mapError .store
    rw [drawnPush, Store.push, h.touch]
    rcases store.touch name gradient.length with e | ⟨entry, between⟩ <;> rfl

/-- A run is answered as by the store whose plan was validated, which no request replaces. -/
theorem requestAll (h : store.DrawsFrom config seed) (requests : List (Request Single)) :
    store.drawnRequestAll config seed requests =
      ((store.requestAll requests).1.map Receipt.drawn, (store.requestAll requests).2) := by
  induction requests generalizing store with
  | nil => rfl
  | cons r rest ih =>
    have hplan := (request_frame store r.name r.gradient? r.buffer).1
    have hnext : (store.request r.name r.gradient? r.buffer).state.DrawsFrom config seed := by
      rw [DrawsFrom, hplan]
      exact h
    simp only [drawnRequestAll, Store.requestAll, h.request, Filled.mapError, ih hnext]
    rfl

end DrawsFrom

/-- A store can be built exactly if the configuration of its values is valid. -/
theorem exists_ofConfig_iff {server : ServerConfig} {rank : UInt64} :
    (∃ store, Store.ofConfig server rank = .ok store) ↔ server.init.IsValid := by
  refine Iff.trans ?_
    (Initializer.exists_ofConfig_iff : (∃ init, Initializer.ofConfig server.init
      (serverSeed (server.seed.getD 0) rank) = .ok init) ↔ _)
  unfold Store.ofConfig planOf
  rcases Initializer.ofConfig server.init (serverSeed (server.seed.getD 0) rank) with e | init <;> simp [Except.map]

end Store

/-! ## Validation -/

/-- A configuration that is accepted never fails later. With every seed it is accepted exactly if each of its
overrides is for a weight or a bias and each of its generators can be constructed. Then every buffer is filled
for every key, whatever it held: with zeros for an accumulator, otherwise from the generator that the key
selects, which no override under another name changes; these are the values of the initializer, and a key has
exactly the name that it was given. A store is built of it exactly then, and whatever is asked of the store, no
request fails for a generator: each is answered as by the store whose plan was validated. -/
theorem accepted_never_fails (config : InitConfig) :
    (∀ seed, (∃ init, Initializer.ofConfig config seed = .ok init) ↔ config.IsValid) ∧
    (config.IsValid → ∀ (seed : UInt64) (key : Key) (buffer : List Single),
      ∃ values, config.initLayer seed key buffer = .ok values ∧ values.length = buffer.length ∧
        (key.role.isMomentum = true → values = List.replicate buffer.length 0) ∧
        (key.role.isMomentum = false → ∃ g sampler, Selects config key g ∧ Sampler.ofGenerator g = .ok sampler ∧
          values = (sampler.fill (Random.Stream.ofSeed (InitConfig.keySeed seed key)) buffer.length).1) ∧
        (∀ init, Initializer.ofConfig config seed = .ok init → values = init.values key buffer.length) ∧
        (∀ other : List Single, other.length = buffer.length → config.initLayer seed key other = .ok values) ∧
        ∀ name g, key.name ≠ name →
          InitConfig.initLayer { config with overrides := Table.put name g config.overrides } seed key buffer =
            .ok values) ∧
    (∀ name key, Key.ofName name = .ok key → key.name = name) ∧
    ∀ (server : ServerConfig) (rank : UInt64), server.init = config →
      ((∃ store, Store.ofConfig server rank = .ok store) ↔ config.IsValid) ∧
      ∀ store, Store.ofConfig server rank = .ok store → ∀ requests : List (Request Single),
        let run := store.drawnRequestAll config (Store.serverSeed (server.seed.getD 0) rank) requests
        run = ((store.requestAll requests).1.map Receipt.drawn, (store.requestAll requests).2) ∧
        ∀ receipt ∈ run.1, ∀ name e, receipt.result ≠ .error (.init name e) := by
  refine ⟨fun seed => Initializer.exists_ofConfig_iff, fun hvalid seed key buffer => ?_,
    fun name key hname => Key.name_of_ofName hname, fun server rank hserver => ?_⟩
  · obtain ⟨values, hvalues, hlength, hzero, hdrawn⟩ := hvalid.initLayer seed key buffer
    refine ⟨values, hvalues, hlength, hzero, hdrawn, fun init hinit => ?_, fun other hother => ?_,
      fun name g hname => ?_⟩
    · exact Except.ok.inj (hvalues.symm.trans (Initializer.initLayer_ofConfig hinit key buffer))
    · rw [← hvalues, InitConfig.initLayer_eq_draw, InitConfig.initLayer_eq_draw, hother]
    · rw [InitConfig.initLayer_put hname, hvalues]
  · subst hserver
    refine ⟨Store.exists_ofConfig_iff, fun store hstore requests => ?_⟩
    have hrun := (Store.drawsFrom_ofConfig hstore).requestAll requests
    refine ⟨hrun, fun receipt hreceipt name e => ?_⟩
    rw [hrun] at hreceipt
    obtain ⟨plain, -, rfl⟩ := List.mem_map.1 hreceipt
    rcases hresult : plain.result with e | ⟨⟩ <;> simp [Receipt.drawn, hresult, Except.mapError]

/-- An override of `w_1` is taken for this name, and is not taken for the other spelling; a store is built, and
no request to it fails for a generator. -/
theorem accepted_never_fails_spelled :
    let config : InitConfig := ⟨.constant ⟨0x3F800000⟩, .constant ⟨0⟩, [("w_1", .constant ⟨0x3F000000⟩)]⟩
    let server : ServerConfig := ⟨1, some 7, config, .additive, ServerConfig.defaultMomentum⟩
    config.IsValid ∧
      config.initLayer 7 ⟨"w_1", .weight, 1⟩ [⟨0⟩, ⟨0x7FC00001⟩] = .ok [⟨0x3F000000⟩, ⟨0x3F000000⟩] ∧
      config.initLayer 7 ⟨"w1", .weight, 1⟩ [⟨0⟩, ⟨0x7FC00001⟩] = .ok [⟨0x3F800000⟩, ⟨0x3F800000⟩] ∧
      (∃ g sampler, Selects config ⟨"w1", .weight, 1⟩ g ∧ Sampler.ofGenerator g = .ok sampler) ∧
      ∃ store, Store.ofConfig server 0 = .ok store ∧ ∀ requests,
        ∀ receipt ∈ (store.drawnRequestAll config (Store.serverSeed 7 0) requests).1,
          ∀ name e, receipt.result ≠ .error (.init name e) := by
  intro config server
  obtain ⟨haccepted, hfilled, -, hbuilt⟩ := accepted_never_fails config
  have hvalid : config.IsValid := (haccepted 7).1 ⟨_, rfl⟩
  obtain ⟨_, -, -, -, hdrawn, -⟩ := hfilled hvalid 7 ⟨"w1", .weight, 1⟩ [⟨0⟩]
  obtain ⟨g, sampler, hselects, hsampler, -⟩ := hdrawn rfl
  obtain ⟨hstores, hruns⟩ := hbuilt server 0 rfl
  obtain ⟨store, hstore⟩ := hstores.2 hvalid
  exact ⟨hvalid, rfl, rfl, ⟨g, sampler, hselects, hsampler⟩, store, hstore,
    fun requests => (hruns store hstore requests).2⟩

end ParamExchange
