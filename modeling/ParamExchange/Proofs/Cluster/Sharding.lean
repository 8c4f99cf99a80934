/-
Sharding is invisible: a worker that makes its calls to the services of a cluster, each of which
holds slices, gets what it would get from one store at hand, call by call. The relation between the
two worlds is `Mirrors`: the services attend to the worker, and the store is sharded over theirs.
One call keeps it, so a whole run does.
-/
import ParamExchange.Proofs.Cluster.Attending
import ParamExchange.Proofs.Network.Calls
import ParamExchange.Proofs.Store.Constant

namespace ParamExchange

open Wire Network

/-! ## Calls -/

/-- A call on a parsed key, whose buffer and gradient have the size that belongs to the name, and
whose frames, those of the answers too, are within the limit. -/
structure Call.IsUse (call : Call) (spread : Spread) (size : String → Nat) : Prop where
  parsed : Key.ofName call.key.name = .ok call.key
  buffer : call.buffer.length = size call.key.name
  gradient : ∀ gradient ∈ call.gradient?, gradient.length = size call.key.name
  sent : ∀ span ∈ spread.route call.key call.buffer.length, (call.message span).body.length ≤ frameLimit
  answered : ∀ span ∈ spread.route call.key call.buffer.length, AnswerFits call.key.name span.length

/-! ## The relation -/

namespace Cluster

/-- The value that the server `i` holds under a name. -/
def value? (c : Cluster) (i : Nat) (name : String) : Option (List Single) :=
  c.services[i]?.bind fun service => service.server.store.value? name

/-- The cluster does at the seat what the store does at hand. -/
def Mirrors (c : Cluster) (seat : Nat) (spread : Spread) (store : Store Single) : Prop :=
  ∃ servers, c.Attends seat spread.servers servers (fun _ => []) ∧
    Sharded spread store fun i => (servers i).store

end Cluster

/-- Every value in the store has the size that belongs to its name. -/
def Store.Sized (store : Store Single) (size : String → Nat) : Prop :=
  ∀ name, ∀ values ∈ store.value? name, values.length = size name

theorem Store.Sets.sized {store after : Store Single} {name : String} {entry : Entry Single}
    {size : String → Nat} (h : store.Sets name entry after) (hsized : store.Sized size)
    (hentry : entry.values.length = size name) : after.Sized size := by
  intro other values hvalues
  rw [Store.value?, h.get?] at hvalues
  split at hvalues
  · rename_i heq
    cases hvalues
    rw [heq, hentry]
  · exact hsized other values hvalues

/-! ## One call -/

/-- A server whose store serves the part of a call answers with the values of its entry. -/
theorem Serves.answers {server : Server} {after : Store Single} {entry : Entry Single} {call : Call}
    {span : Span}
    (h : Serves server.store call.key.name (call.gradient?.map span.slice) span.length entry after)
    (hentry : entry.values.length = span.length)
    (hgradient : ∀ gradient ∈ call.gradient?, (span.slice gradient).length = span.length)
    (hfits : AnswerFits call.key.name span.length) :
    Answers server (call.message span) [.params call.key.name entry.values]
      { server with store := after } := by
  have hzeros := h.request (zeros span.length) List.length_replicate
  obtain ⟨key, gradient?, buffer⟩ := call
  cases gradient? with
  | none =>
    -- the length goes to the server as a word
    have hword : (UInt64.ofNat span.length).toNat = span.length := by
      have hle := (answerFits_iff key.name span.length).1 hfits
      have hlim : frameLimit < 2 ^ 64 := by decide
      rw [UInt64.toNat_ofNat', Nat.mod_eq_of_lt (by omega)]
    have hpull : server.store.pull key.name (zeros span.length) = ⟨.ok (), entry.values, after⟩ := hzeros
    refine .pull (hword.symm ▸ hfits) ?_ ?_ h.sets.value? (hentry.trans hword.symm)
    · rw [hword, hpull]
    · rw [hword, hpull]
  | some gradient =>
    have hlen : (span.slice gradient).length = span.length := hgradient gradient rfl
    have hpush : server.store.push key.name (span.slice gradient) (zeros span.length) =
        ⟨.ok (), entry.values, after⟩ := hzeros
    refine .push ?_ ?_ h.sets.value? (hentry.trans hlen.symm)
    · rw [hlen, hpush]
    · rw [hlen, hpush]

theorem call_ofStore {store after : Store Single} {call : Call} {entry : Entry Single}
    (h : Serves store call.key.name call.gradient? call.buffer.length entry after) :
    (Transport.ofStore : Transport (Store Single) Single).call call store = ⟨.ok (), entry.values, after⟩ := by
  have hrequest := h.request call.buffer rfl
  obtain ⟨key, gradient?, buffer⟩ := call
  cases gradient? with
  | none =>
    have hpull : store.pull key.name buffer = ⟨.ok (), entry.values, after⟩ := hrequest
    show (store.pull key.name buffer).mapError TransportError.store = _
    rw [hpull]
    rfl
  | some gradient =>
    have hpush : store.push key.name gradient buffer = ⟨.ok (), entry.values, after⟩ := hrequest
    show (store.push key.name gradient buffer).mapError TransportError.store = _
    rw [hpush]
    rfl

/-- A call succeeds in both worlds, with the same values, and they still mirror each other. -/
theorem Cluster.Mirrors.call {c : Cluster} {seat : Nat} {spread : Spread} {store : Store Single}
    {size : String → Nat} (h : c.Mirrors seat spread store) (hn : 0 < spread.servers)
    (hm : 0 < spread.minSlice) (hsized : store.Sized size) {call : Call} (huse : call.IsUse spread size) :
    ∃ values next after,
      (Network.transport (Cluster.links seat) spread).call call c = ⟨.ok (), values, next⟩ ∧
      (Transport.ofStore : Transport (Store Single) Single).call call store = ⟨.ok (), values, after⟩ ∧
      next.Mirrors seat spread after ∧ after.Sized size := by
  obtain ⟨servers, hattends, hsharded⟩ := h
  have hgradient : ∀ gradient ∈ call.gradient?, gradient.length = call.buffer.length :=
    fun gradient hmem => (huse.gradient gradient hmem).trans huse.buffer.symm
  obtain ⟨entry, after, hkey, hlen, hfits, hserves, hparts⟩ := hsharded.serves huse.parsed hgradient
    fun values hmem => (hsized _ values hmem).trans huse.buffer.symm
  have htiles := Spread.tiles_route hn call.key call.buffer.length
  have hvalues : ∀ span ∈ spread.route call.key call.buffer.length,
      (span.slice entry.values).length = span.length := fun span hspan =>
    Span.length_slice (hlen ▸ htiles.stop_le span hspan)
  have : Inhabited (Store Single) := ⟨store⟩
  choose! part hpart using hparts
  -- every server on the route answers with its slice of the entry
  have hanswers : ∀ span ∈ spread.route call.key call.buffer.length,
      Answers (servers span.server) (call.message span)
        [.params call.key.name (span.slice entry.values)] { servers span.server with store := part span } :=
    fun span hspan => Serves.answers (hpart span hspan) (hvalues span hspan)
      (fun gradient hmem => Span.length_slice (hgradient gradient hmem ▸ htiles.stop_le span hspan))
      (huse.answered span hspan)
  obtain ⟨next, servers', hrequest, hnext, hserved, hothers⟩ := hattends.request
    (Spread.route_ne_nil hn hm call.key call.buffer.length)
    (Spread.nodup_servers_route spread call.key call.buffer.length)
    (fun span hspan => Spread.server_lt_of_mem_route hspan) huse.sent hanswers hvalues huse.answered
    call.buffer
  refine ⟨entry.values, next, after, ?_, call_ofStore hserves, ⟨servers', hnext, ?_⟩, ?_⟩
  · rw [call_transport _ _ hgradient, hrequest, foldl_overwrite (hlen ▸ htiles) hlen.symm]
  · refine hsharded.sets hkey huse.parsed hfits hserves.sets (fun span hspan => ?_) fun i hi => ?_
    · rw [hlen] at hspan
      rw [hserved span hspan]
      exact (hpart span hspan).sets
    · rw [hlen] at hi
      rw [hothers i hi]
  · exact hserves.sets.sized hsized (hlen.trans huse.buffer)

/-! ## All calls -/

/-- Calls that use each name with one size all succeed, with the same buffers in both worlds. -/
theorem Cluster.Mirrors.callAll {c : Cluster} {seat : Nat} {spread : Spread} {store : Store Single}
    {size : String → Nat} (h : c.Mirrors seat spread store) (hn : 0 < spread.servers)
    (hm : 0 < spread.minSlice) (hsized : store.Sized size) {calls : List Call}
    (huse : ∀ call ∈ calls, call.IsUse spread size) :
    ∃ outcomes next after,
      (Network.transport (Cluster.links seat) spread).callAll calls c = (outcomes, next) ∧
      (Transport.ofStore : Transport (Store Single) Single).callAll calls store = (outcomes, after) ∧
      (∀ outcome ∈ outcomes, outcome.1 = .ok ()) ∧ next.Mirrors seat spread after ∧ after.Sized size := by
  induction calls generalizing c store with
  | nil => exact ⟨[], c, store, rfl, rfl, nofun, h, hsized⟩
  | cons call calls ih =>
    obtain ⟨values, between, middle, hnet, hsingle, hmirrors, hmiddle⟩ :=
      h.call hn hm hsized (huse call (List.mem_cons_self ..))
    obtain ⟨outcomes, next, after, hnetRest, hsingleRest, hok, hnext, hafter⟩ :=
      ih hmirrors hmiddle fun other hmem => huse other (List.mem_cons_of_mem _ hmem)
    refine ⟨(.ok (), values) :: outcomes, next, after, ?_, ?_, ?_, hnext, hafter⟩
    · rw [Transport.callAll, hnet]
      simp only [hnetRest]
    · rw [Transport.callAll, hsingle]
      simp only [hsingleRest]
    · intro outcome hmem
      rcases List.mem_cons.1 hmem with rfl | hmem
      · rfl
      · exact hok outcome hmem

/-! ## What the servers hold -/

theorem mapM_eq_pure {m : Type → Type} [Monad m] [LawfulMonad m] {α β : Type} {f : α → m β} {g : α → β}
    {l : List α} (h : ∀ x ∈ l, f x = pure (g x)) : l.mapM f = pure (l.map g) := by
  induction l with
  | nil => rfl
  | cons x l ih =>
    rw [List.mapM_cons, h x (List.mem_cons_self ..), pure_bind,
      ih fun y hy => h y (List.mem_cons_of_mem _ hy), pure_bind, List.map_cons]

theorem Cluster.Attends.value? {c : Cluster} {seat n i : Nat} {servers : Nat → Server}
    {unread : Nat → List UInt8} (h : c.Attends seat n servers unread) (hi : i < n) (name : String) :
    c.value? i name = (servers i).store.value? name := by
  obtain ⟨service, hservice, hattends⟩ := h i hi
  rw [Cluster.value?, hservice, ← hattends.server]
  rfl

/-- The slices that the servers hold of a parameter are together what the store holds. -/
theorem Cluster.Mirrors.slices {c : Cluster} {seat : Nat} {spread : Spread} {store : Store Single}
    {size : String → Nat} (h : c.Mirrors seat spread store) (hn : 0 < spread.servers)
    (hm : 0 < spread.minSlice) (hsized : store.Sized size) {key : Key}
    (hkey : Key.ofName key.name = .ok key) :
    ((spread.route key (size key.name)).mapM fun span => c.value? span.server key.name).map List.flatten =
      store.value? key.name := by
  obtain ⟨servers, hattends, hsharded⟩ := h
  rcases hheld : store.get? key.name with _ | entry
  · -- no server holds anything, and the route has a server
    have hnone : ∀ i < spread.servers, c.value? i key.name = none := by
      intro i hi
      rw [hattends.value? hi, Store.value?, hsharded.absent _ hheld i hi]
      rfl
    obtain ⟨span, rest, hroute⟩ := List.exists_cons_of_ne_nil
      (Spread.route_ne_nil hn hm key (size key.name))
    have hfirst : c.value? span.server key.name = none :=
      hnone _ (Spread.server_lt_of_mem_route (hroute ▸ List.mem_cons_self ..))
    rw [hroute, List.mapM_cons, hfirst, Store.value?, hheld]
    rfl
  · obtain ⟨hname, -, hslices⟩ := hsharded.present _ entry hheld
    obtain rfl : entry.key = key := by rw [hkey] at hname; cases hname; rfl
    have hvalue : store.value? entry.key.name = some entry.values := by rw [Store.value?, hheld]; rfl
    have hlen : entry.values.length = size entry.key.name := hsized _ _ hvalue
    rw [← hlen, hvalue]
    have hall : ∀ span ∈ spread.route entry.key entry.values.length,
        c.value? span.server entry.key.name = pure (span.slice entry.values) := by
      intro span hspan
      rw [hattends.value? (Spread.server_lt_of_mem_route hspan), Store.value?, hslices span hspan]
      rfl
    have htiles := Spread.tiles_route hn entry.key entry.values.length
    rw [mapM_eq_pure hall, Option.pure_def, Option.map_some, htiles.flatten_slices, List.drop_zero,
      Nat.sub_zero, List.take_length]

/-! ## The beginning -/

/-- The first words of a worker to its servers, which it may leave out. -/
def greet {σ : Type} (links : Links σ) (spread : Spread) (greeting? : Option Identity) (s : σ) :
    Except TransportError Unit × σ :=
  match greeting? with
  | none => (.ok (), s)
  | some identity => Network.connect links spread identity s

namespace Cluster

/-- A cluster of servers that are all made alike. -/
theorem ofConfig_eq {config : ServerConfig} {server : Server}
    (h : ∀ rank, Server.ofConfig config rank = .ok server) (n : Nat) :
    Cluster.ofConfig config n = .ok ⟨(List.range n).map fun _ => Service.start server⟩ := by
  unfold Cluster.ofConfig
  rw [mapM_eq_pure (g := fun _ => server) fun i _ => h (UInt64.ofNat i)]
  show Except.ok (Cluster.mk (((List.range n).map fun _ => server).map Service.start)) = _
  rw [List.map_map]
  rfl

/-- A worker that joins a cluster of new services is attended to. -/
theorem attends_join_each {n : Nat} {servers : Nat → Server} {list : List Server}
    (h : ∀ i < n, list[i]? = some (servers i)) :
    (Cluster.join ⟨list.map Service.start⟩).Attends 0 n servers fun _ => [] := by
  intro i hi
  refine ⟨(Service.start (servers i)).accept none, ?_, rfl, [], rfl⟩
  unfold Cluster.join
  rw [List.map_map, List.getElem?_map, h i hi]
  rfl

theorem attends_join (n : Nat) (server : Server) :
    (Cluster.join ⟨(List.range n).map fun _ => Service.start server⟩).Attends 0 n
      (fun _ => server) fun _ => [] := by
  have heach : ∀ i < n, ((List.range n).map fun _ => server)[i]? = some server := by
    intro i hi
    rw [List.getElem?_map, List.getElem?_range hi]
    rfl
  have hjoin := attends_join_each heach
  rwa [List.map_map] at hjoin

/-- Saying hello to servers that wait for it changes no store. -/
theorem Attends.greet_each {c : Cluster} {seat : Nat} {spread : Spread} {servers : Nat → Server}
    (h : c.Attends seat spread.servers servers fun _ => []) (hn : 0 < spread.servers)
    (hfresh : ∀ i < spread.servers, (servers i).rankSize = none) {greeting? : Option Identity}
    (hfit : ∀ identity ∈ greeting?, (Message.control (.hello identity)).body.length ≤ frameLimit) :
    ∃ joined servers', ParamExchange.greet (links seat) spread greeting? c = (.ok (), joined) ∧
      joined.Attends seat spread.servers servers' (fun _ => []) ∧
      ∀ i, (servers' i).store = (servers i).store := by
  cases greeting? with
  | none => exact ⟨c, servers, rfl, h, fun _ => rfl⟩
  | some identity =>
    have hdistinct : ((List.range spread.servers).map id).Nodup := by
      rw [List.map_id]
      exact List.nodup_range
    obtain ⟨joined, servers', unread, hsend, hjoined, hjobs, hothers⟩ := h.sendAll hdistinct
      (fun i hi => List.mem_range.1 hi) (fun _ _ => hfit identity rfl)
      (fun i hi => Answers.firstHello (hfresh i (List.mem_range.1 hi)))
    refine ⟨joined, servers', ?_, ?_, fun i => ?_⟩
    · show Network.connect _ _ _ _ = _
      unfold Network.connect
      rw [if_neg (Nat.ne_of_gt hn)]
      simp only [id] at hsend
      simp only [hsend]
      rfl
    · have hnone : unread = fun _ => [] := by
        funext i
        by_cases hi : i ∈ List.range spread.servers
        · exact (hjobs i hi).2
        · exact (hothers i (by simpa using hi)).2
      exact hnone ▸ hjoined
    · by_cases hi : i ∈ List.range spread.servers
      · have hserver : servers' i = _ := (hjobs i hi).1
        rw [hserver]
        rfl
      · rw [(hothers i (by simpa using hi)).1]

theorem Attends.greet {c : Cluster} {seat : Nat} {spread : Spread} {server : Server}
    (h : c.Attends seat spread.servers (fun _ => server) fun _ => []) (hn : 0 < spread.servers)
    (hfresh : server.rankSize = none) {greeting? : Option Identity}
    (hfit : ∀ identity ∈ greeting?, (Message.control (.hello identity)).body.length ≤ frameLimit) :
    ∃ joined servers, ParamExchange.greet (links seat) spread greeting? c = (.ok (), joined) ∧
      joined.Attends seat spread.servers servers (fun _ => []) ∧ ∀ i, (servers i).store = server.store :=
  h.greet_each hn (fun _ _ => hfresh) hfit

end Cluster

/-- Sharding is invisible. Let a configuration be accepted whose generators are all constant, and let
a worker make calls that use each name with one size, to `n` fresh servers of the ranks below `n`,
with or without having said hello. Then every call succeeds, the results and the buffers are those of
one fresh store of the configuration, and in the end the slices that the servers on the route of a
key hold are, one after another, the value of that store, or there are none where it has none. -/
theorem callAll_sharded (config : ServerConfig) (rank : UInt64) (server : Server)
    (haccepted : Server.ofConfig config rank = .ok server) (hconstant : config.init.IsConstant)
    (n : Nat) (hn : 0 < n) (minSlice : Nat) (greeting? : Option Identity)
    (hgreeting : ∀ identity ∈ greeting?, (Message.control (.hello identity)).body.length ≤ frameLimit)
    (size : String → Nat) (calls : List Call)
    (hcalls : ∀ call ∈ calls, call.IsUse (Spread.ofMinSlice n minSlice) size) :
    ∃ cluster joined outcomes next after,
      Cluster.ofConfig config n = .ok cluster ∧
      greet (Cluster.links 0) (Spread.ofMinSlice n minSlice) greeting? cluster.join = (.ok (), joined) ∧
      (Network.transport (Cluster.links 0) (Spread.ofMinSlice n minSlice)).callAll calls joined =
        (outcomes, next) ∧
      (Transport.ofStore : Transport (Store Single) Single).callAll calls server.store = (outcomes, after) ∧
      (∀ outcome ∈ outcomes, outcome.1 = .ok ()) ∧
      ∀ key : Key, Key.ofName key.name = .ok key →
        (((Spread.ofMinSlice n minSlice).route key (size key.name)).mapM fun span =>
          next.value? span.server key.name).map List.flatten = after.value? key.name := by
  obtain ⟨plan, heven, rfl, hranks⟩ := Server.ofConfig_rank haccepted hconstant
  have hm : 0 < (Spread.ofMinSlice n minSlice).minSlice := Nat.le_max_right minSlice 1
  have hjoin : (Cluster.join ⟨(List.range n).map fun _ => Service.start ⟨.empty plan, none⟩⟩).Attends 0
      (Spread.ofMinSlice n minSlice).servers (fun _ => ⟨.empty plan, none⟩) fun _ => [] :=
    Cluster.attends_join n ⟨.empty plan, none⟩
  obtain ⟨joined, servers, hgreet, hattends, hstores⟩ := hjoin.greet hn rfl hgreeting
  have hmirrors : joined.Mirrors 0 (Spread.ofMinSlice n minSlice) (.empty plan) := by
    refine ⟨servers, hattends, ?_⟩
    simp only [hstores]
    exact .empty heven
  have hsized : (Store.empty plan : Store Single).Sized size := nofun
  obtain ⟨outcomes, next, after, hnet, hsingle, hok, hnext, hafter⟩ :=
    hmirrors.callAll hn hm hsized hcalls
  exact ⟨_, joined, outcomes, next, after, Cluster.ofConfig_eq hranks n, hgreet, hnet, hsingle, hok,
    fun key hkey => hnext.slices hn hm hafter hkey⟩

/-- Two servers with velocities of their own, a weight that is cut in two and its accumulator. -/
theorem callAll_sharded_two :
    let config : ServerConfig := ⟨1, none, ⟨.constant ⟨0x3F800000⟩, .constant ⟨0⟩, []⟩,
      .momentumDescent ⟨0x3DCCCCCD⟩ ⟨0x3F000000⟩, ServerConfig.defaultMomentum⟩
    let init : Initializer := ⟨Store.serverSeed 0 7, .constant ⟨0x3F800000⟩, .constant ⟨0⟩, []⟩
    let server : Server := ⟨.empty ⟨init.values, config.update, config.momentum⟩, none⟩
    let weight : Key := ⟨"w_0", .weight, 0⟩
    let velocity : Key := ⟨"wd0", .weightMomentum, 0⟩
    let gradient : List Single := [⟨0x3F800000⟩, ⟨0x40000000⟩, ⟨0x7FC00001⟩]
    let calls : List Call := [⟨weight, some gradient, [0, 0, 0]⟩, ⟨velocity, some gradient, [0, 0, 0]⟩,
      ⟨weight, none, gradient⟩]
    let spread := Spread.ofMinSlice 2 0
    Server.ofConfig config 7 = .ok server ∧ config.init.IsConstant ∧ 0 < 2 ∧
      (∀ identity ∈ (none : Option Identity),
        (Message.control (.hello identity)).body.length ≤ frameLimit) ∧
      (∀ call ∈ calls, call.IsUse spread fun _ => 3) ∧
      ∃ cluster joined outcomes next after,
        Cluster.ofConfig config 2 = .ok cluster ∧
        greet (Cluster.links 0) spread none cluster.join = (.ok (), joined) ∧
        (Network.transport (Cluster.links 0) spread).callAll calls joined = (outcomes, next) ∧
        (Transport.ofStore : Transport (Store Single) Single).callAll calls server.store = (outcomes, after) ∧
        (∀ outcome ∈ outcomes, outcome.1 = .ok ()) ∧
        ∀ key : Key, Key.ofName key.name = .ok key →
          ((spread.route key 3).mapM fun span => next.value? span.server key.name).map List.flatten =
            after.value? key.name := by
  intro config init server weight velocity gradient calls spread
  have haccepted : Server.ofConfig config 7 = .ok server := rfl
  have hconstant : config.init.IsConstant := ⟨⟨_, rfl⟩, ⟨_, rfl⟩, nofun⟩
  have hcalls : ∀ call ∈ calls, call.IsUse spread fun _ => 3 := by
    intro call hmem
    have hcall : call = ⟨weight, some gradient, [0, 0, 0]⟩ ∨ call = ⟨velocity, some gradient, [0, 0, 0]⟩ ∨
        call = ⟨weight, none, gradient⟩ := by simpa [calls] using hmem
    rcases hcall with rfl | rfl | rfl
    · exact ⟨by decide, rfl, by decide, by decide, by decide⟩
    · exact ⟨by decide, rfl, by decide, by decide, by decide⟩
    · exact ⟨by decide, rfl, nofun, by decide, by decide⟩
  exact ⟨haccepted, hconstant, by decide, nofun, hcalls,
    callAll_sharded config 7 server haccepted hconstant 2 (by decide) 0 none nofun (fun _ => 3) calls hcalls⟩

end ParamExchange
