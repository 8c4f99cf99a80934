/-
Requests of one parameter with different lengths. A server keeps the length of the part that it was
asked for first, so after a run of calls that succeeded it holds under each name a value of the
length that the calls asked it for, and none where they asked for nothing. A call that succeeds keeps
this, and it can only succeed if the servers on its route agree with its length; if they do, nothing
else stands in its way.
-/
import ParamExchange.Proofs.Cluster.Answered
import ParamExchange.Proofs.Cluster.Sharding
import ParamExchange.Proofs.Network.Confusion
import ParamExchange.Proofs.Store.Lengths

namespace ParamExchange

open Wire Network

/-! ## Calls -/

namespace Call

/-- The messages of a call have bodies whose lengths are words. -/
def IsWritable (call : Call) (spread : Spread) : Prop :=
  ∀ span ∈ spread.route call.key call.buffer.length, (call.message span).body.length < 256 ^ lengthWidth

instance (call : Call) (spread : Spread) : Decidable (call.IsWritable spread) :=
  inferInstanceAs (Decidable (∀ span ∈ spread.route call.key call.buffer.length, _ < _))

/-- The call is on a parsed key, its gradient has the length of the buffer, and its frames, those of
the answers too, are within the limit. -/
structure IsGood (call : Call) (spread : Spread) : Prop where
  parsed : Key.ofName call.key.name = .ok call.key
  gradient : ∀ gradient ∈ call.gradient?, gradient.length = call.buffer.length
  sent : ∀ span ∈ spread.route call.key call.buffer.length, (call.message span).body.length ≤ frameLimit
  answered : ∀ span ∈ spread.route call.key call.buffer.length, AnswerFits call.key.name span.length

/-- Some of the calls asked the server `i` for so many elements under the name. -/
def Asked (spread : Spread) (calls : List Call) (i : Nat) (name : String) (length : Nat) : Prop :=
  ∃ call ∈ calls, call.key.name = name ∧
    ∃ span ∈ spread.route call.key call.buffer.length, span.server = i ∧ span.length = length

theorem asked_append {spread : Spread} {calls : List Call} {call : Call} {i : Nat} {name : String} {length : Nat} :
    Asked spread (calls ++ [call]) i name length ↔ Asked spread calls i name length ∨
      (call.key.name = name ∧
        ∃ span ∈ spread.route call.key call.buffer.length, span.server = i ∧ span.length = length) := by
  constructor
  · rintro ⟨other, hmem, hasked⟩
    rcases List.mem_append.1 hmem with hmem | hmem
    · exact .inl ⟨other, hmem, hasked⟩
    · rw [List.mem_singleton.1 hmem] at hasked
      exact .inr hasked
  · rintro (⟨other, hmem, hasked⟩ | hasked)
    · exact ⟨other, List.mem_append_left _ hmem, hasked⟩
    · exact ⟨call, List.mem_append_right _ (List.mem_singleton_self call), hasked⟩

theorem message_ne_disconnect (call : Call) (span : Span) : call.message span ≠ .control .disconnect := by
  unfold message
  split <;> nofun

end Call

/-! ## One server -/

/-- A server that answered a part of a call held a value of this length or none, now holds the values
that it answered, and has not touched other names. -/
theorem Answers.held {server after : Server} {call : Call} {span : Span} {values : List Single}
    (h : Answers server (call.message span) [.params call.key.name values] after)
    (hlen : values.length = span.length) (hs : server.store.IsSound) :
    (∀ old ∈ server.store.value? call.key.name, old.length = span.length) ∧
      after.store.value? call.key.name = some values ∧ after.store.IsSound ∧
      ∀ name, name ≠ call.key.name → after.store.value? name = server.store.value? name := by
  obtain ⟨key, gradient?, buffer⟩ := call
  suffices hrequest : ∃ (gradient? : Option (List Single)) (part : List Single), part.length = span.length ∧
      (server.store.request key.name gradient? part).result = .ok () ∧
      (server.store.request key.name gradient? part).state = after.store ∧
      after.store.value? key.name = some values by
    obtain ⟨gradient?, part, hpart, hok, hstate, hvalue⟩ := hrequest
    obtain ⟨hold, hsound, hkept⟩ := hs.request_ok hok
    rw [hstate] at hsound hkept
    exact ⟨fun old hmem => (hold old hmem).trans hpart, hvalue, hsound,
      fun name hne => by rw [Store.value?, Store.value?, hkept name hne]⟩
  cases gradient? with
  | none =>
    have hpull : Answers server (.pull key.name (UInt64.ofNat span.length)) [.params key.name values] after := h
    cases hpull with
    | pull _ hok hstate hvalue hvalues =>
      exact ⟨none, _, (List.length_replicate.trans hvalues.symm).trans hlen, hok, hstate, hvalue⟩
  | some gradient =>
    have hpush : Answers server (.push key.name (span.slice gradient)) [.params key.name values] after := h
    cases hpush with
    | push hok hstate hvalue hvalues =>
      exact ⟨some _, _, (List.length_replicate.trans hvalues.symm).trans hlen, hok, hstate, hvalue⟩

/-- What such a server holds has the lengths that it had before, and the length of its part. -/
theorem Answers.holds_iff {server after : Server} {call : Call} {span : Span} {values : List Single}
    (h : Answers server (call.message span) [.params call.key.name values] after)
    (hlen : values.length = span.length) (hs : server.store.IsSound) (name : String) (length : Nat) :
    (∃ held ∈ after.store.value? name, held.length = length) ↔
      (∃ held ∈ server.store.value? name, held.length = length) ∨
        (call.key.name = name ∧ span.length = length) := by
  obtain ⟨hold, hvalue, -, hkept⟩ := h.held hlen hs
  by_cases hname : name = call.key.name
  · subst hname
    rw [hvalue]
    constructor
    · rintro ⟨held, hheld, rfl⟩
      cases hheld
      exact .inr ⟨rfl, hlen.symm⟩
    · rintro (⟨old, hmem, rfl⟩ | ⟨-, rfl⟩)
      · exact ⟨values, rfl, hlen.trans (hold old hmem).symm⟩
      · exact ⟨values, rfl, hlen⟩
  · rw [hkept name hname]
    exact ⟨.inl, fun hor => hor.resolve_right fun hcall => hname hcall.1.symm⟩

/-! ## All servers -/

namespace Cluster

/-- A call that succeeds was answered by every server on its route, and all services attend again. -/
theorem Attends.call_ok {c : Cluster} {seat : Nat} {spread : Spread} {servers : Nat → Server} {call : Call}
    (h : c.Attends seat spread.servers servers fun _ => []) (hwords : call.IsWritable spread)
    (hok : ((Network.transport (links seat) spread).call call c).result = .ok ()) :
    ∃ servers', ((Network.transport (links seat) spread).call call c).state.Attends seat spread.servers servers'
        (fun _ => []) ∧
      (∀ span ∈ spread.route call.key call.buffer.length, ∃ values, values.length = span.length ∧
        Answers (servers span.server) (call.message span) [.params call.key.name values] (servers' span.server)) ∧
      ∀ i, i ∉ (spread.route call.key call.buffer.length).map (·.server) → servers' i = servers i := by
  have hgradient := length_gradient_of_call_ok hok
  rw [call_transport _ _ hgradient] at hok ⊢
  exact h.request_ok (Spread.nodup_servers_route spread call.key call.buffer.length)
    (fun span hspan => Spread.server_lt_of_mem_route hspan) (fun span _ => call.message_ne_disconnect span) hwords hok

/-- The services attend to the seat, and what their servers hold has the lengths that the calls asked
for. -/
def Remembers (c : Cluster) (seat : Nat) (spread : Spread) (calls : List Call) : Prop :=
  ∃ servers, c.Attends seat spread.servers servers (fun _ => []) ∧
    (∀ i < spread.servers, (servers i).store.IsSound) ∧
    ∀ i < spread.servers, ∀ name length,
      (∃ values ∈ (servers i).store.value? name, values.length = length) ↔ Call.Asked spread calls i name length

namespace Remembers

variable {c : Cluster} {seat : Nat} {spread : Spread} {calls : List Call} {call : Call}

/-- A call that succeeds is remembered, and its length agrees with those of the calls before it. -/
theorem of_call_ok (h : c.Remembers seat spread calls) (hwords : call.IsWritable spread)
    (hok : ((Network.transport (links seat) spread).call call c).result = .ok ()) :
    ((Network.transport (links seat) spread).call call c).state.Remembers seat spread (calls ++ [call]) ∧
      ∀ earlier ∈ calls, earlier.key = call.key →
        spread.Agree call.key earlier.buffer.length call.buffer.length := by
  obtain ⟨servers, hattends, hsound, hasked⟩ := h
  have hlt : ∀ span ∈ spread.route call.key call.buffer.length, span.server < spread.servers :=
    fun span hspan => Spread.server_lt_of_mem_route hspan
  have hone : ∀ span ∈ spread.route call.key call.buffer.length,
      ∀ other ∈ spread.route call.key call.buffer.length, other.server = span.server → other = span :=
    fun span hspan other hother heq =>
      List.inj_on_of_nodup_map (Spread.nodup_servers_route spread call.key call.buffer.length) hother hspan heq
  obtain ⟨servers', hnext, hanswers, hothers⟩ := hattends.call_ok hwords hok
  refine ⟨⟨servers', hnext, fun i hi => ?_, fun i hi name length => ?_⟩, ?_⟩
  · by_cases hmem : i ∈ (spread.route call.key call.buffer.length).map (·.server)
    · obtain ⟨span, hspan, rfl⟩ := List.mem_map.1 hmem
      obtain ⟨values, hlen, hanswer⟩ := hanswers span hspan
      exact (hanswer.held hlen (hsound _ hi)).2.2.1
    · rw [hothers i hmem]
      exact hsound i hi
  · rw [Call.asked_append]
    by_cases hmem : i ∈ (spread.route call.key call.buffer.length).map (·.server)
    · obtain ⟨span, hspan, rfl⟩ := List.mem_map.1 hmem
      obtain ⟨values, hlen, hanswer⟩ := hanswers span hspan
      rw [hanswer.holds_iff hlen (hsound _ hi), hasked _ hi]
      refine or_congr_right (and_congr_right fun _ => ⟨fun heq => ⟨span, hspan, rfl, heq⟩, ?_⟩)
      rintro ⟨other, hother, hserver, rfl⟩
      rw [hone span hspan other hother hserver]
    · rw [hothers i hmem, hasked i hi]
      exact ⟨.inl, fun hor => hor.resolve_right fun ⟨_, span, hspan, heq, _⟩ =>
        hmem (heq ▸ List.mem_map_of_mem hspan)⟩
  · intro earlier hearlier hkey p hp q hq heq
    rw [← hkey] at hp
    obtain ⟨values, hlen, hanswer⟩ := hanswers q hq
    obtain ⟨old, hmem, hold⟩ := (hasked _ (hlt q hq) call.key.name p.length).2
      ⟨earlier, hearlier, by rw [hkey], p, hp, heq, rfl⟩
    rw [← hold]
    exact (hanswer.held hlen (hsound _ (hlt q hq))).1 old hmem

/-- A good call whose length agrees with those of the calls before it succeeds. -/
theorem call_ok (h : c.Remembers seat spread calls) (hn : 0 < spread.servers) (hm : 0 < spread.minSlice)
    (hgood : call.IsGood spread)
    (hagree : ∀ earlier ∈ calls, earlier.key.name = call.key.name → earlier.key = call.key ∧
      spread.Agree call.key earlier.buffer.length call.buffer.length) :
    ((Network.transport (links seat) spread).call call c).result = .ok () := by
  obtain ⟨servers, hattends, hsound, hasked⟩ := h
  have hstop := (Spread.tiles_route hn call.key call.buffer.length).stop_le
  have hlt : ∀ span ∈ spread.route call.key call.buffer.length, span.server < spread.servers :=
    fun span hspan => Spread.server_lt_of_mem_route hspan
  have hpart : ∀ span ∈ spread.route call.key call.buffer.length, ∀ part ∈ call.gradient?.map span.slice,
      part.length = span.length := by
    intro span hspan part hmem
    obtain ⟨gradient, hgradient, rfl⟩ := Option.mem_map.1 hmem
    exact Span.length_slice (hgood.gradient gradient hgradient ▸ hstop span hspan)
  -- every server on the route can serve its part
  have hserves : ∀ span ∈ spread.route call.key call.buffer.length, ∃ values after,
      values.length = span.length ∧
        Answers (servers span.server) (call.message span) [.params call.key.name values] after := by
    intro span hspan
    obtain ⟨entry, after, hlen, hserves⟩ := (hsound _ (hlt span hspan)).serves hgood.parsed
      (hpart span hspan) fun values hvalues => by
        obtain ⟨earlier, hearlier, hname, p, hp, hserver, hlength⟩ :=
          (hasked _ (hlt span hspan) _ _).1 ⟨values, hvalues, rfl⟩
        obtain ⟨hkey, hsame⟩ := hagree earlier hearlier hname
        rw [← hlength]
        exact hsame p (hkey ▸ hp) span hspan hserver
    exact ⟨entry.values, _, hlen, hserves.answers hlen
      (fun gradient hmem => hpart span hspan _ (Option.mem_map_of_mem _ hmem)) (hgood.answered span hspan)⟩
  have : Inhabited Server := ⟨servers 0⟩
  choose! values after hlen hanswers using hserves
  obtain ⟨next, servers', hrequest, -⟩ := hattends.request (Spread.route_ne_nil hn hm call.key call.buffer.length)
    (Spread.nodup_servers_route spread call.key call.buffer.length) hlt hgood.sent hanswers hlen hgood.answered
    call.buffer
  rw [call_transport _ _ hgood.gradient, hrequest]

/-- Calls that all succeed are remembered. -/
theorem callAll (h : c.Remembers seat spread calls) {more : List Call}
    (hwords : ∀ call ∈ more, call.IsWritable spread)
    (hok : ∀ outcome ∈ ((Network.transport (links seat) spread).callAll more c).1, outcome.1 = .ok ()) :
    ((Network.transport (links seat) spread).callAll more c).2.Remembers seat spread (calls ++ more) := by
  induction more generalizing c calls with
  | nil =>
    rw [List.append_nil]
    exact h
  | cons call more ih =>
    obtain ⟨hnext, -⟩ := h.of_call_ok (hwords call (List.mem_cons_self ..)) (hok _ (List.mem_cons_self ..))
    have hrest := ih hnext (fun other hother => hwords other (List.mem_cons_of_mem _ hother))
      fun outcome houtcome => hok outcome (List.mem_cons_of_mem _ houtcome)
    rwa [List.append_assoc] at hrest

/-- Fresh servers remember nothing, with or without having been said hello to. -/
theorem fresh (spread : Spread) {list : List Server} (hfresh : ∀ server ∈ list, server.IsFresh)
    (hlist : list.length = spread.servers) (hn : 0 < spread.servers) (greeting? : Option Identity)
    (hgreeting : ∀ identity ∈ greeting?, (Message.control (.hello identity)).body.length ≤ frameLimit) :
    ∃ joined, greet (links 0) spread greeting? (Cluster.join ⟨list.map Service.start⟩) = (.ok (), joined) ∧
      joined.Remembers 0 spread [] := by
  obtain ⟨first, -⟩ := List.exists_mem_of_ne_nil list (List.ne_nil_of_length_pos (hlist ▸ hn))
  have hat : ∀ i < spread.servers, list[i]? = some (list.getD i first) := by
    intro i hi
    rw [List.getD_eq_getElem?_getD, List.getElem?_eq_getElem (hlist.symm ▸ hi), Option.getD_some]
  have hservers : ∀ i < spread.servers, (list.getD i first).IsFresh := fun i hi =>
    hfresh _ (List.mem_of_getElem? (hat i hi))
  obtain ⟨joined, servers, hgreet, hattends, hstores⟩ := (attends_join_each hat).greet_each hn
    (fun i hi => (hservers i hi).rankSize) hgreeting
  refine ⟨joined, hgreet, servers, hattends, fun i hi => ?_, fun i hi name length => ?_⟩
  · rw [hstores]
    exact (hservers i hi).sound
  · rw [hstores, Store.value?, (hservers i hi).empty]
    constructor
    · rintro ⟨values, hvalues, -⟩
      cases hvalues
    · rintro ⟨call, hcall, -⟩
      cases hcall

end Remembers

end Cluster

/-! ## Lengths that are caught -/

/-- Another length is caught as far as the servers can tell it apart. Let a worker make calls on parsed
keys to fresh servers of any configurations, with or without having said hello, and let them all
succeed. Then a further call fails if one of them was on the same key with a length that the servers do
not confuse with its own. If there is no such call it succeeds, provided that its gradient has the
length of its buffer and its frames are within the limit. -/
theorem callAll_lengths (servers : List Server)
    (hservers : ∀ server ∈ servers, ∃ config rank, Server.ofConfig config rank = .ok server)
    (hn : 0 < servers.length) (minSlice : Nat) (greeting? : Option Identity)
    (hgreeting : ∀ identity ∈ greeting?, (Message.control (.hello identity)).body.length ≤ frameLimit)
    (before : List Call) (call : Call)
    (hparsed : ∀ made ∈ before ++ [call], Key.ofName made.key.name = .ok made.key)
    (hwords : ∀ made ∈ before ++ [call], made.IsWritable (Spread.ofMinSlice servers.length minSlice)) :
    let spread := Spread.ofMinSlice servers.length minSlice
    let t := Network.transport (Cluster.links 0) spread
    ∃ joined, greet (Cluster.links 0) spread greeting? (Cluster.join ⟨servers.map Service.start⟩) = (.ok (), joined) ∧
      ((∀ outcome ∈ (t.callAll before joined).1, outcome.1 = .ok ()) →
        ((∃ earlier ∈ before, earlier.key.name = call.key.name ∧
            ¬ spread.Confuses call.key earlier.buffer.length call.buffer.length) →
          ∃ e, (t.call call (t.callAll before joined).2).result = .error e) ∧
        (call.IsGood spread →
          (∀ earlier ∈ before, earlier.key.name = call.key.name →
            spread.Confuses call.key earlier.buffer.length call.buffer.length) →
          (t.call call (t.callAll before joined).2).result = .ok ())) := by
  intro spread t
  have hm : 0 < spread.minSlice := Nat.le_max_right minSlice 1
  have hfresh : ∀ server ∈ servers, server.IsFresh := fun server hmem => by
    obtain ⟨config, rank, hconfig⟩ := hservers server hmem
    exact Server.isFresh_ofConfig hconfig
  -- a name is parsed in one way only
  have hkey : ∀ earlier ∈ before, earlier.key.name = call.key.name → earlier.key = call.key := by
    intro earlier hearlier hname
    have hboth := hparsed earlier (List.mem_append_left _ hearlier)
    rw [hname, hparsed call (List.mem_append_right _ (List.mem_singleton_self call))] at hboth
    exact (Except.ok.inj hboth).symm
  obtain ⟨joined, hgreet, hremembers⟩ := Cluster.Remembers.fresh spread hfresh rfl hn greeting? hgreeting
  refine ⟨joined, hgreet, fun hok => ?_⟩
  have hbefore := hremembers.callAll (fun made hmem => hwords made (List.mem_append_left _ hmem)) hok
  rw [List.nil_append] at hbefore
  constructor
  · rintro ⟨earlier, hearlier, hname, hconfuses⟩
    rcases hresult : (t.call call (t.callAll before joined).2).result with e | ⟨⟩
    · exact ⟨e, rfl⟩
    · -- a call that succeeds agrees with the earlier one
      obtain ⟨-, hagree⟩ := hbefore.of_call_ok
        (hwords call (List.mem_append_right _ (List.mem_singleton_self call))) hresult
      exact absurd ((Spread.agree_iff hn hm).1 (hagree earlier hearlier (hkey earlier hearlier hname))) hconfuses
  · intro hgood hconfuses
    exact hbefore.call_ok hn hm hgood fun earlier hearlier hname =>
      ⟨hkey earlier hearlier hname, (Spread.agree_iff hn hm).2 (hconfuses earlier hearlier hname)⟩

/-- Two servers of one configuration. -/
def serverPair : List Server :=
  let init (rank : UInt64) : Initializer := ⟨Store.serverSeed 7 rank, .constant ⟨0x3F800000⟩, .constant 0, []⟩
  let server (rank : UInt64) : Server :=
    ⟨.empty ⟨(init rank).values, .additive, ServerConfig.defaultMomentum⟩, none⟩
  [server 0, server 1]

theorem serverPair_ofConfig : ∀ server ∈ serverPair, ∃ config rank, Server.ofConfig config rank = .ok server := by
  intro server hmem
  let config : ServerConfig := ⟨1, some 7, ⟨.constant ⟨0x3F800000⟩, .constant 0, []⟩, .additive,
    ServerConfig.defaultMomentum⟩
  rcases List.mem_cons.1 hmem with rfl | hmem
  · exact ⟨config, 0, rfl⟩
  · rw [List.mem_singleton.1 hmem]
    exact ⟨config, 1, rfl⟩

/-- A pull of so many elements of one weight. -/
def pullWeight (length : Nat) : Call := ⟨⟨"w_0", .weight, 0⟩, none, List.replicate length 0⟩

/-- A weight of three elements, which is cut in two, can not be asked for with four. -/
theorem callAll_lengths_pair :
    let t := Network.transport (Cluster.links 0) (Spread.ofMinSlice 2 0)
    ∃ joined, greet (Cluster.links 0) (Spread.ofMinSlice 2 0) none (Cluster.join ⟨serverPair.map Service.start⟩) =
        (.ok (), joined) ∧
      (∀ outcome ∈ (t.callAll [pullWeight 3] joined).1, outcome.1 = .ok ()) ∧
      ∃ e, (t.call (pullWeight 4) (t.callAll [pullWeight 3] joined).2).result = .error e := by
  have hlen : 0 < serverPair.length := by decide
  obtain ⟨joined, hgreet, hfirst⟩ := callAll_lengths serverPair serverPair_ofConfig hlen 0 none nofun []
    (pullWeight 3) (by decide) (by decide)
  obtain ⟨-, hgood⟩ := hfirst nofun
  have hok := hgood ⟨rfl, nofun, by decide, by decide⟩ nofun
  obtain ⟨again, hagain, hsecond⟩ := callAll_lengths serverPair serverPair_ofConfig hlen 0 none nofun
    [pullWeight 3] (pullWeight 4) (by decide) (by decide)
  obtain rfl : joined = again := (Prod.mk.inj (hgreet.symm.trans hagain)).2
  have houtcomes : ∀ outcome ∈ ((Network.transport (Cluster.links 0) (Spread.ofMinSlice 2 0)).callAll
      [pullWeight 3] joined).1, outcome.1 = .ok () := by
    intro outcome hmem
    obtain rfl := List.mem_singleton.1 hmem
    exact hok
  obtain ⟨hcaught, -⟩ := hsecond houtcomes
  exact ⟨joined, hgreet, houtcomes, hcaught ⟨pullWeight 3, List.mem_singleton_self _, rfl, by decide⟩⟩

/-- A weight of two elements, one for each of the two servers, can be asked for with one. -/
theorem callAll_lengths_missed :
    let t := Network.transport (Cluster.links 0) (Spread.ofMinSlice 2 0)
    ∃ joined, greet (Cluster.links 0) (Spread.ofMinSlice 2 0) none (Cluster.join ⟨serverPair.map Service.start⟩) =
        (.ok (), joined) ∧
      (∀ outcome ∈ (t.callAll [pullWeight 2] joined).1, outcome.1 = .ok ()) ∧
      (t.call (pullWeight 1) (t.callAll [pullWeight 2] joined).2).result = .ok () := by
  intro t
  have hfresh : ∀ server ∈ serverPair, server.IsFresh := fun server hmem => by
    obtain ⟨config, rank, hconfig⟩ := serverPair_ofConfig server hmem
    exact Server.isFresh_ofConfig hconfig
  have hgood : ∀ length ≤ 2, (pullWeight length).IsGood (Spread.ofMinSlice 2 0) := by
    intro length hlength
    have hcases : length = 0 ∨ length = 1 ∨ length = 2 := by omega
    rcases hcases with rfl | rfl | rfl <;> exact ⟨rfl, nofun, by decide, by decide⟩
  obtain ⟨joined, hgreet, hremembers⟩ := Cluster.Remembers.fresh (Spread.ofMinSlice 2 0) hfresh rfl
    (by decide) none nofun
  have hfirst := hremembers.call_ok (by decide) (by decide) (hgood 2 (le_refl 2)) nofun
  obtain ⟨hnext, -⟩ := hremembers.of_call_ok (by decide) hfirst
  refine ⟨joined, hgreet, fun outcome hmem => ?_, ?_⟩
  · obtain rfl := List.mem_singleton.1 hmem
    exact hfirst
  · refine hnext.call_ok (by decide) (by decide) (hgood 1 (by decide)) fun earlier hearlier _ => ?_
    obtain rfl := List.mem_singleton.1 hearlier
    exact ⟨rfl, (Spread.agree_iff (by decide) (by decide)).2 (by decide)⟩

end ParamExchange
