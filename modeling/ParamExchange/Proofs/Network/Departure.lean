/-
Leaving the servers. A worker says goodbye to each server and passes over what the server still sends until it says
goodbye as well. The partings from the servers take turns: in a turn a goodbye is written or one frame is read, and
the first parting that fails ends them all. In whatever order the turns come, no server is sent more than one frame,
and once each of them had as many turns as its stream can take all have ended: all streams said goodbye, or one of
them broke off before it did.
-/
import ParamExchange.Network.Transport
import ParamExchange.Proofs.Wire.Goodbyes

namespace ParamExchange.Network

open Wire

variable {σ : Type}

/-! ## Turns -/

/-- How far a worker has parted from a server: nothing was said, it has said goodbye, or the parting has ended. -/
inductive Stage
  | unsaid
  | said
  | ended (result : Except LinkError Unit)

/-- Connections, and how far the worker has parted from the server of each. -/
structure Partings (σ : Type) where
  stage : Nat → Stage
  links : σ

/-- Nothing was said to any server. -/
def Partings.start (s : σ) : Partings σ := ⟨fun _ => .unsaid, s⟩

/-- Takes a turn in the parting from a server. -/
def Links.turn (links : Links σ) (i : Nat) (p : Partings σ) : Except LinkError Unit × Partings σ :=
  match p.stage i with
  | .unsaid =>
    match links.send i (.control .disconnect) p.links with
    | (.error e, after) => (.error e, ⟨Function.update p.stage i (.ended (.error e)), after⟩)
    | (.ok (), after) => (.ok (), ⟨Function.update p.stage i .said, after⟩)
  | .said =>
    match links.receive i p.links with
    | (.error e, after) => (.error e, ⟨Function.update p.stage i (.ended (.error e)), after⟩)
    | (.ok m, after) =>
      (.ok (), ⟨Function.update p.stage i (if m = .control .disconnect then .ended (.ok ()) else .said), after⟩)
  | .ended result => (result, p)

/-- Takes turns in an order, up to the first failure. -/
def Links.turns (links : Links σ) : List Nat → Partings σ → Except LinkError Unit × Partings σ
  | [], p => (.ok (), p)
  | i :: rest, p =>
    match links.turn i p with
    | (.error e, after) => (.error e, after)
    | (.ok (), after) => links.turns rest after

theorem turns_of_error {links : Links σ} {i : Nat} {p after : Partings σ} {e : LinkError}
    (h : links.turn i p = (.error e, after)) (rest : List Nat) : links.turns (i :: rest) p = (.error e, after) := by
  rw [Links.turns, h]

theorem turns_of_ok {links : Links σ} {i : Nat} {p after : Partings σ} (h : links.turn i p = (.ok (), after))
    (rest : List Nat) : links.turns (i :: rest) p = links.turns rest after := by
  rw [Links.turns, h]

theorem turns_append {links : Links σ} {order : List Nat} {p : Partings σ} (rest : List Nat) :
    links.turns (order ++ rest) p =
      match links.turns order p with
      | (.error e, after) => (.error e, after)
      | (.ok (), after) => links.turns rest after := by
  induction order generalizing p with
  | nil => rfl
  | cons i order ih =>
    rcases hturn : links.turn i p with ⟨e | ⟨⟩, after⟩
    · rw [List.cons_append, turns_of_error hturn, turns_of_error hturn]
    · rw [List.cons_append, turns_of_ok hturn, turns_of_ok hturn, ih]

/-- Further turns change nothing about a parting that has ended. -/
theorem turns_replicate_ended {links : Links σ} {i : Nat} {p : Partings σ} (h : p.stage i = .ended (.ok ())) (n : Nat) :
    links.turns (List.replicate n i) p = (.ok (), p) := by
  induction n with
  | zero => rfl
  | succ n ih =>
    have hturn : links.turn i p = (.ok (), p) := by simp only [Links.turn, h]
    rw [List.replicate_succ, turns_of_ok hturn, ih]

/-! ## What a turn does -/

/-- The partings with a stage and a server in the place of those at `i`. -/
def Partings.place (p : Partings (List Peer)) (i : Nat) (stage : Stage) (peer : Peer) : Partings (List Peer) :=
  ⟨Function.update p.stage i stage, p.links.set i peer⟩

theorem set_peer_self {peers : List Peer} {i : Nat} {peer : Peer} (h : peers[i]? = some peer) :
    peers.set i peer = peers := by
  obtain ⟨hi, rfl⟩ := List.getElem?_eq_some_iff.1 h
  exact List.set_getElem_self hi

section Place

variable (p : Partings (List Peer)) {i j : Nat} (stage later : Stage) (peer after : Peer)

@[simp] theorem Partings.place_stage_self : (p.place i stage peer).stage i = stage :=
  Function.update_self _ _ _

@[simp] theorem Partings.place_stage_of_ne (h : j ≠ i) : (p.place i stage peer).stage j = p.stage j :=
  Function.update_of_ne h _ _

theorem Partings.links_place : (p.place i stage peer).links = p.links.set i peer := rfl

@[simp] theorem Partings.place_links_self (h : i < p.links.length) : (p.place i stage peer).links[i]? = some peer :=
  List.getElem?_set_self h

@[simp] theorem Partings.place_links_of_ne (h : j ≠ i) : (p.place i stage peer).links[j]? = p.links[j]? :=
  List.getElem?_set_ne h.symm

@[simp] theorem Partings.length_place : (p.place i stage peer).links.length = p.links.length :=
  List.length_set

@[simp] theorem Partings.place_place :
    (p.place i stage peer).place i later after = p.place i later after := by
  simp only [Partings.place, Function.update_idem, List.set_set]

theorem Partings.place_self {p : Partings (List Peer)} {peer : Peer} (h : p.links[i]? = some peer) :
    p.place i (p.stage i) peer = p := by
  rw [Partings.place, Function.update_eq_self, set_peer_self h]

end Place

/-- A server that was sent a goodbye. -/
def Peer.told (peer : Peer) : Peer := { peer with sent := peer.sent ++ [.control .disconnect] }

/-- `Moves peer stage result later after`: all that a turn can do in the parting from a server. -/
inductive Peer.Moves (peer : Peer) : Stage → Except LinkError Unit → Stage → Peer → Prop
  | stuck {e : LinkError} : peer.fault? = some e → Moves peer .unsaid (.error e) (.ended (.error e)) peer
  | speaks : peer.fault? = none → Moves peer .unsaid (.ok ()) .said peer.told
  | breaks {e : LinkError} {rest : List UInt8} : receive peer.unread = (.error e, rest) →
    Moves peer .said (.error e) (.ended (.error e)) { peer with unread := rest }
  | passes {rest : List UInt8} : Passes peer.unread rest → Moves peer .said (.ok ()) .said { peer with unread := rest }
  | hears {rest : List UInt8} : Opens peer.unread (.control .disconnect) rest →
    Moves peer .said (.ok ()) (.ended (.ok ())) { peer with unread := rest }
  | rests {result : Except LinkError Unit} : Moves peer (.ended result) result (.ended result) peer

theorem receive_recorded {peers : List Peer} {i : Nat} {peer : Peer} (h : peers[i]? = some peer) :
    recorded.receive i peers =
      ((receive peer.unread).1, peers.set i { peer with unread := (receive peer.unread).2 }) := by
  simp [Links.receive, recorded, h, List.modify_eq_set_getElem?]

theorem drain_recorded {peers : List Peer} {i : Nat} {peer : Peer} (h : peers[i]? = some peer) :
    recorded.drain i peers = ((drain peer.unread).1, peers.set i { peer with unread := (drain peer.unread).2 }) := by
  simp [Links.drain, recorded, h, List.modify_eq_set_getElem?]

/-- A turn moves the parting from its own server and no other. -/
theorem turn_recorded {p : Partings (List Peer)} {i : Nat} {peer : Peer} (h : p.links[i]? = some peer) :
    ∃ result later after,
      recorded.turn i p = (result, p.place i later after) ∧ peer.Moves (p.stage i) result later after := by
  rcases hstage : p.stage i with _ | _ | result
  · rcases hfault : peer.fault? with _ | e
    · refine ⟨_, _, _, ?_, .speaks hfault⟩
      simp [Links.turn, hstage, recorded, h, hfault, Partings.place, Peer.told]
    · refine ⟨_, _, peer, ?_, .stuck hfault⟩
      simp [Links.turn, hstage, recorded, h, hfault, Partings.place, set_peer_self h]
  · rcases hreceive : receive peer.unread with ⟨e | m, rest⟩
    · refine ⟨_, _, _, ?_, .breaks hreceive⟩
      simp only [Links.turn, hstage, receive_recorded h, hreceive, Partings.place]
    · by_cases hm : m = .control .disconnect
      · subst hm
        refine ⟨_, _, _, ?_, .hears (opens_iff.2 hreceive)⟩
        simp only [Links.turn, hstage, receive_recorded h, hreceive, if_true, Partings.place]
      · refine ⟨_, _, _, ?_, .passes ⟨m, opens_iff.2 hreceive, hm⟩⟩
        simp only [Links.turn, hstage, receive_recorded h, hreceive, if_neg hm, Partings.place]
  · refine ⟨result, .ended result, peer, ?_, .rests⟩
    rw [← hstage, Partings.place_self h]
    simp only [Links.turn, hstage]

/-- A turn ends the parting with its result, or the goodbye is still to be answered. -/
theorem Peer.Moves.later {peer after : Peer} {stage later : Stage} {result : Except LinkError Unit}
    (h : peer.Moves stage result later after) : later = .ended result ∨ result = .ok () ∧ later = .said := by
  cases h with
  | speaks => exact .inr ⟨rfl, rfl⟩
  | passes => exact .inr ⟨rfl, rfl⟩
  | _ => exact .inl rfl

/-! ## What every turn keeps -/

/-- `Stands before stage after`: what was done in the parting from a server, which was sent a goodbye if it could be
sent one, and whose stream was read up to a goodbye of its own or to its failure. -/
inductive Peer.Stands (before : Peer) : Stage → Peer → Prop
  | unsaid : Stands before .unsaid before
  | said {left : List UInt8} : before.fault? = none → Relation.ReflTransGen Passes before.unread left →
    Stands before .said { before.told with unread := left }
  | answered {rest : List UInt8} : before.fault? = none → SaysGoodbye before.unread rest →
    Stands before (.ended (.ok ())) { before.told with unread := rest }
  | stuck {e : LinkError} : before.fault? = some e → Stands before (.ended (.error e)) before
  | brokenOff {e : LinkError} {rest : List UInt8} : before.fault? = none → BreaksOff before.unread e →
    Stands before (.ended (.error e)) { before.told with unread := rest }

theorem Peer.Moves.stands {before peer after : Peer} {stage later : Stage} {result : Except LinkError Unit}
    (hmoves : peer.Moves stage result later after) (h : before.Stands stage peer) : before.Stands later after := by
  cases hmoves with
  | stuck hfault =>
    cases h
    exact .stuck hfault
  | speaks hfault =>
    cases h
    exact .said hfault .refl
  | breaks hreceive =>
    obtain ⟨⟩ | ⟨hfault, hpasses⟩ := h
    exact .brokenOff hfault ⟨_, hpasses, breaks_iff.2 (by rw [hreceive])⟩
  | passes hnext =>
    obtain ⟨⟩ | ⟨hfault, hpasses⟩ := h
    exact .said hfault (hpasses.tail hnext)
  | hears hopens =>
    obtain ⟨⟩ | ⟨hfault, hpasses⟩ := h
    exact .answered hfault ⟨_, hpasses, hopens⟩
  | rests => exact h

/-- The partings from some servers after some turns, the last of which had a result. -/
structure Underway (before : List Peer) (result : Except LinkError Unit) (p : Partings (List Peer)) : Prop where
  stands : ∀ i, Option.Rel (Peer.Stands · (p.stage i)) before[i]? p.links[i]?
  ok : result = .ok () → ∀ i ended, p.stage i = .ended ended → ended = .ok ()
  error : ∀ e, result = .error e → ∃ i < before.length, p.stage i = .ended (.error e)

theorem underway_start (peers : List Peer) : Underway peers (.ok ()) (.start peers) where
  stands i := by
    rw [Partings.start]
    rcases peers[i]? with _ | peer
    · exact .none
    · exact .some .unsaid
  ok _ i ended h := by cases h
  error e h := by cases h

/-- A server that was there before has its place on the connections. -/
theorem Underway.exists_peer {before : List Peer} {result : Except LinkError Unit} {p : Partings (List Peer)}
    (h : Underway before result p) {i : Nat} (hi : i < before.length) :
    ∃ peer, p.links[i]? = some peer ∧ before[i].Stands (p.stage i) peer := by
  have hstands := h.stands i
  rw [List.getElem?_eq_getElem hi] at hstands
  generalize p.links[i]? = found at hstands
  cases hstands with
  | some hpeer => exact ⟨_, rfl, hpeer⟩

theorem Underway.turn {before : List Peer} {p : Partings (List Peer)} (h : Underway before (.ok ()) p) {i : Nat}
    (hi : i < before.length) : Underway before (recorded.turn i p).1 (recorded.turn i p).2 := by
  obtain ⟨peer, hpeer, hstands⟩ := h.exists_peer hi
  obtain ⟨result, later, after, hturn, hmoves⟩ := turn_recorded hpeer
  have hlinks : i < p.links.length := (List.getElem?_eq_some_iff.1 hpeer).1
  rw [hturn]
  -- only the server whose turn it is moves, and a turn that fails has ended its parting
  constructor
  · intro j
    by_cases hj : j = i
    · subst hj
      simp only [Partings.place_stage_self, Partings.place_links_self _ _ _ hlinks, List.getElem?_eq_getElem hi]
      exact .some (hmoves.stands hstands)
    · simp only [Partings.place_stage_of_ne _ _ _ hj, Partings.place_links_of_ne _ _ _ hj]
      exact h.stands j
  · rintro rfl j ended hended
    by_cases hj : j = i
    · subst hj
      rw [Partings.place_stage_self] at hended
      obtain rfl | ⟨-, rfl⟩ := hmoves.later
      · cases hended
        rfl
      · cases hended
    · rw [Partings.place_stage_of_ne _ _ _ hj] at hended
      exact h.ok rfl j ended hended
  · rintro e rfl
    obtain rfl | ⟨hresult, -⟩ := hmoves.later
    · exact ⟨i, hi, Partings.place_stage_self _ _ _⟩
    · cases hresult

/-- Turns with servers that are there keep the partings underway, whatever their order. -/
theorem Underway.turns {before : List Peer} {p : Partings (List Peer)} (h : Underway before (.ok ()) p)
    {order : List Nat} (horder : ∀ i ∈ order, i < before.length) :
    Underway before (recorded.turns order p).1 (recorded.turns order p).2 := by
  induction order generalizing p with
  | nil => exact h
  | cons i rest ih =>
    have hstep := h.turn (horder i List.mem_cons_self)
    rcases hturn : recorded.turn i p with ⟨e | ⟨⟩, after⟩ <;> rw [hturn] at hstep
    · rw [turns_of_error hturn]
      exact hstep
    · rw [turns_of_ok hturn]
      exact ih hstep fun j hj => horder j (List.mem_cons_of_mem _ hj)

/-! ## Turns run out -/

/-- The turns that the parting from a server still takes at the most. -/
def Peer.need (peer : Peer) : Stage → Nat
  | .unsaid => peer.unread.length + 2
  | .said => peer.unread.length + 1
  | .ended _ => 0

theorem Peer.Moves.need_lt {peer after : Peer} {stage later : Stage} {result : Except LinkError Unit}
    (h : peer.Moves stage result later after) : after.need later ≤ peer.need stage - 1 := by
  cases h with
  | passes hnext =>
    obtain ⟨m, hopens, -⟩ := hnext
    have hlength := length_lt_of_receive hopens.receive
    simp only [Peer.need]
    omega
  | _ => simp [Peer.need, Peer.told]

/-- The turns that the parting from the server `i` still takes at the most. -/
def Partings.need (p : Partings (List Peer)) (i : Nat) : Nat := ((p.links[i]?).map (·.need (p.stage i))).getD 0

theorem need_start {peers : List Peer} {i : Nat} {peer : Peer} (h : peers[i]? = some peer) :
    (Partings.start peers).need i = peer.need .unsaid := by
  simp [Partings.need, Partings.start, h]

theorem need_turn {p : Partings (List Peer)} {i : Nat} (hi : i < p.links.length) (j : Nat) :
    (recorded.turn i p).2.need j ≤ p.need j - if i = j then 1 else 0 := by
  obtain ⟨result, later, after, hturn, hmoves⟩ := turn_recorded (List.getElem?_eq_getElem hi)
  rw [hturn]
  by_cases hj : j = i
  · subst hj
    simp only [Partings.need, Partings.place_links_self _ _ _ hi, Partings.place_stage_self,
      List.getElem?_eq_getElem hi, Option.map_some, Option.getD_some, if_true]
    exact hmoves.need_lt
  · simp [Partings.need, hj, Ne.symm hj]

theorem length_turn {p : Partings (List Peer)} {i : Nat} (hi : i < p.links.length) :
    (recorded.turn i p).2.links.length = p.links.length := by
  obtain ⟨result, later, after, hturn, -⟩ := turn_recorded (List.getElem?_eq_getElem hi)
  rw [hturn, Partings.length_place]

/-- Each turn of a server is one less that its parting takes, as long as none fails. -/
theorem need_turns {p after : Partings (List Peer)} {order : List Nat} (horder : ∀ i ∈ order, i < p.links.length)
    (h : recorded.turns order p = (.ok (), after)) (j : Nat) : after.need j ≤ p.need j - order.count j := by
  induction order generalizing p with
  | nil =>
    cases h
    exact le_rfl
  | cons i rest ih =>
    have hi := horder i List.mem_cons_self
    have hneed := need_turn hi j
    have hlength := length_turn hi
    rcases hturn : recorded.turn i p with ⟨e | ⟨⟩, next⟩
    · rw [turns_of_error hturn] at h
      cases h
    · rw [turns_of_ok hturn] at h
      rw [hturn] at hneed hlength
      have hrest := ih (fun k hk => hlength ▸ horder k (List.mem_cons_of_mem _ hk)) h
      have hcount : (i :: rest).count j = rest.count j + if i = j then 1 else 0 := by
        simp [List.count_cons]
      simp only at hneed
      omega

/-- An order of turns that comes to each server as often as its stream and the goodbye can take, and to no other. -/
structure Attends (peers : List Peer) (order : List Nat) : Prop where
  known : ∀ i ∈ order, i < peers.length
  enough : ∀ i, ∀ peer ∈ peers[i]?, peer.need .unsaid ≤ order.count i

/-- The order itself does not matter for that. -/
theorem Attends.perm {peers : List Peer} {order other : List Nat} (h : Attends peers order)
    (hperm : List.Perm other order) : Attends peers other where
  known i hi := h.known i (hperm.subset hi)
  enough i peer hpeer := (h.enough i peer hpeer).trans (hperm.count_eq i).ge

/-- A run of turns is over: one failed, or all partings have ended. -/
def IsOver (peers : List Peer) (done : Except LinkError Unit × Partings (List Peer)) : Prop :=
  done.1 = .ok () → ∀ i < peers.length, done.2.stage i = .ended (.ok ())

/-- Enough turns end all the partings, in whatever order they come. -/
theorem Attends.isOver {peers : List Peer} {order : List Nat} (h : Attends peers order) :
    IsOver peers (recorded.turns order (.start peers)) := by
  intro hok i hi
  have hunderway := (underway_start peers).turns h.known
  rcases hdone : recorded.turns order (.start peers) with ⟨result, after⟩
  rw [hdone] at hok hunderway
  cases hok
  obtain ⟨peer, hpeer, -⟩ := hunderway.exists_peer hi
  have hneed := need_turns h.known hdone i
  have henough := h.enough i peers[i] (List.getElem?_eq_getElem hi)
  have hstart := need_start (List.getElem?_eq_getElem hi)
  -- the turns were as many as the parting could take, so that it takes no more
  have hzero : peer.need (after.stage i) = 0 := by
    have hafter : after.need i = peer.need (after.stage i) := by simp [Partings.need, hpeer]
    omega
  rcases hstage : after.stage i with _ | _ | ended
  · rw [hstage] at hzero
    cases hzero
  · rw [hstage] at hzero
    cases hzero
  · rw [hunderway.ok rfl i ended hstage]

/-! ## One server after the other -/

/-- After a goodbye, enough turns drain the stream of a server. -/
theorem turns_said {p : Partings (List Peer)} {i n : Nat} {peer : Peer} (hpeer : p.links[i]? = some peer)
    (hstage : p.stage i = .said) (hn : peer.need .said ≤ n) :
    recorded.turns (List.replicate n i) p =
      ((drain peer.unread).1,
        p.place i (.ended (drain peer.unread).1) { peer with unread := (drain peer.unread).2 }) := by
  -- each turn takes one frame off the stream, as the program does before it goes on with the rest
  induction n generalizing p peer with
  | zero => cases hn
  | succ n ih =>
    have hi : i < p.links.length := (List.getElem?_eq_some_iff.1 hpeer).1
    obtain ⟨result, later, after, hturn, hmoves⟩ := turn_recorded hpeer
    have hneed := hmoves.need_lt
    rw [hstage] at hmoves hneed
    rw [List.replicate_succ]
    cases hmoves with
    | breaks hreceive => rw [turns_of_error hturn, drain_of_error hreceive]
    | passes hnext =>
      rw [turns_of_ok hturn, drain_passes hnext]
      rw [ih (Partings.place_links_self _ _ _ hi) (Partings.place_stage_self _ _ _) (by omega), Partings.place_place]
    | hears hopens =>
      rw [turns_of_ok hturn, drain_goodbye hopens, turns_replicate_ended (Partings.place_stage_self _ _ _)]

/-- A server is left in a row of turns that are its own, with what comes of it, and the others after it. -/
theorem turns_parting {p : Partings (List Peer)} {i n : Nat} {peer : Peer} (hpeer : p.links[i]? = some peer)
    (hstage : p.stage i = .unsaid) (hn : peer.need .unsaid ≤ n) :
    ∃ result after,
      recorded.turns (List.replicate n i) p = (result, p.place i (.ended result) after) ∧
      ∀ rest, recorded.leaveAll (i :: rest) p.links =
        match result with
        | .error e => (.error e, (p.place i (.ended result) after).links)
        | .ok () => recorded.leaveAll rest (p.place i (.ended result) after).links := by
  have hi : i < p.links.length := (List.getElem?_eq_some_iff.1 hpeer).1
  obtain ⟨result, later, after, hturn, hmoves⟩ := turn_recorded hpeer
  rw [hstage] at hmoves
  obtain ⟨n, rfl⟩ : ∃ m, n = m + 1 := ⟨n - 1, by simp only [Peer.need] at hn; omega⟩
  cases hmoves with
  | stuck hfault =>
    refine ⟨_, _, by rw [List.replicate_succ, turns_of_error hturn], fun rest => ?_⟩
    simp [Links.leaveAll, recorded, hpeer, hfault, Partings.place, set_peer_self hpeer]
  | speaks hfault =>
    have htold : (p.place i .said peer.told).links[i]? = some peer.told := Partings.place_links_self _ _ _ hi
    have hsend : recorded.send i (.control .disconnect) p.links = (.ok (), (p.place i .said peer.told).links) := by
      simp only [recorded, hpeer, hfault, Partings.place, Peer.told]
    have hdrained := turns_said htold (Partings.place_stage_self _ _ _) (Nat.le_of_succ_le_succ hn)
    refine ⟨_, _, by rw [List.replicate_succ, turns_of_ok hturn, hdrained, Partings.place_place], fun rest => ?_⟩
    simp only [Links.leaveAll, hsend, drain_recorded htold]
    simp only [Partings.links_place, List.set_set]
    rcases (drain peer.told.unread).1 with e | ⟨⟩ <;> rfl

/-- The worker leaves one server after the other in the turns of one order. -/
theorem leaveAll_eq_turns {servers : List Nat} (hnodup : servers.Nodup) (need : Nat → Nat) {p : Partings (List Peer)}
    (h : ∀ i ∈ servers, p.stage i = .unsaid ∧ ∃ peer, p.links[i]? = some peer ∧ peer.need .unsaid ≤ need i) :
    recorded.leaveAll servers p.links =
      Prod.map id Partings.links (recorded.turns (servers.flatMap fun i => List.replicate (need i) i) p) := by
  induction servers generalizing p with
  | nil => rfl
  | cons i rest ih =>
    obtain ⟨hnew, hnodup⟩ := List.nodup_cons.1 hnodup
    obtain ⟨hstage, peer, hpeer, hneed⟩ := h i List.mem_cons_self
    obtain ⟨result, after, hturns, hleave⟩ := turns_parting hpeer hstage hneed
    rw [hleave, List.flatMap_cons, turns_append, hturns]
    rcases result with e | ⟨⟩
    · rfl
    · -- the other servers stand as they did before this one was left
      refine ih hnodup fun j hj => ?_
      have hne : j ≠ i := fun heq => hnew (heq ▸ hj)
      rw [Partings.place_stage_of_ne _ _ _ hne, Partings.place_links_of_ne _ _ _ hne]
      exact h j (List.mem_cons_of_mem _ hj)

/-- The turns of a worker that leaves the servers one after the other. -/
def inSequence (peers : List Peer) : List Nat :=
  (List.range peers.length).flatMap fun i => List.replicate ((Partings.start peers).need i) i

theorem attends_inSequence (peers : List Peer) : Attends peers (inSequence peers) where
  known i hi := by
    obtain ⟨j, hj, hij⟩ := List.mem_flatMap.1 hi
    rw [List.eq_of_mem_replicate hij]
    exact List.mem_range.1 hj
  enough i peer hpeer := by
    have hi : i < peers.length := (List.getElem?_eq_some_iff.1 hpeer).1
    have hsub : List.Sublist (List.replicate ((Partings.start peers).need i) i) (inSequence peers) :=
      List.sublist_flatten_of_mem (List.mem_map_of_mem (List.mem_range.2 hi))
    calc peer.need .unsaid = (Partings.start peers).need i := (need_start hpeer).symm
      _ = (List.replicate ((Partings.start peers).need i) i).count i := List.count_replicate_self.symm
      _ ≤ (inSequence peers).count i := hsub.count_le i

/-- What the program does is what the turns in sequence come to. -/
theorem leaveAll_recorded (peers : List Peer) :
    recorded.leaveAll (List.range peers.length) peers =
      Prod.map id Partings.links (recorded.turns (inSequence peers) (.start peers)) := by
  refine leaveAll_eq_turns List.nodup_range (Partings.start peers).need (p := .start peers) fun i hmem => ⟨rfl, ?_⟩
  have hi : i < peers.length := List.mem_range.1 hmem
  have hpeer := List.getElem?_eq_getElem hi
  exact ⟨peers[i], hpeer, (need_start hpeer).ge⟩

/-! ## What a departure comes to -/

/-- Whether a server can be sent a goodbye, and its stream has one. -/
def Peer.Answers (peer : Peer) : Prop := peer.fault? = none ∧ ∃ rest, SaysGoodbye peer.unread rest

/-- Why a server can not be left: nothing can be sent to it, or its stream breaks off before it says goodbye. -/
def Peer.Fails (peer : Peer) (e : LinkError) : Prop :=
  peer.fault? = some e ∨ peer.fault? = none ∧ BreaksOff peer.unread e

/-- One goodbye was sent to a server, and its stream was read up to and including its own. -/
def Peer.Parted (peer after : Peer) : Prop :=
  after.sent = peer.sent ++ [.control .disconnect] ∧ SaysGoodbye peer.unread after.unread

/-- Nothing but one goodbye was sent to a server, if anything was. -/
def Peer.ToldAtMostOnce (peer after : Peer) : Prop :=
  after.sent = peer.sent ∨ after.sent = peer.sent ++ [.control .disconnect]

/-- `Departs before result after`: a worker leaves some servers. -/
structure Departs (before : List Peer) (result : Except TransportError Unit) (after : List Peer) : Prop where
  ok_iff : result = .ok () ↔ ∀ peer ∈ before, peer.Answers
  parted : result = .ok () → List.Forall₂ Peer.Parted before after
  failed : ∀ e, result = .error e → ∃ peer ∈ before, ∃ cause, peer.Fails cause ∧ e = .link cause
  sent : List.Forall₂ Peer.ToldAtMostOnce before after

theorem Peer.Stands.toldAtMostOnce {before after : Peer} {stage : Stage} (h : before.Stands stage after) :
    before.ToldAtMostOnce after := by
  cases h with
  | unsaid => exact .inl rfl
  | stuck => exact .inl rfl
  | _ => exact .inr rfl

theorem Peer.Stands.parted {before after : Peer} (h : before.Stands (.ended (.ok ())) after) :
    before.Answers ∧ before.Parted after := by
  cases h with
  | answered hfault hgoodbye => exact ⟨⟨hfault, _, hgoodbye⟩, rfl, hgoodbye⟩

theorem Peer.Stands.fails {before after : Peer} {e : LinkError} (h : before.Stands (.ended (.error e)) after) :
    before.Fails e := by
  cases h with
  | stuck hfault => exact .inl hfault
  | brokenOff hfault hbreaks => exact .inr ⟨hfault, hbreaks⟩

/-- A server that answers can be left. -/
theorem Peer.Answers.not_fails {peer : Peer} {e : LinkError} (h : peer.Answers) : ¬ peer.Fails e := by
  obtain ⟨hfault, rest, hgoodbye⟩ := h
  rintro (hstuck | ⟨-, hbreaks⟩)
  · cases hfault.symm.trans hstuck
  · exact hbreaks.not_saysGoodbye hgoodbye

/-- A server can not be left for one cause only. -/
theorem Peer.Fails.unique {peer : Peer} {e other : LinkError} (h : peer.Fails e) (hother : peer.Fails other) :
    e = other := by
  obtain hstuck | ⟨hfault, hbreaks⟩ := h <;> obtain hstuck' | ⟨hfault', hbreaks'⟩ := hother
  · exact Option.some.inj (hstuck.symm.trans hstuck')
  · cases hfault'.symm.trans hstuck
  · cases hfault.symm.trans hstuck'
  · exact hbreaks.unique hbreaks'

/-- What holds of each server at its stage holds of the servers in order. -/
theorem Underway.forall₂ {before : List Peer} {result : Except LinkError Unit} {p : Partings (List Peer)}
    (h : Underway before result p) {R : Peer → Peer → Prop}
    (hstands : ∀ i < before.length, ∀ peer after, peer.Stands (p.stage i) after → R peer after) :
    List.Forall₂ R before p.links := by
  refine List.forall₂_iff_get.2 ⟨?_, fun i hi hafter => ?_⟩
  · refine le_antisymm (not_lt.1 fun hlt => ?_) (not_lt.1 fun hlt => ?_)
    · have hrel := h.stands p.links.length
      rw [List.getElem?_eq_getElem hlt, List.getElem?_eq_none le_rfl] at hrel
      cases hrel
    · have hrel := h.stands before.length
      rw [List.getElem?_eq_getElem hlt, List.getElem?_eq_none le_rfl] at hrel
      cases hrel
  · have hrel := h.stands i
    rw [List.getElem?_eq_getElem hi, List.getElem?_eq_getElem hafter] at hrel
    cases hrel with
    | some hpeer => exact hstands i hi _ _ hpeer

theorem Underway.toldAtMostOnce {before : List Peer} {result : Except LinkError Unit} {p : Partings (List Peer)}
    (h : Underway before result p) : List.Forall₂ Peer.ToldAtMostOnce before p.links :=
  h.forall₂ fun _ _ _ _ hstands => hstands.toldAtMostOnce

/-- Where the turns are over, the worker has left the servers or could not leave one of them. -/
theorem Underway.departs {before : List Peer} {result : Except LinkError Unit} {p : Partings (List Peer)}
    (h : Underway before result p) (hover : IsOver before (result, p)) :
    Departs before (result.mapError .link) p.links := by
  rcases result with e | ⟨⟩
  · obtain ⟨i, hi, hstage⟩ := h.error e rfl
    obtain ⟨after, -, hstands⟩ := h.exists_peer hi
    rw [hstage] at hstands
    constructor
    · refine ⟨nofun, fun hanswers => ?_⟩
      exact absurd hstands.fails (hanswers _ (List.getElem_mem hi)).not_fails
    · exact nofun
    · rintro _ ⟨⟩
      exact ⟨before[i], List.getElem_mem hi, e, hstands.fails, rfl⟩
    · exact h.toldAtMostOnce
  · have hended : ∀ i < before.length, p.stage i = .ended (.ok ()) := hover rfl
    constructor
    · refine ⟨fun _ peer hpeer => ?_, fun _ => rfl⟩
      obtain ⟨i, hi, rfl⟩ := List.getElem_of_mem hpeer
      obtain ⟨after, -, hstands⟩ := h.exists_peer hi
      rw [hended i hi] at hstands
      exact hstands.parted.1
    · intro _
      refine h.forall₂ fun i hi peer after hstands => ?_
      rw [hended i hi] at hstands
      exact hstands.parted.2
    · exact nofun
    · exact h.toldAtMostOnce

/-- A worker that leaves its servers comes to an end, whatever octets they may still deliver. It has left all of them,
each told once and read up to its goodbye, exactly if all can be told and all streams say goodbye; otherwise it fails
as one of the servers does that can not be left. It takes the turns of an order that attends to each server, and any
other order that does comes to an end of this kind as well; no server is told twice in any order. A stream that does
not say goodbye breaks off. -/
theorem disconnect_departs (peers : List Peer) (minSlice : Nat) :
    let left := (transport recorded (Spread.ofMinSlice peers.length minSlice)).disconnect peers
    Departs peers left.1 left.2 ∧
    (∃ order, Attends peers order ∧
      let done := recorded.turns order (.start peers)
      left = (done.1.mapError .link, done.2.links)) ∧
    (∀ order, (∀ i ∈ order, i < peers.length) →
      let done := recorded.turns order (.start peers)
      List.Forall₂ Peer.ToldAtMostOnce peers done.2.links ∧
      (Attends peers order → IsOver peers done) ∧
      (IsOver peers done → Departs peers (done.1.mapError .link) done.2.links)) ∧
    ∀ stream, (∃ e, BreaksOff stream e) ↔ ¬ ∃ rest, SaysGoodbye stream rest := by
  have hdeparts : ∀ order, (∀ i ∈ order, i < peers.length) →
      Underway peers (recorded.turns order (.start peers)).1 (recorded.turns order (.start peers)).2 :=
    fun order => (underway_start peers).turns
  have hleft : (transport recorded (Spread.ofMinSlice peers.length minSlice)).disconnect peers =
      ((recorded.turns (inSequence peers) (.start peers)).1.mapError .link,
        (recorded.turns (inSequence peers) (.start peers)).2.links) := by
    simp only [transport, Spread.ofMinSlice, leaveAll_recorded, Prod.map, id]
  have hattends := attends_inSequence peers
  refine ⟨?_, ⟨inSequence peers, hattends, hleft⟩, fun order horder => ?_, fun stream => ?_⟩
  · rw [hleft]
    exact (hdeparts _ hattends.known).departs hattends.isOver
  · exact ⟨(hdeparts order horder).toldAtMostOnce, Attends.isOver, (hdeparts order horder).departs⟩
  · constructor
    · rintro ⟨e, hbreaks⟩ ⟨rest, hgoodbye⟩
      exact hbreaks.not_saysGoodbye hgoodbye
    · exact (saysGoodbye_or_breaksOff stream).resolve_left

/-- A server with left-over answers before its goodbye, left together with one that says goodbye after a report, and
together with one whose stream ends after it, which comes first in the turns. -/
theorem disconnect_departs_leftOvers :
    let leftOvers : List Message := [.params "w_0" [⟨0x3F800000⟩], .error "late"]
    let goodbye : Message := .control .disconnect
    let first : Peer := ⟨leftOvers.flatMap Message.frame ++ (goodbye.frame ++ [1, 2]), [], none⟩
    let answers : Peer := ⟨[Message.error "late"].flatMap Message.frame ++ (goodbye.frame ++ []), [], none⟩
    let ends : Peer := ⟨[Message.error "late"].flatMap Message.frame ++ [0, 0], [], none⟩
    let left := (transport recorded (Spread.ofMinSlice 2 1)).disconnect [first, answers]
    let done := recorded.turns (inSequence [first, ends]).reverse (.start [first, ends])
    left.1 = .ok () ∧ List.Forall₂ Peer.Parted [first, answers] left.2 ∧
    done.1 = .error .endOfStream ∧ List.Forall₂ Peer.ToldAtMostOnce [first, ends] done.2.links := by
  intro leftOvers goodbye first answers ends left done
  have hpass : ∀ m ∈ leftOvers, m.body.length ≤ frameLimit ∧ m ≠ .control .disconnect := by decide
  have hlate : ∀ m ∈ [Message.error "late"], m.body.length ≤ frameLimit ∧ m ≠ .control .disconnect := by decide
  have hfirst : first.Answers := ⟨rfl, [1, 2], saysGoodbye_frames hpass [1, 2]⟩
  have hanswers : answers.Answers := ⟨rfl, [], saysGoodbye_frames hlate []⟩
  have hends : ends.Fails .endOfStream := .inr ⟨rfl, breaksOff_frames hlate (.endOfStream (by decide))⟩
  obtain ⟨hleft, -, -, -⟩ := disconnect_departs [first, answers] 1
  have hok : left.1 = .ok () := hleft.ok_iff.2 (by simp [hfirst, hanswers])
  obtain ⟨-, -, hturns, -⟩ := disconnect_departs [first, ends] 1
  have hattends : Attends [first, ends] (inSequence [first, ends]).reverse :=
    (attends_inSequence _).perm (List.reverse_perm _)
  obtain ⟨htold, hisOver, hdeparts⟩ := hturns _ hattends.known
  have hdone := hdeparts (hisOver hattends)
  refine ⟨hok, hleft.parted hok, ?_, htold⟩
  rcases hresult : done.1 with e | ⟨⟩
  · obtain ⟨peer, hpeer, cause, hfails, hcause⟩ := hdone.failed (.link e) (by rw [hresult]; rfl)
    cases hcause
    obtain rfl | hpeer := List.mem_cons.1 hpeer
    · exact absurd hfails hfirst.not_fails
    · cases List.mem_singleton.1 hpeer
      rw [hfails.unique hends]
  · have hall := hdone.ok_iff.1 (by rw [hresult]; rfl)
    exact absurd hends (hall ends (by simp)).not_fails

end ParamExchange.Network
