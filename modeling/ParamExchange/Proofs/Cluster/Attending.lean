/-
Clusters that attend to a worker. Between two requests of the worker every service waits for a frame
at the seat of the worker. A message is served as soon as it is sent, as the protocol says, and its
answers are read in the order in which the servers are asked for them.
-/
import ParamExchange.Cluster.Basic
import ParamExchange.Proofs.Server.Protocol

namespace ParamExchange

open Wire

/-! ## Services -/

/-- `service.Attends seat server unread`: the service has this server, and its connection at the
seat is open, can be sent to and has no part of a frame, but octets that were not read. -/
structure Service.Attends (service : Service) (seat : Nat) (server : Server) (unread : List UInt8) : Prop where
  server : service.server = server
  connection : ∃ scratch, service.connections[seat]? = some ⟨[], unread, scratch, none, true⟩

namespace Session

/-- A frame that is answered leaves the session open. -/
theorem serveStream_of_answers {server after : Server} {m : Message} {replies : List Message}
    (h : Answers server m replies after) (hfit : m.body.length ≤ frameLimit) (scratch : List Single) :
    ∃ left, serveStream none false m.frame ⟨server, scratch⟩ = (⟨replies, ⟨after, left⟩, .open⟩, []) := by
  obtain ⟨left, hhandle⟩ := handle_of_answers h scratch
  refine ⟨left, ?_⟩
  rw [serveStream_eq, inbound_message hfit]
  obtain ⟨rfl, hm⟩ | ⟨reply, rfl, hm⟩ := hhandle
  · simp only [serve_silent hm]
    rfl
  · simp only [serve_reply hm]
    rfl

end Session

namespace Service.Attends

variable {service : Service} {seat : Nat} {server after : Server} {unread : List UInt8}

/-- A message that is answered is answered at once. -/
theorem feed (h : service.Attends seat server unread) {m : Message} {replies : List Message}
    (hfit : m.body.length ≤ frameLimit) (hanswers : Answers server m replies after) :
    (service.feed seat m.frame false).Attends seat after (unread ++ replies.flatMap Message.frame) := by
  obtain ⟨scratch, hc⟩ := h.connection
  obtain ⟨left, hserve⟩ := Session.serveStream_of_answers (h.server ▸ hanswers) hfit scratch
  rw [Service.feed_open hc rfl]
  simp only [List.nil_append, hserve]
  exact ⟨rfl, left, Service.connections_absorb hc _⟩

theorem isOpen (h : service.Attends seat server unread) : service.isOpen seat = true := by
  obtain ⟨scratch, hc⟩ := h.connection
  unfold Service.isOpen
  rw [hc]
  rfl

theorem unread_eq (h : service.Attends seat server unread) : service.unread seat = unread := by
  obtain ⟨scratch, hc⟩ := h.connection
  unfold Service.unread
  rw [hc]
  rfl

theorem setUnread (h : service.Attends seat server unread) (octets : List UInt8) :
    (service.setUnread seat octets).Attends seat server octets := by
  obtain ⟨scratch, hc⟩ := h.connection
  obtain ⟨hseat, -⟩ := List.getElem?_eq_some_iff.1 hc
  unfold Service.setUnread
  rw [hc]
  exact ⟨h.server, scratch, List.getElem?_set_self hseat⟩

end Service.Attends

/-! ## Clusters -/

namespace Cluster

/-- Every one of the first `n` services attends to the seat, the service `i` with the server and the
unread octets of `i`. -/
def Attends (c : Cluster) (seat n : Nat) (servers : Nat → Server) (unread : Nat → List UInt8) : Prop :=
  ∀ i < n, ∃ service, c.services[i]? = some service ∧ service.Attends seat (servers i) (unread i)

namespace Attends

variable {c : Cluster} {seat n i : Nat} {servers : Nat → Server} {unread : Nat → List UInt8}

/-- One service is changed. -/
theorem modify (h : c.Attends seat n servers unread) {f : Service → Service} {after : Server}
    {octets : List UInt8}
    (hf : ∀ service : Service, service.Attends seat (servers i) (unread i) →
      (f service).Attends seat after octets) :
    (c.modify i f).Attends seat n (Function.update servers i after) (Function.update unread i octets) := by
  intro j hj
  obtain ⟨service, hservice, hattends⟩ := h j hj
  by_cases hij : i = j
  · subst hij
    refine ⟨f service, ?_, ?_⟩
    · rw [Cluster.modify, List.getElem?_modify, hservice]
      show some (if i = i then f service else service) = some (f service)
      rw [if_pos rfl]
    · rw [Function.update_self, Function.update_self]
      exact hf service hattends
  · refine ⟨service, ?_, ?_⟩
    · rw [Cluster.modify, List.getElem?_modify, hservice]
      show some (if i = j then f service else service) = some service
      rw [if_neg hij]
    · rw [Function.update_of_ne (Ne.symm hij), Function.update_of_ne (Ne.symm hij)]
      exact hattends

/-- A message that its server answers is sent and answered. -/
theorem send (h : c.Attends seat n servers unread) (hi : i < n) {m : Message} {replies : List Message}
    {after : Server} (hfit : m.body.length ≤ frameLimit) (hanswers : Answers (servers i) m replies after) :
    ∃ next, (links seat).send i m c = (.ok (), next) ∧
      next.Attends seat n (Function.update servers i after)
        (Function.update unread i (unread i ++ replies.flatMap Message.frame)) := by
  obtain ⟨service, hservice, hattends⟩ := h i hi
  have hopen : c.services[i]?.any (·.isOpen seat) = true := by
    rw [hservice]
    exact hattends.isOpen
  exact ⟨_, if_pos hopen, h.modify fun _ hs => hs.feed hfit hanswers⟩

/-- The answer of a server is read. -/
theorem receive (h : c.Attends seat n servers unread) (hi : i < n) {m : Message} {rest : List UInt8}
    (hfit : m.body.length ≤ frameLimit) (hunread : unread i = m.frame ++ rest) :
    ∃ next, (links seat).receive i c = (.ok m, next) ∧
      next.Attends seat n servers (Function.update unread i rest) := by
  obtain ⟨service, hservice, hattends⟩ := h i hi
  have hoctets : (links seat).unread i c = m.frame ++ rest := by
    show (c.services[i]?.map fun s => s.unread seat).getD [] = _
    rw [hservice, ← hunread]
    exact hattends.unread_eq
  refine ⟨(links seat).setUnread i rest c, ?_, ?_⟩
  · unfold Network.Links.receive
    rw [hoctets, receive_message hfit]
  · have hset := h.modify (i := i) (f := fun s => s.setUnread seat rest) fun _ hs => hs.setUnread rest
    rwa [Function.update_eq_self] at hset

/-! ## Rounds -/

/-- Messages that are answered by different servers are all sent and answered. -/
theorem sendAll {ι : Type} {server : ι → Nat} {message : ι → Message} {replies : ι → List Message}
    {after : ι → Server} {jobs : List ι} (hdistinct : (jobs.map server).Nodup)
    (h : c.Attends seat n servers unread) (hlt : ∀ job ∈ jobs, server job < n)
    (hfit : ∀ job ∈ jobs, (message job).body.length ≤ frameLimit)
    (hanswers : ∀ job ∈ jobs, Answers (servers (server job)) (message job) (replies job) (after job)) :
    ∃ next servers' unread',
      (links seat).sendAll (jobs.map fun job => (server job, message job)) c = (.ok (), next) ∧
      next.Attends seat n servers' unread' ∧
      (∀ job ∈ jobs, servers' (server job) = after job ∧
        unread' (server job) = unread (server job) ++ (replies job).flatMap Message.frame) ∧
      ∀ i, i ∉ jobs.map server → servers' i = servers i ∧ unread' i = unread i := by
  induction jobs generalizing c servers unread with
  | nil => exact ⟨c, servers, unread, rfl, h, nofun, fun _ _ => ⟨rfl, rfl⟩⟩
  | cons job jobs ih =>
    rw [List.map_cons, List.nodup_cons] at hdistinct
    obtain ⟨hfresh, hdistinct⟩ := hdistinct
    obtain ⟨between, hsend, hbetween⟩ := h.send (hlt job (List.mem_cons_self ..))
      (hfit job (List.mem_cons_self ..)) (hanswers job (List.mem_cons_self ..))
    have hne : ∀ other ∈ jobs, server other ≠ server job := fun other hmem heq =>
      hfresh (heq ▸ List.mem_map_of_mem hmem)
    obtain ⟨next, servers', unread', hrest, hnext, hjobs, hothers⟩ := ih hdistinct hbetween
      (fun other hmem => hlt other (List.mem_cons_of_mem _ hmem))
      (fun other hmem => hfit other (List.mem_cons_of_mem _ hmem))
      (fun other hmem => by
        rw [Function.update_of_ne (hne other hmem)]
        exact hanswers other (List.mem_cons_of_mem _ hmem))
    refine ⟨next, servers', unread', ?_, hnext, fun other hmem => ?_, fun i hi => ?_⟩
    · rw [List.map_cons, Network.Links.sendAll, hsend]
      exact hrest
    · rcases List.mem_cons.1 hmem with rfl | hmem
      · -- the first server is not asked again
        obtain ⟨hserver, hunread⟩ := hothers _ hfresh
        rw [hserver, hunread, Function.update_self, Function.update_self]
        exact ⟨rfl, rfl⟩
      · obtain ⟨hserver, hunread⟩ := hjobs other hmem
        rw [hserver, hunread, Function.update_of_ne (hne other hmem)]
        exact ⟨rfl, rfl⟩
    · rw [List.map_cons, List.mem_cons, not_or] at hi
      obtain ⟨hserver, hunread⟩ := hothers i hi.2
      rw [hserver, hunread, Function.update_of_ne hi.1, Function.update_of_ne hi.1]
      exact ⟨rfl, rfl⟩

/-- The answers of the servers on a route are put into the buffer. -/
theorem gather {key : Key} {values : Network.Span → List Single} {route : List Network.Span}
    (hdistinct : (route.map (·.server)).Nodup) (h : c.Attends seat n servers unread)
    (hlt : ∀ span ∈ route, span.server < n)
    (hunread : ∀ span ∈ route, unread span.server = (Message.params key.name (values span)).frame)
    (hlength : ∀ span ∈ route, (values span).length = span.length)
    (hfit : ∀ span ∈ route, AnswerFits key.name span.length) (buffer : List Single) :
    ∃ next unread',
      Network.gather (links seat) key route buffer c =
        ⟨.ok (), route.foldl (fun xs span => Network.overwrite span.start (values span) xs) buffer, next⟩ ∧
      next.Attends seat n servers unread' ∧ (∀ span ∈ route, unread' span.server = []) ∧
      ∀ i, i ∉ route.map (·.server) → unread' i = unread i := by
  induction route generalizing c unread buffer with
  | nil => exact ⟨c, unread, rfl, h, nofun, fun _ _ => rfl⟩
  | cons span route ih =>
    rw [List.map_cons, List.nodup_cons] at hdistinct
    obtain ⟨hfresh, hdistinct⟩ := hdistinct
    have hmem : span ∈ span :: route := List.mem_cons_self ..
    have hframe : unread span.server = (Message.params key.name (values span)).frame ++ [] := by
      rw [List.append_nil, hunread span hmem]
    obtain ⟨between, hreceive, hbetween⟩ := h.receive (hlt span hmem)
      (hfit span hmem (values span) (hlength span hmem)) hframe
    have hne : ∀ other ∈ route, other.server ≠ span.server := fun other hother heq =>
      hfresh (heq ▸ List.mem_map_of_mem hother)
    obtain ⟨next, unread', hrest, hnext, hempty, hothers⟩ := ih hdistinct hbetween
      (fun other hother => hlt other (List.mem_cons_of_mem _ hother))
      (fun other hother => by
        rw [Function.update_of_ne (hne other hother)]
        exact hunread other (List.mem_cons_of_mem _ hother))
      (fun other hother => hlength other (List.mem_cons_of_mem _ hother))
      (fun other hother => hfit other (List.mem_cons_of_mem _ hother))
      (Network.overwrite span.start (values span) buffer)
    have haccepted : Network.accepted key span (.params key.name (values span)) = .ok (values span) := by
      simp only [Network.accepted, hlength span hmem, ne_eq, not_true_eq_false, if_false]
    refine ⟨next, unread', ?_, hnext, fun other hother => ?_, fun i hi => ?_⟩
    · rw [Network.gather, hreceive]
      simp only [haccepted]
      exact hrest
    · rcases List.mem_cons.1 hother with rfl | hother
      · rw [hothers _ hfresh, Function.update_self]
      · exact hempty other hother
    · rw [List.map_cons, List.mem_cons, not_or] at hi
      rw [hothers i hi.2, Function.update_of_ne hi.1]

/-- A request to the servers on a route, each of which answers with the values of its span. -/
theorem request {key : Key} {values : Network.Span → List Single} {message : Network.Span → Message}
    {after : Network.Span → Server} {route : List Network.Span} (hroute : route ≠ [])
    (hdistinct : (route.map (·.server)).Nodup) (h : c.Attends seat n servers fun _ => [])
    (hlt : ∀ span ∈ route, span.server < n)
    (hsent : ∀ span ∈ route, (message span).body.length ≤ frameLimit)
    (hanswers : ∀ span ∈ route,
      Answers (servers span.server) (message span) [.params key.name (values span)] (after span))
    (hlength : ∀ span ∈ route, (values span).length = span.length)
    (hfit : ∀ span ∈ route, AnswerFits key.name span.length) (buffer : List Single) :
    ∃ next servers',
      Network.request (links seat) key route message buffer c =
        ⟨.ok (), route.foldl (fun xs span => Network.overwrite span.start (values span) xs) buffer, next⟩ ∧
      next.Attends seat n servers' (fun _ => []) ∧ (∀ span ∈ route, servers' span.server = after span) ∧
      ∀ i, i ∉ route.map (·.server) → servers' i = servers i := by
  obtain ⟨between, servers', unread, hsend, hbetween, hjobs, hothers⟩ :=
    h.sendAll hdistinct hlt hsent hanswers
  have hunread : ∀ span ∈ route, unread span.server = (Message.params key.name (values span)).frame := by
    intro span hmem
    rw [(hjobs span hmem).2, List.nil_append, List.flatMap_singleton]
  obtain ⟨next, unread', hgather, hnext, hempty, hkept⟩ :=
    gather hdistinct hbetween hlt hunread hlength hfit buffer
  refine ⟨next, servers', ?_, ?_, fun span hmem => (hjobs span hmem).1, fun i hi => (hothers i hi).1⟩
  · unfold Network.request
    rw [if_neg (by simpa using hroute), hsend]
    exact hgather
  · -- what was sent by the servers on the route was read, the others sent nothing
    have hnone : unread' = fun _ => [] := by
      funext i
      by_cases hi : i ∈ route.map (·.server)
      · obtain ⟨span, hmem, rfl⟩ := List.mem_map.1 hi
        exact hempty span hmem
      · rw [hkept i hi, (hothers i hi).2]
    exact hnone ▸ hnext

end Attends

end Cluster

end ParamExchange
