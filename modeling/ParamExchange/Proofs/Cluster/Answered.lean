/-
What a request that succeeds tells. Every server that it asked has answered as the protocol says,
with the values that are now in the buffer, and nothing is left to read. A message that is refused is
answered with a diagnostic, one beyond the limit of frames is not answered at all, and neither is
taken for parameters.
-/
import ParamExchange.Proofs.Cluster.Attending
import ParamExchange.Proofs.Network.Calls

namespace ParamExchange

open Wire

/-! ## One message -/

theorem length_body_push (key : String) (gradient : List Single) :
    (Message.push key gradient).body.length = (Message.params key gradient).body.length := by
  simp only [Message.body, Message.encode, Message.head, Message.tail?, List.length_append, length_big]

/-- A message is answered with nothing, or with parameters that fit in a frame if it does. -/
theorem Answers.replies_cases {server after : Server} {m : Message} {replies : List Message}
    (h : Answers server m replies after) (hfit : m.body.length ≤ frameLimit) :
    replies = [] ∨ ∃ key values, replies = [.params key values] ∧
      (Message.params key values).body.length ≤ frameLimit := by
  cases h with
  | connect => exact .inl rfl
  | firstHello => exact .inl rfl
  | hello => exact .inl rfl
  | pull hfits _ _ _ hlen => exact .inr ⟨_, _, rfl, hfits _ hlen⟩
  | push _ _ _ hlen =>
    rw [length_body_push, length_body_params, ← hlen, ← length_body_params] at hfit
    exact .inr ⟨_, _, rfl, hfit⟩

namespace Service

/-- What is unread after a connection was served. -/
theorem unread_feed {service : Service} {i : Nat} {c : Connection} (hc : service.connections[i]? = some c)
    (hopen : c.isOpen = true) (octets : List UInt8) :
    (service.feed i octets false).unread i = c.outbox ++ (Session.serveStream c.fault? false
      (c.inbox ++ octets) ⟨service.server, c.scratch⟩).1.replies.flatMap Message.frame := by
  rw [feed_open hc hopen]
  unfold unread
  rw [connections_absorb hc]
  rfl

/-- A message that something is received for is within the limit of frames. -/
theorem Attends.fits_of_receive {service : Service} {seat : Nat} {server : Server}
    (h : service.Attends seat server []) {m : Message} (hword : m.body.length < 256 ^ lengthWidth) {answer : Message}
    {rest : List UInt8} (hreceive : receive ((service.feed seat m.frame false).unread seat) = (.ok answer, rest)) :
    m.body.length ≤ frameLimit := by
  obtain ⟨scratch, hc⟩ := h.connection
  by_contra hfit
  have hfront : front m.frame = .oversized m.body.length m.body := front_oversized hword (not_le.1 hfit) m.body
  rw [unread_feed hc rfl, List.nil_append, List.nil_append, Session.serveStream_eq,
    inbound_oversized hfront] at hreceive
  cases hreceive

/-- If parameters are received from a service that was sent one message, then it has answered this
message with them and attends again. -/
theorem Attends.of_receive {service : Service} {seat : Nat} {server : Server}
    (h : service.Attends seat server []) {m : Message} (hm : m ≠ .control .disconnect)
    (hword : m.body.length < 256 ^ lengthWidth) {name : String} {values : List Single} {rest : List UInt8}
    (hreceive : receive ((service.feed seat m.frame false).unread seat) = (.ok (.params name values), rest)) :
    ∃ after, Answers server m [.params name values] after ∧
      ((service.feed seat m.frame false).setUnread seat rest).Attends seat after [] := by
  obtain ⟨scratch, hc⟩ := h.connection
  have hfit := h.fits_of_receive hword hreceive
  obtain ⟨now, after, hanswers⟩ | ⟨r, after, hrefuses⟩ := answers_or_refuses server hm
  · have hfed := h.feed hfit hanswers
    rw [hfed.unread_eq, List.nil_append] at hreceive
    obtain rfl | ⟨key, sent, rfl, hsent⟩ := hanswers.replies_cases hfit
    · cases hreceive
    · rw [List.flatMap_singleton, ← List.append_nil (Message.frame _), receive_message hsent] at hreceive
      cases hreceive
      exact ⟨after, hanswers, hfed.setUnread []⟩
  · -- the diagnostic is not received as parameters, however long it is
    obtain ⟨left, hhandle⟩ := Session.handle_of_refuses hrefuses scratch
    rw [unread_feed hc rfl, h.server, List.nil_append, List.nil_append, Session.serveStream_eq,
      inbound_message hfit, Session.serve_refuse hhandle, Served.finish_closed (fun h => by cases h),
      List.flatMap_singleton, ← List.append_nil (Message.frame _)] at hreceive
    cases kindNumber_of_receive hreceive

end Service

/-! ## Clusters by their services -/

namespace Cluster

/-- Each of the first `n` services stands as it is told. -/
def Stands (c : Cluster) (n : Nat) (P : Nat → Service → Prop) : Prop :=
  ∀ i < n, ∃ service, c.services[i]? = some service ∧ P i service

namespace Stands

variable {c : Cluster} {seat n : Nat} {P Q : Nat → Service → Prop}

/-- One service is changed. -/
theorem modify (h : c.Stands n P) {i : Nat} {service : Service} (hservice : c.services[i]? = some service)
    {f : Service → Service} {R : Service → Prop} (hf : R (f service)) :
    (c.modify i f).Stands n (Function.update P i R) := by
  intro j hj
  rw [Cluster.modify, List.getElem?_modify]
  by_cases hij : i = j
  · subst hij
    rw [hservice, Function.update_self]
    exact ⟨f service, congrArg some (if_pos rfl), hf⟩
  · obtain ⟨other, hother, hstands⟩ := h j hj
    rw [hother, Function.update_of_ne (Ne.symm hij)]
    exact ⟨other, congrArg some (if_neg hij), hstands⟩

theorem imp (h : c.Stands n P) (hQ : ∀ i service, P i service → Q i service) : c.Stands n Q := by
  intro i hi
  obtain ⟨service, hservice, hstands⟩ := h i hi
  exact ⟨service, hservice, hQ i service hstands⟩

/-- Messages to different services that are all open are all sent. -/
theorem sendAll (seat : Nat) (message : Network.Span → Message) {route : List Network.Span}
    (hdistinct : (route.map (·.server)).Nodup) (h : c.Stands n P) (hlt : ∀ span ∈ route, span.server < n)
    (hopen : ∀ span ∈ route, ∀ service, P span.server service → service.isOpen seat = true)
    (hsent : ∀ span ∈ route, ∀ service, P span.server service →
      Q span.server (service.feed seat (message span).frame false))
    (hkept : ∀ i, i ∉ route.map (·.server) → ∀ service, P i service → Q i service) :
    ∃ next, (links seat).sendAll (route.map fun span => (span.server, message span)) c = (.ok (), next) ∧
      next.Stands n Q := by
  induction route generalizing c P with
  | nil => exact ⟨c, rfl, h.imp fun i => hkept i List.not_mem_nil⟩
  | cons span route ih =>
    rw [List.map_cons, List.nodup_cons] at hdistinct
    obtain ⟨hfresh, hdistinct⟩ := hdistinct
    have hmem : span ∈ span :: route := List.mem_cons_self ..
    have hne : ∀ other ∈ route, other.server ≠ span.server := fun other hother heq =>
      hfresh (heq ▸ List.mem_map_of_mem hother)
    obtain ⟨service, hservice, hstands⟩ := h span.server (hlt span hmem)
    have hsend : (links seat).send span.server (message span) c =
        (.ok (), c.modify span.server fun s => s.feed seat (message span).frame false) := by
      refine if_pos ?_
      rw [hservice]
      exact hopen span hmem service hstands
    obtain ⟨next, hrest, hnext⟩ := ih hdistinct
      (h.modify hservice (f := fun s => s.feed seat (message span).frame false) (hsent span hmem service hstands))
      (fun other hother => hlt other (List.mem_cons_of_mem _ hother))
      (fun other hother => by
        rw [Function.update_of_ne (hne other hother)]
        exact hopen other (List.mem_cons_of_mem _ hother))
      (fun other hother => by
        rw [Function.update_of_ne (hne other hother)]
        exact hsent other (List.mem_cons_of_mem _ hother))
      (fun i hi => by
        by_cases heq : i = span.server
        · subst heq
          rw [Function.update_self]
          exact fun _ hQ => hQ
        · rw [Function.update_of_ne heq]
          exact hkept i (by rw [List.map_cons, List.mem_cons, not_or]; exact ⟨heq, hi⟩))
    refine ⟨next, ?_, hnext⟩
    rw [List.map_cons, Network.Links.sendAll, hsend]
    exact hrest

/-- If the answers of different services are all accepted, then each of them had parameters of the
right name and length to read. -/
theorem gather (seat : Nat) {key : Key} {route : List Network.Span} (hdistinct : (route.map (·.server)).Nodup)
    (h : c.Stands n P) (hlt : ∀ span ∈ route, span.server < n) {buffer : List Single}
    (hok : (Network.gather (links seat) key route buffer c).result = .ok ())
    (hread : ∀ span ∈ route, ∀ service, P span.server service → ∀ values rest, values.length = span.length →
      receive (service.unread seat) = (.ok (.params key.name values), rest) →
      Q span.server (service.setUnread seat rest))
    (hkept : ∀ i, i ∉ route.map (·.server) → ∀ service, P i service → Q i service) :
    (Network.gather (links seat) key route buffer c).state.Stands n Q := by
  induction route generalizing c P buffer with
  | nil => exact h.imp fun i => hkept i List.not_mem_nil
  | cons span route ih =>
    rw [List.map_cons, List.nodup_cons] at hdistinct
    obtain ⟨hfresh, hdistinct⟩ := hdistinct
    have hmem : span ∈ span :: route := List.mem_cons_self ..
    have hne : ∀ other ∈ route, other.server ≠ span.server := fun other hother heq =>
      hfresh (heq ▸ List.mem_map_of_mem hother)
    obtain ⟨service, hservice, hstands⟩ := h span.server (hlt span hmem)
    have hunread : (links seat).unread span.server c = service.unread seat := by
      show (c.services[span.server]?.map fun s => s.unread seat).getD [] = _
      rw [hservice]
      rfl
    rcases hreceive : receive (service.unread seat) with ⟨e | answer, rest⟩
    · rw [Network.gather, Network.Links.receive, hunread, hreceive] at hok
      cases hok
    have htaken : (links seat).receive span.server c =
        (.ok answer, (links seat).setUnread span.server rest c) := by
      rw [Network.Links.receive, hunread, hreceive]
    rw [Network.gather, htaken] at hok ⊢
    simp only at hok ⊢
    rcases haccepted : Network.accepted key span answer with e | values
    · rw [haccepted] at hok
      cases hok
    rw [haccepted] at hok
    simp only at hok ⊢
    obtain ⟨rfl, hlen⟩ := Network.accepted_ok haccepted
    refine ih hdistinct (h.modify hservice (hread span hmem service hstands values rest hlen hreceive))
      (fun other hother => hlt other (List.mem_cons_of_mem _ hother)) hok
      (fun other hother => by
        rw [Function.update_of_ne (hne other hother)]
        exact hread other (List.mem_cons_of_mem _ hother))
      (fun i hi => by
        by_cases heq : i = span.server
        · subst heq
          rw [Function.update_self]
          exact fun _ hQ => hQ
        · rw [Function.update_of_ne heq]
          exact hkept i (by rw [List.map_cons, List.mem_cons, not_or]; exact ⟨heq, hi⟩))

end Stands

/-! ## Requests -/

section

variable {seat n : Nat} {servers : Nat → Server} {key : Key} {message : Network.Span → Message}
  {route : List Network.Span}

/-- The service `i` was sent the message of the span that asks it, and nothing else. -/
structure HasMail (seat : Nat) (servers : Nat → Server) (message : Network.Span → Message)
    (route : List Network.Span) (i : Nat) (service : Service) : Prop where
  asked : ∀ span ∈ route, span.server = i → ∃ before : Service, before.Attends seat (servers i) [] ∧
    service = before.feed seat (message span).frame false
  others : i ∉ route.map (·.server) → service.Attends seat (servers i) []

/-- The service `i` attends with the server `after`, which answered the message of the span that asks
it, and is as it was if there is no such span. -/
structure HasAnswered (seat : Nat) (servers : Nat → Server) (key : Key) (message : Network.Span → Message)
    (route : List Network.Span) (i : Nat) (service : Service) (after : Server) : Prop where
  attends : service.Attends seat after []
  asked : ∀ span ∈ route, span.server = i → ∃ values, values.length = span.length ∧
    Answers (servers i) (message span) [.params key.name values] after
  others : i ∉ route.map (·.server) → after = servers i

theorem eq_of_server_eq (hdistinct : (route.map (·.server)).Nodup) {span other : Network.Span}
    (hspan : span ∈ route) (hother : other ∈ route) (h : other.server = span.server) : other = span :=
  List.inj_on_of_nodup_map hdistinct hother hspan h

theorem HasMail.sent (hdistinct : (route.map (·.server)).Nodup) {span : Network.Span} (hspan : span ∈ route)
    {service : Service} (h : service.Attends seat (servers span.server) []) :
    HasMail seat servers message route span.server (service.feed seat (message span).frame false) := by
  refine ⟨fun other hother heq => ⟨service, h, ?_⟩, fun hoff => absurd (List.mem_map_of_mem hspan) hoff⟩
  rw [eq_of_server_eq hdistinct hspan hother heq]

theorem HasMail.kept {i : Nat} (hoff : i ∉ route.map (·.server)) {service : Service}
    (h : service.Attends seat (servers i) []) : HasMail seat servers message route i service :=
  ⟨fun _ hspan heq => absurd (heq ▸ List.mem_map_of_mem hspan) hoff, fun _ => h⟩

/-- Parameters that are received from a service with one message are the answer to this message. -/
theorem HasMail.read (hdistinct : (route.map (·.server)).Nodup) {span : Network.Span} (hspan : span ∈ route)
    (hm : message span ≠ .control .disconnect) (hwords : (message span).body.length < 256 ^ lengthWidth)
    {service : Service} (h : HasMail seat servers message route span.server service) {values : List Single}
    {rest : List UInt8} (hlen : values.length = span.length)
    (hreceive : receive (service.unread seat) = (.ok (.params key.name values), rest)) :
    ∃ after, HasAnswered seat servers key message route span.server (service.setUnread seat rest) after := by
  obtain ⟨before, hbefore, rfl⟩ := h.asked span hspan rfl
  obtain ⟨after, hanswers, hafter⟩ := hbefore.of_receive hm hwords hreceive
  refine ⟨after, hafter, fun other hother heq => ?_, fun hoff => absurd (List.mem_map_of_mem hspan) hoff⟩
  obtain rfl := eq_of_server_eq hdistinct hspan hother heq
  exact ⟨values, hlen, hanswers⟩

theorem HasMail.unread {i : Nat} (hoff : i ∉ route.map (·.server)) {service : Service}
    (h : HasMail seat servers message route i service) :
    ∃ after, HasAnswered seat servers key message route i service after :=
  ⟨servers i, h.others hoff, fun _ hspan heq => absurd (heq ▸ List.mem_map_of_mem hspan) hoff, fun _ => rfl⟩

/-- The messages of a request that succeeds are within the limit of frames. -/
theorem Attends.fits_of_request_ok {c : Cluster} (hdistinct : (route.map (·.server)).Nodup)
    (h : c.Attends seat n servers fun _ => []) (hlt : ∀ span ∈ route, span.server < n)
    (hwords : ∀ span ∈ route, (message span).body.length < 256 ^ lengthWidth) {buffer : List Single}
    (hok : (Network.request (links seat) key route message buffer c).result = .ok ()) :
    ∀ span ∈ route, (message span).body.length ≤ frameLimit := by
  have hstands : c.Stands n fun i service => service.Attends seat (servers i) [] := h
  obtain ⟨between, hsend, hmail⟩ := hstands.sendAll (Q := HasMail seat servers message route) seat message
    hdistinct hlt (fun _ _ _ hs => hs.isOpen) (fun _ hspan _ => .sent hdistinct hspan) (fun _ hoff _ => .kept hoff)
  unfold Network.request at hok
  split at hok
  · cases hok
  rw [hsend] at hok
  have hfits := hmail.gather
    (Q := fun i _ => ∀ span ∈ route, span.server = i → (message span).body.length ≤ frameLimit) seat hdistinct hlt hok
    (fun span hspan service hs values rest _ hreceive other hother heq => by
      obtain rfl := eq_of_server_eq hdistinct hspan hother heq
      obtain ⟨before, hbefore, rfl⟩ := hs.asked other hother rfl
      exact hbefore.fits_of_receive (hwords other hother) hreceive)
    (fun _ hoff _ _ span hspan heq => absurd (heq ▸ List.mem_map_of_mem hspan) hoff)
  intro span hspan
  obtain ⟨service, -, hfit⟩ := hfits span.server (hlt span hspan)
  exact hfit span hspan rfl

/-- A request that succeeds was answered by every server that it asked, with parameters of the
length of the span, and all services attend again. -/
theorem Attends.request_ok {c : Cluster} (hdistinct : (route.map (·.server)).Nodup)
    (h : c.Attends seat n servers fun _ => []) (hlt : ∀ span ∈ route, span.server < n)
    (hm : ∀ span ∈ route, message span ≠ .control .disconnect)
    (hwords : ∀ span ∈ route, (message span).body.length < 256 ^ lengthWidth) {buffer : List Single}
    (hok : (Network.request (links seat) key route message buffer c).result = .ok ()) :
    ∃ servers', (Network.request (links seat) key route message buffer c).state.Attends seat n servers'
        (fun _ => []) ∧
      (∀ span ∈ route, ∃ values, values.length = span.length ∧
        Answers (servers span.server) (message span) [.params key.name values] (servers' span.server)) ∧
      ∀ i, i ∉ route.map (·.server) → servers' i = servers i := by
  have hstands : c.Stands n fun i service => service.Attends seat (servers i) [] := h
  obtain ⟨between, hsend, hmail⟩ := hstands.sendAll (Q := HasMail seat servers message route) seat message
    hdistinct hlt (fun _ _ _ hs => hs.isOpen) (fun _ hspan _ => .sent hdistinct hspan) (fun _ hoff _ => .kept hoff)
  unfold Network.request at hok ⊢
  split at hok
  · cases hok
  rename_i hroute
  rw [hsend] at hok
  rw [if_neg hroute, hsend]
  have hread := hmail.gather
    (Q := fun i service => ∃ after, HasAnswered seat servers key message route i service after) seat hdistinct hlt hok
    (fun span hspan _ hs _ _ => hs.read hdistinct hspan (hm span hspan) (hwords span hspan))
    (fun _ hoff _ hs => hs.unread hoff)
  have : Inhabited Server := ⟨servers 0⟩
  choose! service hservice after hanswered using hread
  refine ⟨fun i => if i ∈ route.map (·.server) then after i else servers i, fun i hi => ?_, fun span hspan => ?_,
    fun i hi => if_neg hi⟩
  · refine ⟨service i hi, hservice i hi, ?_⟩
    simp only
    split
    · exact (hanswered i hi).attends
    · rename_i hoff
      exact (hanswered i hi).others hoff ▸ (hanswered i hi).attends
  · simp only
    rw [if_pos (List.mem_map_of_mem hspan)]
    exact (hanswered span.server (hlt span hspan)).asked span hspan rfl

end

end Cluster

end ParamExchange
