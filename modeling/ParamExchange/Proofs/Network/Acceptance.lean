/-
What a request accepts. The servers here may have sent any octets. A request writes one frame to each server on
its route before it reads anything, and then takes one frame of each server in turn: it goes on as long as the
frame brings values for the parameter, as many as the span of the server calls for, and stops at the first frame
that does not. The values that were accepted stand in the slices of their servers, and no other element of the
buffer was written. The connections are watched for this, which changes nothing about them.
-/
import ParamExchange.Proofs.Network.Matching
import ParamExchange.Proofs.Network.Partition

namespace ParamExchange.Network

open Wire

variable {σ : Type}

/-! ## Watched connections -/

/-- What is done on a connection: octets are written, or a frame is read. -/
inductive Event
  | wrote (server : Nat) (octets : List UInt8)
  | read (server : Nat)

/-- Connections, the senders that frame what is written to them, and what was done on them so far. -/
structure Watched (σ : Type) where
  events : List Event
  senders : Nat → Sender
  links : σ

/-- Links on which every frame that is written and every read is noted. -/
def Links.watched (links : Links σ) : Links (Watched σ) where
  send i m s :=
    match links.send i m s.links with
    | (.error e, after) => (.error e, { s with links := after })
    | (.ok (), after) =>
      let written := (s.senders i).send m
      (.ok (), ⟨s.events ++ [.wrote i written.1], Function.update s.senders i written.2, after⟩)
  unread i s := links.unread i s.links
  setUnread i octets s := { s with events := s.events ++ [.read i], links := links.setUnread i octets s.links }

/-- What was filled, without the notes. -/
def unwatched (filled : Filled TransportError Single (Watched σ)) : Filled TransportError Single σ :=
  ⟨filled.result, filled.buffer, filled.state.links⟩

section Unwatched

variable (links : Links σ)

theorem send_watched (i : Nat) (m : Message) (s : Watched σ) :
    Prod.map id Watched.links (links.watched.send i m s) = links.send i m s.links := by
  simp only [Links.watched]
  rcases links.send i m s.links with ⟨e | ⟨⟩, after⟩ <;> rfl

theorem sendAll_watched (items : List (Nat × Message)) (s : Watched σ) :
    Prod.map id Watched.links (links.watched.sendAll items s) = links.sendAll items s.links := by
  induction items generalizing s with
  | nil => rfl
  | cons item rest ih =>
    rw [Links.sendAll, Links.sendAll, ← send_watched]
    rcases links.watched.send item.1 item.2 s with ⟨e | ⟨⟩, after⟩
    · rfl
    · exact ih after

theorem gather_watched (key : Key) (route : List Span) (buffer : List Single) (s : Watched σ) :
    unwatched (gather links.watched key route buffer s) = gather links key route buffer s.links := by
  induction route generalizing buffer s with
  | nil => rfl
  | cons span rest ih =>
    rcases hreceive : Wire.receive (links.unread span.server s.links) with ⟨e | answer, left⟩
    · simp [gather, Links.receive, Links.watched, hreceive, unwatched]
    · simp only [gather, Links.receive, Links.watched, hreceive]
      split
      · rfl
      · exact ih _ _

theorem request_watched (key : Key) (route : List Span) (message : Span → Message) (buffer : List Single)
    (s : Watched σ) :
    unwatched (request links.watched key route message buffer s) = request links key route message buffer s.links := by
  unfold request
  split
  · rfl
  · rw [← sendAll_watched]
    generalize links.watched.sendAll (route.map fun span => (span.server, message span)) s = sent
    obtain ⟨e | ⟨⟩, after⟩ := sent
    · rfl
    · exact gather_watched links key route buffer after

/-- A call is the same whether its connections are watched or not. -/
theorem call_watched (spread : Spread) (call : Call) (s : Watched σ) :
    unwatched ((transport links.watched spread).call call s) = (transport links spread).call call s.links := by
  by_cases hgradient : ∀ gradient ∈ call.gradient?, gradient.length = call.buffer.length
  · rw [call_transport _ _ hgradient, call_transport _ _ hgradient, request_watched]
  · push Not at hgradient
    obtain ⟨gradient, hmem, hne⟩ := hgradient
    rw [call_transport_mismatch _ _ hmem hne, call_transport_mismatch _ _ hmem hne]
    rfl

end Unwatched

/-! ## Frames that are accepted -/

/-- `Delivers key span stream values`: the next frame of a stream brings the values that a span calls for. -/
def Delivers (key : Key) (span : Span) (stream : List UInt8) (values : List Single) : Prop :=
  ∃ body rest, stream = big lengthWidth body.length ++ (body ++ rest) ∧ body.length ≤ frameLimit ∧
    Message.decode body = .ok (.params key.name values) ∧ values.length = span.length

theorem accepted_iff {key : Key} {span : Span} {answer : Message} {values : List Single} :
    accepted key span answer = .ok values ↔ answer = .params key.name values ∧ values.length = span.length := by
  constructor
  · exact accepted_ok
  · rintro ⟨rfl, hlength⟩
    simp [accepted, hlength]

/-- The values of a frame are accepted exactly if it is read as a message that is accepted. -/
theorem delivers_iff {key : Key} {span : Span} {stream : List UInt8} {values : List Single} :
    Delivers key span stream values ↔
      ∃ answer, (Wire.receive stream).1 = .ok answer ∧ accepted key span answer = .ok values := by
  simp only [receive_eq_ok_iff, accepted_iff]
  constructor
  · rintro ⟨body, rest, heq, hbody, hdecode, hlength⟩
    exact ⟨_, ⟨rest, body, heq, hbody, hdecode⟩, rfl, hlength⟩
  · rintro ⟨_, ⟨rest, body, heq, hbody, hdecode⟩, rfl, hlength⟩
    exact ⟨body, rest, heq, hbody, hdecode, hlength⟩

/-! ## Gathering -/

/-- `Gathers key stream buffer route payloads result`: the first spans of a route were delivered, and their
payloads stand in their slices of a buffer; the span after them, if there is one, was not. -/
inductive Gathers (key : Key) (stream : Nat → List UInt8) (buffer : List Single) :
    List Span → List (List Single) → Except TransportError Unit → Prop
  | done : Gathers key stream buffer [] [] (.ok ())
  | stop {span : Span} {rest : List Span} (e : TransportError) :
    (∀ values, ¬ Delivers key span (stream span.server) values) →
    Gathers key stream buffer (span :: rest) [] (.error e)
  | next {span : Span} {rest : List Span} {payloads : List (List Single)} {result : Except TransportError Unit} :
    Delivers key span (stream span.server) (span.slice buffer) → Gathers key stream buffer rest payloads result →
    Gathers key stream buffer (span :: rest) (span.slice buffer :: payloads) result

namespace Gathers

variable {key : Key} {stream other : Nat → List UInt8} {buffer : List Single} {route : List Span}
  {payloads : List (List Single)} {result : Except TransportError Unit}

theorem congr (h : Gathers key stream buffer route payloads result)
    (hstream : ∀ span ∈ route, other span.server = stream span.server) :
    Gathers key other buffer route payloads result := by
  induction h with
  | done => exact .done
  | stop e hnone => exact .stop e (by rwa [hstream _ (List.mem_cons_self ..)])
  | next hdelivers _ ih =>
    obtain ⟨hfirst, hrest⟩ := List.forall_mem_cons.1 hstream
    exact .next (by rwa [hfirst]) (ih hrest)

/-- Each payload is that of its span, and stands in its slice. -/
theorem forall₂ (h : Gathers key stream buffer route payloads result) :
    List.Forall₂ (fun span values => Delivers key span (stream span.server) values ∧ span.slice buffer = values)
      (route.take payloads.length) payloads := by
  induction h with
  | done => exact .nil
  | stop => exact .nil
  | next hdelivers _ ih => exact .cons ⟨hdelivers, rfl⟩ ih

/-- The span after the last payload is not delivered, and the request fails with it. -/
theorem stopped (h : Gathers key stream buffer route payloads result) :
    ∀ span, route[payloads.length]? = some span →
      (∃ e, result = .error e) ∧ ∀ values, ¬ Delivers key span (stream span.server) values := by
  induction h with
  | done => exact nofun
  | stop e hnone =>
    intro span hspan
    cases hspan
    exact ⟨⟨e, rfl⟩, hnone⟩
  | next _ _ ih => exact ih

theorem ok_iff_length (h : Gathers key stream buffer route payloads result) :
    result = .ok () ↔ payloads.length = route.length := by
  induction h with
  | done => simp
  | stop => simp
  | next _ _ ih => simpa using ih

/-- A request succeeds exactly if every span is delivered. -/
theorem ok_iff (h : Gathers key stream buffer route payloads result) :
    result = .ok () ↔ ∀ span ∈ route, ∃ values, Delivers key span (stream span.server) values := by
  induction h with
  | done => simp
  | @stop span rest e hnone =>
    refine iff_of_false nofun fun hall => ?_
    obtain ⟨values, hvalues⟩ := hall span (List.mem_cons_self ..)
    exact hnone values hvalues
  | next hdelivers _ ih =>
    rw [ih, List.forall_mem_cons]
    exact (and_iff_right ⟨_, hdelivers⟩).symm

/-- The payloads of a whole route make up the buffer. -/
theorem flatten_eq (h : Gathers key stream buffer route payloads result) (htiles : Tiles route 0 buffer.length)
    (hall : payloads.length = route.length) : payloads.flatten = buffer := by
  have hslices : ∀ {route : List Span} {payloads : List (List Single)} {result : Except TransportError Unit},
      Gathers key stream buffer route payloads result →
        payloads = (route.take payloads.length).map (·.slice buffer) := by
    intro route payloads result h
    induction h with
    | done => rfl
    | stop => rfl
    | next _ _ ih => simpa using ih
  rw [hslices h, hall, List.take_length, htiles.flatten_slices]
  simp

end Gathers

/-- What one server is read for: its values go into the buffer, or the request ends. -/
theorem gather_cases (links : Links σ) (key : Key) (span : Span) (rest : List Span) (buffer : List Single) (s : σ) :
    (∃ values left, Delivers key span (links.unread span.server s) values ∧
      gather links key (span :: rest) buffer s =
        gather links key rest (overwrite span.start values buffer) (links.setUnread span.server left s)) ∨
    (∃ e left, (∀ values, ¬ Delivers key span (links.unread span.server s) values) ∧
      gather links key (span :: rest) buffer s = ⟨.error e, buffer, links.setUnread span.server left s⟩) := by
  simp only [delivers_iff]
  rcases hreceive : Wire.receive (links.unread span.server s) with ⟨e | answer, left⟩
  · exact .inr ⟨.link e, left, by simp, by simp [gather, Links.receive, hreceive]⟩
  · rcases haccepted : accepted key span answer with e | values
    · exact .inr ⟨e, left, by simp [haccepted], by simp [gather, Links.receive, hreceive, haccepted]⟩
    · exact .inl ⟨values, left, ⟨answer, rfl, haccepted⟩, by simp [gather, Links.receive, hreceive, haccepted]⟩

theorem getElem?_overwrite {α : Type} {start i : Nat} {part xs : List α} (h : start + part.length ≤ xs.length)
    (hi : i < start ∨ start + part.length ≤ i) : (overwrite start part xs)[i]? = xs[i]? := by
  rw [overwrite_eq h]
  rcases hi with hi | hi
  · rw [List.getElem?_append_left (by rw [List.length_take]; omega), List.getElem?_take_of_lt hi]
  · have hstart : (xs.take start).length = start := by rw [List.length_take]; omega
    rw [← List.append_assoc, List.getElem?_append_right (by rw [List.length_append]; omega), List.getElem?_drop]
    congr 1
    rw [List.length_append]
    omega

/-- Reading from one server leaves what the others sent. -/
def Links.IsSeparate (links : Links σ) : Prop :=
  ∀ i j octets s, j ≠ i → links.unread j (links.setUnread i octets s) = links.unread j s

/-- The answers of the servers on a route are read in turn, up to the first one that is not accepted. -/
theorem gather_gathers {links : Links σ} (hlinks : links.IsSeparate) (key : Key) {route : List Span} {a b : Nat}
    (htiles : Tiles route a b) (hroute : (route.map (·.server)).Nodup) {buffer : List Single}
    (hb : b ≤ buffer.length) (s : Watched σ) :
    let filled := gather links.watched key route buffer s
    ∃ payloads, Gathers key (links.unread · s.links) filled.buffer route payloads filled.result ∧
      filled.state.events = s.events ++ (route.take (payloads.length + 1)).map (.read ·.server) ∧
      ∀ i, (∀ span ∈ route.take payloads.length, ¬ (span.start ≤ i ∧ i < span.stop)) →
        filled.buffer[i]? = buffer[i]? := by
  induction htiles generalizing buffer s with
  | nil => exact ⟨[], .done, by simp [gather], fun _ _ => rfl⟩
  | @cons span rest b hspan hrest ih =>
    rw [List.map_cons, List.nodup_cons] at hroute
    obtain ⟨hfirst, hroute⟩ := hroute
    have hle := hrest.le
    obtain ⟨values, left, hdelivers, hgather⟩ | ⟨e, left, hnone, hgather⟩ :=
      gather_cases links.watched key span rest buffer s
    · have hlength : values.length = span.length := by obtain ⟨-, -, -, -, -, hlength⟩ := hdelivers; exact hlength
      have hroom : b ≤ (overwrite span.start values buffer).length := by rwa [length_overwrite]
      obtain ⟨payloads, hgathers, hevents, hothers⟩ :=
        ih hroute hroom (links.watched.setUnread span.server left s)
      -- the spans after it leave its slice as it is
      have hslice : span.slice (gather links.watched key (span :: rest) buffer s).buffer = values := by
        rw [hgather, Span.slice_eq_drop, take_gather _ _ hrest hroom, ← Span.slice_eq_drop,
          slice_overwrite hlength hspan (le_trans hle hb)]
      refine ⟨values :: payloads, ?_, ?_, fun i hi => ?_⟩
      · rw [← hslice]
        refine .next (by rwa [hslice]) ?_
        rw [hgather]
        refine hgathers.congr fun other hother => ?_
        have hne : other.server ≠ span.server := fun heq => hfirst (heq ▸ List.mem_map_of_mem hother)
        exact (hlinks span.server other.server left s.links hne).symm
      · rw [hgather, hevents]
        simp [Links.watched]
      · rw [List.length_cons, List.take_succ_cons, List.forall_mem_cons] at hi
        rw [hgather, hothers i hi.2]
        rw [Span.length] at hlength
        exact getElem?_overwrite (by omega) (by omega)
    · refine ⟨[], ?_, ?_, fun i _ => ?_⟩
      · rw [hgather]
        exact .stop e hnone
      · rw [hgather]
        simp [Links.watched]
      · rw [hgather]

/-! ## Sending -/

/-- Whether something can be sent to a server. -/
def IsOpen (peers : List Peer) (i : Nat) : Prop := ∃ peer, peers[i]? = some peer ∧ peer.fault? = none

/-- A message to a server that takes one is recorded, and changes neither what the servers sent nor which of
them take messages. -/
theorem send_recorded {peers : List Peer} {i : Nat} (h : IsOpen peers i) (m : Message) :
    ∃ after, recorded.send i m peers = (.ok (), after) ∧
      (∀ j, recorded.unread j after = recorded.unread j peers) ∧ ∀ j, IsOpen after j ↔ IsOpen peers j := by
  obtain ⟨peer, hpeer, hopen⟩ := h
  refine ⟨peers.set i { peer with sent := peer.sent ++ [m] }, ?_, fun j => ?_, fun j => ?_⟩
  · simp [recorded, hpeer, hopen]
  all_goals
    have hi := (List.getElem?_eq_some_iff.1 hpeer).1
    by_cases hj : i = j
    · subst hj
      simp [recorded, IsOpen, List.getElem?_set_self hi, hpeer]
    · simp [recorded, IsOpen, List.getElem?_set_ne hj]

theorem send_recorded_error {peers : List Peer} {i : Nat} (h : ¬ IsOpen peers i) (m : Message) :
    ∃ e, recorded.send i m peers = (.error e, peers) := by
  rcases hpeer : peers[i]? with _ | peer
  · exact ⟨.endOfStream, by simp [recorded, hpeer]⟩
  · rcases hfault : peer.fault? with _ | e
    · exact absurd ⟨peer, hpeer, hfault⟩ h
    · exact ⟨e, by simp [recorded, hpeer, hfault]⟩

/-- One frame is written for each message, in order, up to the first server that takes none. -/
theorem sendAll_recorded (items : List (Nat × Message)) (s : Watched (List Peer)) :
    ∃ after, (∀ j, recorded.unread j after.links = recorded.unread j s.links) ∧
      ((∀ item ∈ items, IsOpen s.links item.1) ∧ recorded.watched.sendAll items s = (.ok (), after) ∧
        after.events = s.events ++ items.map (fun item => .wrote item.1 item.2.frame) ∨
      ∃ e sent item later, items = sent ++ item :: later ∧ (∀ x ∈ sent, IsOpen s.links x.1) ∧
        ¬ IsOpen s.links item.1 ∧ recorded.watched.sendAll items s = (.error e, after) ∧
        after.events = s.events ++ sent.map (fun item => .wrote item.1 item.2.frame)) := by
  induction items generalizing s with
  | nil => exact ⟨s, fun _ => rfl, .inl ⟨nofun, rfl, by simp⟩⟩
  | cons item rest ih =>
    obtain ⟨i, m⟩ := item
    by_cases hopen : IsOpen s.links i
    · obtain ⟨links, hsend, hunread, hopens⟩ := send_recorded hopen m
      obtain ⟨senders, hwatched⟩ : ∃ senders, recorded.watched.send i m s =
          (.ok (), ⟨s.events ++ [.wrote i m.frame], senders, links⟩) :=
        ⟨Function.update s.senders i ((s.senders i).send m).2, by simp only [Links.watched, hsend, send_eq]⟩
      have hstep : ∀ rest, recorded.watched.sendAll ((i, m) :: rest) s =
          recorded.watched.sendAll rest ⟨s.events ++ [.wrote i m.frame], senders, links⟩ := by
        intro rest
        simp only [Links.sendAll, hwatched]
      obtain ⟨after, hsame,
          ⟨hall, hrest, hevents⟩ | ⟨e, sent, stuck, later, rfl, hsent, hstuck, hrest, hevents⟩⟩ :=
        ih ⟨s.events ++ [.wrote i m.frame], senders, links⟩
      · refine ⟨after, fun j => (hsame j).trans (hunread j), .inl ⟨?_, (hstep rest).trans hrest, ?_⟩⟩
        · exact List.forall_mem_cons.2 ⟨hopen, fun x hx => (hopens _).1 (hall x hx)⟩
        · simp [hevents]
      · refine ⟨after, fun j => (hsame j).trans (hunread j), .inr ⟨e, (i, m) :: sent, stuck, later, rfl, ?_,
          fun h => hstuck ((hopens _).2 h), (hstep _).trans hrest, ?_⟩⟩
        · exact List.forall_mem_cons.2 ⟨hopen, fun x hx => (hopens _).1 (hsent x hx)⟩
        · simp [hevents]
    · obtain ⟨e, hsend⟩ := send_recorded_error hopen m
      exact ⟨s, fun _ => rfl, .inr ⟨e, [], (i, m), rest, rfl, nofun, hopen,
        by simp [Links.sendAll, Links.watched, hsend], by simp⟩⟩

/-! ## Calls -/

theorem recorded_isSeparate : recorded.IsSeparate := by
  intro i j octets peers hne
  simp [recorded, Ne.symm hne]

/-- `Asks call span m`: a message asks for the elements of a span, by their number or with the slice of the
gradient. -/
inductive Asks (call : Call) (span : Span) : Message → Prop
  | pull {length : UInt64} : call.gradient? = none →
    (call.buffer.length < UInt64.size → length.toNat = span.length) → Asks call span (.pull call.key.name length)
  | push {gradient : List Single} : call.gradient? = some gradient →
    (span.slice gradient).length = span.length → Asks call span (.push call.key.name (span.slice gradient))

theorem asks_message {call : Call} {span : Span} (hspan : span.stop ≤ call.buffer.length)
    (hgradient : ∀ gradient ∈ call.gradient?, gradient.length = call.buffer.length) :
    Asks call span (call.message span) := by
  obtain ⟨key, gradient?, buffer⟩ := call
  cases gradient? with
  | none =>
    refine .pull rfl fun hword => UInt64.toNat_ofNat_of_lt' ?_
    exact lt_of_le_of_lt (le_trans (Nat.sub_le _ _) hspan) hword
  | some gradient => exact .push rfl (Span.length_slice (hgradient gradient rfl ▸ hspan))

/-- What comes of the answers to a call: the payloads of the first servers on its route are accepted. -/
structure Accepts (call : Call) (route : List Span) (stream : Nat → List UInt8) (payloads : List (List Single))
    (result : Except TransportError Unit) (buffer : List Single) : Prop where
  ok_iff : result = .ok () ↔ ∀ span ∈ route, ∃ values, Delivers call.key span (stream span.server) values
  whole : result = .ok () → payloads.length = route.length ∧ buffer = payloads.flatten
  taken : List.Forall₂
    (fun span values => Delivers call.key span (stream span.server) values ∧ span.slice buffer = values)
    (route.take payloads.length) payloads
  stopped : ∀ span, route[payloads.length]? = some span →
    (∃ e, result = .error e) ∧ ∀ values, ¬ Delivers call.key span (stream span.server) values
  others : ∀ i, (∀ span ∈ route.take payloads.length, ¬ (span.start ≤ i ∧ i < span.stop)) →
    buffer[i]? = call.buffer[i]?

section Request

variable {peers : List Peer} {call : Call} {route : List Span} (before : Watched (List Peer))

/-- Without servers or with a gradient of another length a call fails early. -/
theorem call_early (minSlice : Nat)
    (h : peers = [] ∨ ∃ gradient ∈ call.gradient?, gradient.length ≠ call.buffer.length) :
    ∃ e, (transport recorded.watched (Spread.ofMinSlice peers.length minSlice)).call call before =
      ⟨.error e, call.buffer, before⟩ := by
  by_cases hgradient : ∀ gradient ∈ call.gradient?, gradient.length = call.buffer.length
  · obtain rfl | ⟨gradient, hmem, hne⟩ := h
    · rw [call_transport _ _ hgradient]
      exact ⟨.noServers, rfl⟩
    · exact absurd (hgradient gradient hmem) hne
  · push Not at hgradient
    obtain ⟨gradient, hmem, hne⟩ := hgradient
    exact ⟨_, call_transport_mismatch _ _ hmem hne before⟩

/-- If all servers on a route take messages, each of them is sent one, and the answers are read. -/
theorem request_open (htiles : Tiles route 0 call.buffer.length) (hnodup : (route.map (·.server)).Nodup)
    (hroute : route ≠ []) (hopen : ∀ span ∈ route, IsOpen before.links span.server) :
    let filled := request recorded.watched call.key route call.message call.buffer before
    ∃ payloads, Accepts call route (recorded.unread · before.links) payloads filled.result filled.buffer ∧
      filled.state.events = before.events ++ route.map (fun span => .wrote span.server (call.message span).frame) ++
        (route.take (payloads.length + 1)).map (.read ·.server) := by
  obtain ⟨after, hunread, ⟨-, hsent, hevents⟩ | ⟨e, sent, stuck, later, hitems, -, hstuck, -, -⟩⟩ :=
    sendAll_recorded (route.map fun span => (span.server, call.message span)) before
  · rw [request, if_neg (by simpa using hroute), hsent]
    obtain ⟨payloads, hgathers, hread, hothers⟩ :=
      gather_gathers recorded_isSeparate call.key htiles hnodup (le_refl call.buffer.length) after
    have hgathers : Gathers call.key (recorded.unread · before.links)
        (gather recorded.watched call.key route call.buffer after).buffer route payloads
        (gather recorded.watched call.key route call.buffer after).result :=
      hgathers.congr fun span _ => (hunread span.server).symm
    have hlength := length_gather recorded.watched call.key route call.buffer after
    refine ⟨payloads, ⟨hgathers.ok_iff, fun hok => ?_, hgathers.forall₂, hgathers.stopped, hothers⟩, ?_⟩
    · have hall := hgathers.ok_iff_length.1 hok
      exact ⟨hall, (hgathers.flatten_eq (hlength ▸ htiles) hall).symm⟩
    · rw [hread, hevents, List.map_map]
      rfl
  · have hmem : stuck ∈ route.map fun span => (span.server, call.message span) := by simp [hitems]
    obtain ⟨span, hspan, rfl⟩ := List.mem_map.1 hmem
    exact absurd (hopen span hspan) hstuck

/-- If a server on a route takes no message, those before it were sent theirs, and nothing is read. -/
theorem request_stuck (hopen : ¬ ∀ span ∈ route, IsOpen before.links span.server) :
    let filled := request recorded.watched call.key route call.message call.buffer before
    ∃ sent stuck later, route = sent ++ stuck :: later ∧ (∀ span ∈ sent, IsOpen before.links span.server) ∧
      ¬ IsOpen before.links stuck.server ∧ (∃ e, filled.result = .error e) ∧ filled.buffer = call.buffer ∧
      filled.state.events =
        before.events ++ sent.map fun span => .wrote span.server (call.message span).frame := by
  obtain ⟨after, -, ⟨hall, -, -⟩ | ⟨e, sent, stuck, later, hitems, hsome, hstuck, hsent, hevents⟩⟩ :=
    sendAll_recorded (route.map fun span => (span.server, call.message span)) before
  · exact absurd (fun span hspan => hall _ (List.mem_map_of_mem hspan)) hopen
  · obtain ⟨front, back, rfl, rfl, hback⟩ := List.map_eq_append_iff.1 hitems
    obtain ⟨span, rest, rfl, rfl, -⟩ := List.map_eq_cons_iff.1 hback
    refine ⟨front, span, rest, rfl, fun other hother => hsome _ (List.mem_map_of_mem hother), hstuck, ?_⟩
    rw [request, if_neg (by simp), hsent]
    refine ⟨⟨_, rfl⟩, rfl, ?_⟩
    rw [hevents, List.map_map]
    rfl

end Request

/-- Only answers that match are accepted, whatever the servers sent. A call without servers or with a gradient
of another length fails and writes nothing. Any other one writes one frame to each server on its route, in order
and before it reads anything, unless a server takes none: then it fails at once. It reads the servers in the same
order, up to the first whose next frame does not bring values for the key, as many as its span has elements, and
succeeds exactly if there is no such server. -/
theorem call_accepts (peers : List Peer) (minSlice : Nat) (call : Call) (events : List Event)
    (senders : Nat → Sender) :
    let spread := Spread.ofMinSlice peers.length minSlice
    let route := spread.route call.key call.buffer.length
    let before : Watched (List Peer) := ⟨events, senders, peers⟩
    let filled := (transport recorded.watched spread).call call before
    let wrote := fun span : Span => Event.wrote span.server (call.message span).frame
    unwatched filled = (transport recorded spread).call call peers ∧
    (peers = [] ∨ (∃ gradient ∈ call.gradient?, gradient.length ≠ call.buffer.length) →
      (∃ e, filled.result = .error e) ∧ filled.buffer = call.buffer ∧ filled.state = before) ∧
    (peers ≠ [] → (∀ gradient ∈ call.gradient?, gradient.length = call.buffer.length) →
      (Tiles route 0 call.buffer.length ∧ (∀ span ∈ route, span.server < peers.length) ∧
        (route.map (·.server)).Pairwise (· < ·)) ∧
      (∀ span ∈ route, Asks call span (call.message span)) ∧
      ((∀ span ∈ route, IsOpen peers span.server) → ∃ payloads,
        Accepts call route (recorded.unread · peers) payloads filled.result filled.buffer ∧
        filled.state.events =
          events ++ route.map wrote ++ (route.take (payloads.length + 1)).map (.read ·.server)) ∧
      ((¬ ∀ span ∈ route, IsOpen peers span.server) → ∃ sent stuck later,
        route = sent ++ stuck :: later ∧ (∀ span ∈ sent, IsOpen peers span.server) ∧
        ¬ IsOpen peers stuck.server ∧ (∃ e, filled.result = .error e) ∧ filled.buffer = call.buffer ∧
        filled.state.events = events ++ sent.map wrote)) := by
  intro spread route before filled wrote
  refine ⟨call_watched recorded spread call before, fun hearly => ?_, fun hpeers hgradient => ?_⟩
  · obtain ⟨e, hfilled⟩ : ∃ e, filled = ⟨.error e, call.buffer, before⟩ := call_early before minSlice hearly
    rw [hfilled]
    exact ⟨⟨e, rfl⟩, rfl, rfl⟩
  · have hn : 0 < spread.servers := List.length_pos_iff.2 hpeers
    have htiles : Tiles route 0 call.buffer.length := Spread.tiles_route hn _ _
    have hroute : route ≠ [] := Spread.route_ne_nil hn (Nat.le_max_right _ _) _ _
    have hfilled : filled = request recorded.watched call.key route call.message call.buffer before :=
      call_transport _ _ hgradient before
    rw [hfilled]
    refine ⟨⟨htiles, fun span hspan => Spread.server_lt_of_mem_route hspan, Spread.pairwise_servers_route _ _ _⟩,
      fun span hspan => asks_message (htiles.stop_le span hspan) hgradient, fun hopen => ?_, fun hopen => ?_⟩
    · exact request_open before htiles (Spread.nodup_servers_route _ _ _) hroute hopen
    · exact request_stuck before hopen

/-- Two servers, of which the second one sent values for another key. -/
def foreignSecond : List Peer :=
  [⟨(Message.params "w_0" [⟨0x3F800000⟩]).frame, [], none⟩,
    ⟨(Message.params "w_1" [⟨0x40000000⟩, ⟨0x40000000⟩]).frame, [], none⟩]

/-- A pull of three elements. -/
def pullThree : Call := ⟨⟨"w_0", .weight, 0⟩, none, [⟨0⟩, ⟨0⟩, ⟨0⟩]⟩

/-- The slice of the first server is filled, and the elements after it are as they were. -/
theorem call_accepts_foreign :
    let spread := Spread.ofMinSlice foreignSecond.length 1
    let filled := (transport recorded.watched spread).call pullThree ⟨[], fun _ => ⟨[]⟩, foreignSecond⟩
    filled.result = .error (.foreignKey 1 "w_1" "w_0") ∧ filled.buffer = [⟨0x3F800000⟩, ⟨0⟩, ⟨0⟩] ∧
      ∃ payloads, Accepts pullThree (spread.route pullThree.key 3) (recorded.unread · foreignSecond) payloads
        filled.result filled.buffer := by
  intro spread filled
  have hopen : ∀ span ∈ spread.route pullThree.key 3, IsOpen foreignSecond span.server := by
    have hroute : spread.route pullThree.key 3 = [⟨0, 0, 1⟩, ⟨1, 1, 3⟩] := by decide
    rw [hroute]
    intro span hspan
    rcases List.mem_pair.1 hspan with rfl | rfl
    · exact ⟨_, rfl, rfl⟩
    · exact ⟨_, rfl, rfl⟩
  obtain ⟨hplain, -, hcall⟩ := call_accepts foreignSecond 1 pullThree [] fun _ => ⟨[]⟩
  obtain ⟨-, -, hanswered, -⟩ := hcall (List.cons_ne_nil _ _) nofun
  obtain ⟨payloads, haccepts, -⟩ := hanswered hopen
  refine ⟨(congrArg Filled.result hplain).trans ?_, (congrArg Filled.buffer hplain).trans ?_, payloads, haccepts⟩
  · rfl
  · rfl

end ParamExchange.Network
