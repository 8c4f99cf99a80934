/-
Answers and the calls that they belong to. The servers here answer each message with one frame, in
order, with whatever message they like. A worker takes the frames of a server in the same order, so
a call that succeeded was answered by the right frames if no answer was left behind before it.
Answers are left behind by calls that fail: the messages of a call are all sent before the first
answer is read, and reading stops at the first answer that is not accepted. The error of such a call
names the server whose answer that was, and the answers of the servers after it stay unread.
-/
import ParamExchange.Proofs.Network.Calls
import ParamExchange.Proofs.Network.Spans
import ParamExchange.Proofs.Wire.Frames

namespace ParamExchange

open Wire

/-! ## What the error of a call tells -/

namespace TransportError

/-- The server whose answer was not accepted. -/
def server? : TransportError → Option Nat
  | foreignKey server _ _ => some server
  | foreignLength server _ _ _ => some server
  | rejected server _ _ => some server
  | unexpected server _ => some server
  | link _ => none
  | store _ => none
  | noServers => none
  | gradientLength _ _ _ => none

/-- Whether a call fails so before it sends anything. -/
def IsEarly : TransportError → Prop
  | noServers => True
  | gradientLength _ _ _ => True
  | _ => False

theorem IsEarly.server? {e : TransportError} (h : e.IsEarly) : e.server? = none := by
  cases e with
  | noServers => rfl
  | gradientLength => rfl
  | _ => exact h.elim

end TransportError

/-- A call that ended so left no answer of the server `i` behind: it ended well or before it sent
anything, it had one message at most or none for this server, or the answer that was not accepted
is that of a server which is not before `i`. -/
def Call.Settles (call : Call) (spread : Network.Spread) (i : Nat) : Except TransportError Unit → Prop
  | .ok () => True
  | .error e =>
    let route := spread.route call.key call.buffer.length
    e.IsEarly ∨ route.length ≤ 1 ∨ i ∉ route.map (·.server) ∨ ∃ j ∈ e.server?, i ≤ j

namespace Network

/-! ## Servers that answer every message -/

/-- A server as its worker sees it: the number of messages that were handed to it so far, and the
octets of its answers that were not read yet. -/
structure Line where
  handed : Nat
  unread : List UInt8

/-- What becomes of the `k`-th message that is handed to the server `i`: an answer, or it can not be
sent. -/
abbrev Reaction := Nat → Nat → Message → Except LinkError Message

/-- The frames of all answers are within the limit. -/
def Reaction.IsWellFormed (react : Reaction) : Prop :=
  ∀ i k m reply, react i k m = .ok reply → reply.body.length ≤ frameLimit

/-- Links to servers that answer each message with one frame, in order. -/
def answering (react : Reaction) : Links (Nat → Line) where
  send i m lines :=
    match react i (lines i).handed m with
    | .error e => (.error e, Function.update lines i { lines i with handed := (lines i).handed + 1 })
    | .ok reply =>
      (.ok (), Function.update lines i ⟨(lines i).handed + 1, (lines i).unread ++ reply.frame⟩)
  unread i lines := (lines i).unread
  setUnread i octets lines := Function.update lines i { lines i with unread := octets }

/-- The unread octets of each server are the frames of some answers, in order. -/
def Holds (lines : Nat → Line) (queue : Nat → List Message) : Prop :=
  ∀ i, (lines i).unread = (queue i).flatMap Message.frame ∧ ∀ m ∈ queue i, m.body.length ≤ frameLimit

namespace Holds

variable {react : Reaction} {lines : Nat → Line} {queue : Nat → List Message} {i : Nat}

/-- The line of one server is changed. -/
theorem update (h : Holds lines queue) {line : Line} {ms : List Message}
    (hunread : line.unread = ms.flatMap Message.frame) (hfit : ∀ m ∈ ms, m.body.length ≤ frameLimit) :
    Holds (Function.update lines i line) (Function.update queue i ms) := by
  intro j
  by_cases hij : j = i
  · subst hij
    rw [Function.update_self, Function.update_self]
    exact ⟨hunread, hfit⟩
  · rw [Function.update_of_ne hij, Function.update_of_ne hij]
    exact h j

/-- The first answer of a queue is read. -/
theorem receive (react : Reaction) (h : Holds lines queue) {m : Message} {rest : List Message}
    (hi : queue i = m :: rest) :
    ∃ next, (answering react).receive i lines = (.ok m, next) ∧ Holds next (Function.update queue i rest) := by
  obtain ⟨hunread, hfit⟩ := h i
  rw [hi] at hunread hfit
  have hreceive : Wire.receive (lines i).unread = (.ok m, rest.flatMap Message.frame) := by
    rw [hunread, List.flatMap_cons]
    exact receive_message (hfit m (List.mem_cons_self ..)) _
  refine ⟨Function.update lines i { lines i with unread := rest.flatMap Message.frame }, ?_,
    h.update rfl fun other hother => hfit other (List.mem_cons_of_mem _ hother)⟩
  unfold Links.receive answering
  simp only [hreceive]

/-- A message is answered at the end of the queue, or it can not be sent. -/
theorem send (h : Holds lines queue) (hreact : react.IsWellFormed) (i : Nat) (m : Message) :
    (∃ reply next, react i (lines i).handed m = .ok reply ∧ (answering react).send i m lines = (.ok (), next) ∧
      (∀ j, j ≠ i → next j = lines j) ∧ Holds next (Function.update queue i (queue i ++ [reply]))) ∨
    ∃ e next, (answering react).send i m lines = (.error e, next) ∧ Holds next queue := by
  obtain ⟨hunread, hfit⟩ := h i
  unfold answering
  simp only
  rcases hr : react i (lines i).handed m with e | reply
  · refine .inr ⟨e, _, rfl, ?_⟩
    have hsame : Holds (Function.update lines i { lines i with handed := (lines i).handed + 1 })
        (Function.update queue i (queue i)) := h.update hunread hfit
    rwa [Function.update_eq_self] at hsame
  · refine .inl ⟨reply, _, rfl, rfl, fun j hj => Function.update_of_ne hj _ _, h.update ?_ ?_⟩
    · rw [List.flatMap_append, List.flatMap_singleton, hunread]
    · intro other hother
      rcases List.mem_append.1 hother with hother | hother
      · exact hfit other hother
      · rw [List.mem_singleton.1 hother]
        exact hreact i _ m reply hr

/-- The messages of a route are all answered, each at the end of the queue of its server, or one of
them can not be sent; a single message that can not be sent leaves the queues as they were. -/
theorem sendAll (message : Span → Message) {route : List Span} (hroute : (route.map (·.server)).Nodup)
    (hreact : react.IsWellFormed) (h : Holds lines queue) :
    (∃ next after, (answering react).sendAll (route.map fun span => (span.server, message span)) lines =
        (.ok (), next) ∧ Holds next after ∧
      (∀ span ∈ route, ∃ reply, react span.server (lines span.server).handed (message span) = .ok reply ∧
        after span.server = queue span.server ++ [reply]) ∧
      ∀ i, i ∉ route.map (·.server) → after i = queue i) ∨
    ∃ e next after, (answering react).sendAll (route.map fun span => (span.server, message span)) lines =
        (.error e, next) ∧ Holds next after ∧
      ∀ i, i ∉ route.map (·.server) ∨ route.length ≤ 1 → after i = queue i := by
  induction route generalizing lines queue with
  | nil => exact .inl ⟨lines, queue, rfl, h, nofun, fun _ _ => rfl⟩
  | cons span route ih =>
    rw [List.map_cons, List.nodup_cons] at hroute
    obtain ⟨hfirst, hroute⟩ := hroute
    rw [List.map_cons, Links.sendAll]
    obtain ⟨reply, between, hreply, hsend, hothers, hbetween⟩ | ⟨e, next, hsend, hnext⟩ :=
      h.send hreact span.server (message span)
    · have hne : ∀ other ∈ route, other.server ≠ span.server := fun other hother heq =>
        hfirst (heq ▸ List.mem_map_of_mem hother)
      rw [hsend]
      obtain ⟨next, after, hrest, hnext, hreplies, hkept⟩ | ⟨e, next, after, hrest, hnext, hkept⟩ :=
        ih hroute hbetween
      · refine .inl ⟨next, after, hrest, hnext, fun other hother => ?_, fun i hi => ?_⟩
        · rcases List.mem_cons.1 hother with rfl | hother
          · exact ⟨reply, hreply, by rw [hkept _ hfirst, Function.update_self]⟩
          · obtain ⟨answer, hanswer, hafter⟩ := hreplies other hother
            rw [hothers _ (hne other hother)] at hanswer
            rw [Function.update_of_ne (hne other hother)] at hafter
            exact ⟨answer, hanswer, hafter⟩
        · rw [List.map_cons, List.mem_cons, not_or] at hi
          rw [hkept i hi.2, Function.update_of_ne hi.1]
      · refine .inr ⟨e, next, after, hrest, hnext, fun i hi => ?_⟩
        rcases hi with hi | hlen
        · rw [List.map_cons, List.mem_cons, not_or] at hi
          rw [hkept i (.inl hi.2), Function.update_of_ne hi.1]
        · -- there was one message only, and it was sent
          obtain rfl : route = [] := List.length_eq_zero_iff.1 (by simpa using hlen)
          cases hrest
    · rw [hsend]
      exact .inr ⟨e, next, queue, rfl, hnext, fun _ _ => rfl⟩

end Holds

/-! ## Reading the answers -/

theorem server?_of_accepted_error {key : Key} {span : Span} {answer : Message} {e : TransportError}
    (h : accepted key span answer = .error e) : e.server? = some span.server := by
  cases answer with
  | params got sent =>
    simp only [accepted] at h
    split at h
    · cases h
      rfl
    · split at h
      · cases h
        rfl
      · cases h
  | _ =>
    cases h
    rfl

/-- What lies before the spans of a route is not written. -/
theorem take_gather {σ : Type} (links : Links σ) (key : Key) {route : List Span} {a b : Nat}
    (h : Tiles route a b) {buffer : List Single} (hb : b ≤ buffer.length) (s : σ) :
    (gather links key route buffer s).buffer.take a = buffer.take a := by
  induction h generalizing buffer s with
  | nil => rfl
  | @cons span rest b hspan hrest ih =>
    have hle := hrest.le
    rw [gather]
    split
    · rfl
    · split
      · rfl
      · rename_i values haccepted
        obtain ⟨-, hlen⟩ := accepted_ok haccepted
        rw [Span.length] at hlen
        rw [← min_eq_left hspan, ← List.take_take, ih (by rwa [length_overwrite]), List.take_take,
          min_eq_left hspan, take_overwrite (by omega)]

/-- The answers of the servers on a route were read, one of each server: all of them, which fill the
slices of their servers, or those up to the first one that was not accepted. -/
structure Reads (key : Key) (route : List Span) (queue after : Nat → List Message)
    (result : Except TransportError Unit) (buffer : List Single) : Prop where
  others : ∀ i, i ∉ route.map (·.server) → after i = queue i
  ok : result = .ok () → ∀ span ∈ route, queue span.server = .params key.name (span.slice buffer) :: after span.server
  error : ∀ e, result = .error e → ∃ j ∈ e.server?, j ∈ route.map (·.server) ∧ ∀ span ∈ route,
    after span.server = if span.server ≤ j then (queue span.server).tail else queue span.server

namespace Reads

variable {key : Key} {span : Span} {route : List Span} {queue after : Nat → List Message} {buffer : List Single}

/-- The first answer is not accepted, and the servers after it are not read. -/
theorem stop {answer : Message} {left : List Message} {e : TransportError}
    (hlater : ∀ other ∈ route, span.server < other.server) (hanswer : queue span.server = answer :: left)
    (haccepted : accepted key span answer = .error e) :
    Reads key (span :: route) queue (Function.update queue span.server left) (.error e) buffer := by
  refine ⟨fun i hi => ?_, nofun, fun e' he => ?_⟩
  · rw [List.map_cons, List.mem_cons, not_or] at hi
    exact Function.update_of_ne hi.1 _ _
  · cases he
    refine ⟨span.server, server?_of_accepted_error haccepted, List.mem_cons_self .., fun other hother => ?_⟩
    rcases List.mem_cons.1 hother with rfl | hother
    · rw [if_pos (le_refl _), Function.update_self, hanswer, List.tail_cons]
    · have hlt := hlater other hother
      rw [if_neg (Nat.not_le.2 hlt), Function.update_of_ne (Nat.ne_of_gt hlt)]

/-- The first answer is accepted, and stands in its slice in the end. -/
theorem cons {left : List Message} {result : Except TransportError Unit}
    (hlater : ∀ other ∈ route, span.server < other.server)
    (hanswer : queue span.server = .params key.name (span.slice buffer) :: left)
    (h : Reads key route (Function.update queue span.server left) after result buffer) :
    Reads key (span :: route) queue after result buffer := by
  have hne : ∀ other ∈ route, other.server ≠ span.server := fun other hother => Nat.ne_of_gt (hlater other hother)
  have hself : after span.server = left := by
    have hoff : span.server ∉ route.map (·.server) := fun hmem => by
      obtain ⟨other, hother, heq⟩ := List.mem_map.1 hmem
      exact hne other hother heq
    rw [h.others _ hoff, Function.update_self]
  refine ⟨fun i hi => ?_, fun hresult other hother => ?_, fun e he => ?_⟩
  · rw [List.map_cons, List.mem_cons, not_or] at hi
    rw [h.others i hi.2, Function.update_of_ne hi.1]
  · rcases List.mem_cons.1 hother with rfl | hother
    · rw [hself, hanswer]
    · rw [← h.ok hresult other hother, Function.update_of_ne (hne other hother)]
  · obtain ⟨j, hj, hmem, hread⟩ := h.error e he
    refine ⟨j, hj, List.mem_cons_of_mem _ hmem, fun other hother => ?_⟩
    rcases List.mem_cons.1 hother with rfl | hother
    · obtain ⟨last, hlast, rfl⟩ := List.mem_map.1 hmem
      rw [if_pos (le_of_lt (hlater last hlast)), hself, hanswer, List.tail_cons]
    · rw [hread other hother, Function.update_of_ne (hne other hother)]

/-- After a call that settles for a server, its answer was read. -/
theorem tail_of_settles {call : Call} {spread : Spread} {result : Except TransportError Unit}
    (h : Reads key (spread.route call.key call.buffer.length) queue after result buffer)
    (hspan : span ∈ spread.route call.key call.buffer.length) (hsettles : call.Settles spread span.server result) :
    after span.server = (queue span.server).tail := by
  rcases result with e | _
  · obtain ⟨j, hj, hjroute, hread⟩ := h.error e rfl
    refine (hread span hspan).trans (if_pos ?_)
    rcases hsettles with hearly | hlen | hoff | ⟨k, hk, hle⟩
    · rw [hearly.server?] at hj
      cases hj
    · obtain ⟨only, honly⟩ : ∃ only, spread.route call.key call.buffer.length = [only] :=
        List.length_eq_one_iff.1 (le_antisymm hlen (List.length_pos_of_mem hspan))
      rw [honly] at hspan hjroute
      rw [List.mem_singleton.1 hspan, List.mem_singleton.1 hjroute]
    · exact absurd (List.mem_map_of_mem hspan) hoff
    · exact Option.mem_unique hk hj ▸ hle
  · rw [h.ok rfl span hspan, List.tail_cons]

end Reads

/-- The answers of the servers on a route are read in order. -/
theorem Holds.gather (react : Reaction) {lines : Nat → Line} {queue : Nat → List Message} (key : Key)
    {route : List Span} {a b : Nat} (htiles : Tiles route a b)
    (hroute : (route.map (·.server)).Pairwise (· < ·)) (h : Holds lines queue)
    (hqueue : ∀ span ∈ route, queue span.server ≠ []) {buffer : List Single} (hb : b ≤ buffer.length) :
    let filled := Network.gather (answering react) key route buffer lines
    ∃ after, Holds filled.state after ∧ Reads key route queue after filled.result filled.buffer := by
  induction htiles generalizing lines queue buffer with
  | nil => exact ⟨queue, h, fun _ _ => rfl, nofun, nofun⟩
  | @cons span rest b hspan hrest ih =>
    rw [List.map_cons, List.pairwise_cons] at hroute
    obtain ⟨hfirst, hroute⟩ := hroute
    have hlater : ∀ other ∈ rest, span.server < other.server := fun other hother =>
      hfirst _ (List.mem_map_of_mem hother)
    obtain ⟨answer, left, hanswer⟩ := List.exists_cons_of_ne_nil (hqueue span (List.mem_cons_self ..))
    obtain ⟨next, hreceive, hnext⟩ := h.receive react hanswer
    rw [Network.gather, hreceive]
    simp only
    rcases haccepted : accepted key span answer with e | values
    · exact ⟨_, hnext, .stop hlater hanswer haccepted⟩
    · obtain ⟨rfl, hlen⟩ := accepted_ok haccepted
      have hrestQueue : ∀ other ∈ rest, Function.update queue span.server left other.server ≠ [] :=
        fun other hother => by
          rw [Function.update_of_ne (Nat.ne_of_gt (hlater other hother))]
          exact hqueue other (List.mem_cons_of_mem _ hother)
      have hroom : b ≤ (overwrite span.start values buffer).length := by rwa [length_overwrite]
      obtain ⟨after, hafter, hreads⟩ := ih hroute hnext hrestQueue hroom
      refine ⟨after, hafter, hreads.cons hlater ?_⟩
      -- the spans after it leave its slice as it is
      have hslice := slice_overwrite hlen hspan (show span.stop ≤ buffer.length from le_trans hrest.le hb)
      rw [hanswer, Span.slice_eq_drop, take_gather _ _ hrest hroom, ← Span.slice_eq_drop, hslice]

/-! ## Calls -/

/-- What a call does to the answers that were not read. If it succeeds, the first unread answer of
each server on its route fills the slice of this server. If a server had no unread answer before, it
has none after a call that settles for it; after a call whose error names an earlier server, the
answer of the server to that call is still unread. -/
structure Leaves (react : Reaction) (spread : Spread) (call : Call) (lines : Nat → Line)
    (queue after : Nat → List Message) (result : Except TransportError Unit) (buffer : List Single) : Prop where
  read : result = .ok () → ∀ span ∈ spread.route call.key call.buffer.length,
    ∃ reply, react span.server (lines span.server).handed (call.message span) = .ok reply ∧
      queue span.server ++ [reply] = .params call.key.name (span.slice buffer) :: after span.server
  settled : ∀ i, queue i = [] → call.Settles spread i result → after i = []
  left : ∀ e, result = .error e → ∀ j ∈ e.server?, ∀ span ∈ spread.route call.key call.buffer.length,
    j < span.server → ∃ reply, react span.server (lines span.server).handed (call.message span) = .ok reply ∧
      after span.server = queue span.server ++ [reply]

namespace Leaves

variable {react : Reaction} {spread : Spread} {call : Call} {lines : Nat → Line}
  {queue answered after : Nat → List Message} {result : Except TransportError Unit} {buffer : List Single}

/-- A call that fails before it sends anything leaves all answers as they were. -/
theorem unsent {e : TransportError} (he : e.server? = none) :
    Leaves react spread call lines queue queue (.error e) buffer := by
  refine ⟨nofun, fun _ hi _ => hi, fun e' he' j hj => ?_⟩
  cases he'
  rw [he] at hj
  cases hj

/-- A call of which some messages were answered, and no answer is read. -/
theorem stuck {e : LinkError} (hkept : ∀ i, i ∉ (spread.route call.key call.buffer.length).map (·.server) ∨
      (spread.route call.key call.buffer.length).length ≤ 1 → after i = queue i) :
    Leaves react spread call lines queue after (.error (.link e)) buffer := by
  refine ⟨nofun, fun i hi hsettles => ?_, fun e' he j hj => by cases he; cases hj⟩
  rcases hsettles with hearly | hlen | hmem | ⟨j, hj, -⟩
  · exact hearly.elim
  · rw [hkept i (.inr hlen), hi]
  · rw [hkept i (.inl hmem), hi]
  · cases hj

/-- A call all of whose messages were answered, and whose answers are read. -/
theorem of_reads (hreplies : ∀ span ∈ spread.route call.key call.buffer.length,
      ∃ reply, react span.server (lines span.server).handed (call.message span) = .ok reply ∧
        answered span.server = queue span.server ++ [reply])
    (hothers : ∀ i, i ∉ (spread.route call.key call.buffer.length).map (·.server) → answered i = queue i)
    (h : Reads call.key (spread.route call.key call.buffer.length) answered after result buffer) :
    Leaves react spread call lines queue after result buffer := by
  refine ⟨fun hresult span hspan => ?_, fun i hi hsettles => ?_, fun e he j hj span hspan hlt => ?_⟩
  · obtain ⟨reply, hanswer, hreply⟩ := hreplies span hspan
    exact ⟨reply, hanswer, by rw [← hreply, h.ok hresult span hspan]⟩
  · by_cases hmem : i ∈ (spread.route call.key call.buffer.length).map (·.server)
    · -- one answer came from this server, and it was read
      obtain ⟨span, hspan, rfl⟩ := List.mem_map.1 hmem
      obtain ⟨reply, -, hreply⟩ := hreplies span hspan
      rw [h.tail_of_settles hspan hsettles, hreply, hi, List.nil_append, List.tail_cons]
    · rw [h.others i hmem, hothers i hmem, hi]
  · -- its answer comes after the one that is not accepted
    obtain ⟨k, hk, -, hread⟩ := h.error e he
    obtain ⟨reply, hanswer, hreply⟩ := hreplies span hspan
    refine ⟨reply, hanswer, ?_⟩
    rw [hread span hspan, if_neg (by rw [Option.mem_unique hk hj]; omega), hreply]

end Leaves

/-- Every call leaves behind what is told of calls. -/
theorem Holds.call {react : Reaction} (hreact : react.IsWellFormed) {spread : Spread}
    (hn : 0 < spread.servers) {lines : Nat → Line} {queue : Nat → List Message} (h : Holds lines queue)
    (call : Call) :
    let filled := (transport (answering react) spread).call call lines
    ∃ after, Holds filled.state after ∧
      Leaves react spread call lines queue after filled.result filled.buffer := by
  by_cases hgradient : ∀ gradient ∈ call.gradient?, gradient.length = call.buffer.length
  swap
  · obtain ⟨gradient, hmem, hne⟩ : ∃ gradient ∈ call.gradient?, gradient.length ≠ call.buffer.length := by
      push Not at hgradient
      exact hgradient
    rw [call_transport_mismatch _ _ hmem hne]
    exact ⟨queue, h, .unsent rfl⟩
  have hdistinct := Spread.nodup_servers_route spread call.key call.buffer.length
  rw [call_transport _ _ hgradient, request]
  by_cases hempty : (spread.route call.key call.buffer.length).isEmpty = true
  · rw [if_pos hempty]
    exact ⟨queue, h, .unsent rfl⟩
  rw [if_neg hempty]
  obtain ⟨between, answered, hsend, hbetween, hreplies, hothers⟩ | ⟨e, next, after, hsend, hnext, hkept⟩ :=
    h.sendAll call.message hdistinct hreact
  · rw [hsend]
    simp only
    have hqueue : ∀ span ∈ spread.route call.key call.buffer.length, answered span.server ≠ [] := by
      intro span hspan hnil
      obtain ⟨reply, -, hreply⟩ := hreplies span hspan
      exact List.append_ne_nil_of_right_ne_nil _ (List.cons_ne_nil reply []) (hreply ▸ hnil)
    obtain ⟨after, hafter, hreads⟩ := hbetween.gather react call.key
      (Spread.tiles_route hn call.key call.buffer.length)
      (Spread.pairwise_servers_route spread call.key call.buffer.length) hqueue (le_refl call.buffer.length)
    exact ⟨after, hafter, .of_reads hreplies hothers hreads⟩
  · rw [hsend]
    exact ⟨after, hnext, .stuck hkept⟩

/-- After any calls, a server for which each of them settles has no answer left. -/
theorem Holds.callAll {react : Reaction} (hreact : react.IsWellFormed) {spread : Spread}
    (hn : 0 < spread.servers) {lines : Nat → Line} {queue : Nat → List Message} (h : Holds lines queue)
    (calls : List Call) :
    let run := (transport (answering react) spread).callAll calls lines
    ∃ after, Holds run.2 after ∧ ∀ i, queue i = [] →
      (∀ ended ∈ calls.zip run.1, ended.1.Settles spread i ended.2.1) → after i = [] := by
  induction calls generalizing lines queue with
  | nil => exact ⟨queue, h, fun _ hi _ => hi⟩
  | cons call calls ih =>
    obtain ⟨between, hbetween, hleaves⟩ := h.call hreact hn call
    obtain ⟨after, hafter, hrest⟩ := ih hbetween
    refine ⟨after, hafter, fun i hi hall => hrest i ?_ fun ended hended => ?_⟩
    · exact hleaves.settled i hi (hall _ (List.mem_cons_self ..))
    · exact hall ended (List.mem_cons_of_mem _ hended)

theorem Holds.of_unread_nil {lines : Nat → Line} (h : ∀ i, (lines i).unread = []) :
    Holds lines fun _ => [] :=
  fun i => ⟨h i, nofun⟩

/-! ## Answers and their calls -/

/-- The answers of a server belong to the calls that they are read in, as long as no call left one
of them behind. Against servers that answer each message with one frame, in order, a call that
succeeds after any others has filled the slice of every server for which the others settle with the
values of its answer to the message of this very call. -/
theorem callAll_matched (react : Reaction) (hreact : react.IsWellFormed) (spread : Spread)
    (hn : 0 < spread.servers) (lines : Nat → Line) (hlines : ∀ i, (lines i).unread = [])
    (before : List Call) (call : Call) :
    let t := transport (answering react) spread
    let run := t.callAll before lines
    let filled := t.call call run.2
    filled.result = .ok () → ∀ span ∈ spread.route call.key call.buffer.length,
      (∀ ended ∈ before.zip run.1, ended.1.Settles spread span.server ended.2.1) →
      react span.server (run.2 span.server).handed (call.message span) =
        .ok (.params call.key.name (span.slice filled.buffer)) := by
  intro t run filled hresult span hspan hsettles
  obtain ⟨queue, hqueue, hsettled⟩ := (Holds.of_unread_nil hlines).callAll hreact hn before
  obtain ⟨_, -, hleaves⟩ := hqueue.call hreact hn call
  obtain ⟨reply, hanswer, hreply⟩ := hleaves.read hresult span hspan
  rw [hsettled _ rfl hsettles, List.nil_append] at hreply
  rw [hanswer, List.head_eq_of_cons_eq hreply]

/-- A call that leaves answers behind spoils the next one. If the error of a call names a server,
and the call after it succeeds, then the slices of the servers behind the named one that both calls
ask were filled with the answers to the call that failed. -/
theorem callAll_mismatched (react : Reaction) (hreact : react.IsWellFormed) (spread : Spread)
    (hn : 0 < spread.servers) (lines : Nat → Line) (hlines : ∀ i, (lines i).unread = [])
    (before : List Call) (failed call : Call) :
    let t := transport (answering react) spread
    let run := t.callAll before lines
    let first := t.call failed run.2
    let second := t.call call first.state
    ∀ e, first.result = .error e → second.result = .ok () →
      ∀ j ∈ e.server?, ∀ asked ∈ spread.route failed.key failed.buffer.length,
      ∀ span ∈ spread.route call.key call.buffer.length, asked.server = span.server → j < span.server →
      (∀ ended ∈ before.zip run.1, ended.1.Settles spread span.server ended.2.1) →
      react span.server (run.2 span.server).handed (failed.message asked) =
        .ok (.params call.key.name (span.slice second.buffer)) := by
  intro t run first second e he hresult j hj asked hasked span hspan hserver hlt hsettles
  obtain ⟨queue, hqueue, hsettled⟩ := (Holds.of_unread_nil hlines).callAll hreact hn before
  obtain ⟨between, hbetween, hleaves⟩ := hqueue.call hreact hn failed
  obtain ⟨stale, hstale, hkept⟩ := hleaves.left e he j hj asked hasked (hserver ▸ hlt)
  obtain ⟨_, -, hlast⟩ := hbetween.call hreact hn call
  obtain ⟨reply, -, hreply⟩ := hlast.read hresult span hspan
  rw [hserver] at hstale hkept
  rw [hkept, hsettled _ rfl hsettles, List.nil_append, List.singleton_append] at hreply
  rw [hstale, List.head_eq_of_cons_eq hreply]

/-- Two servers that answer with one element each, a new one each time, but the first server
rejects the first message. -/
def busyAtFirst : Reaction := fun i k _ =>
  match i, k with
  | 0, 0 => .ok (.error "busy")
  | 0, _ => .ok (.params "w_0" [⟨0x3F800000⟩])
  | _, 0 => .ok (.params "w_0" [⟨0x40000000⟩])
  | _, _ => .ok (.params "w_0" [⟨0x40400000⟩])

theorem busyAtFirst_isWellFormed : busyAtFirst.IsWellFormed := by
  intro i k m reply h
  unfold busyAtFirst at h
  split at h <;> cases h <;> decide

/-- After a call was rejected by the first server, its repetition gets the slice of the first server
from the answer to it. -/
theorem callAll_matched_first :
    let call : Call := ⟨⟨"w_0", .weight, 0⟩, none, [0, 0]⟩
    let spread : Spread := ⟨2, 1⟩
    let t := transport (answering busyAtFirst) spread
    let run := t.callAll [call] fun _ => ⟨0, []⟩
    let filled := t.call call run.2
    run.1 = [(.error (.rejected 0 "w_0" "busy"), [0, 0])] ∧ filled.result = .ok () ∧
      busyAtFirst 0 (run.2 0).handed (call.message ⟨0, 0, 1⟩) =
        .ok (.params "w_0" ((⟨0, 0, 1⟩ : Span).slice filled.buffer)) := by
  have hsettles : Call.Settles ⟨⟨"w_0", .weight, 0⟩, none, [0, 0]⟩ ⟨2, 1⟩ 0
      (.error (.rejected 0 "w_0" "busy")) := .inr (.inr (.inr ⟨0, rfl, le_refl 0⟩))
  refine ⟨rfl, rfl, ?_⟩
  refine callAll_matched busyAtFirst busyAtFirst_isWellFormed ⟨2, 1⟩ (by decide) (fun _ => ⟨0, []⟩)
    (fun _ => rfl) [⟨⟨"w_0", .weight, 0⟩, none, [0, 0]⟩] ⟨⟨"w_0", .weight, 0⟩, none, [0, 0]⟩ rfl
    ⟨0, 0, 1⟩ (by decide) fun ended hended => ?_
  obtain rfl := List.mem_singleton.1 hended
  exact hsettles

/-- But it gets the slice of the second server from the answer to the call that was rejected. -/
theorem callAll_mismatched_second :
    let call : Call := ⟨⟨"w_0", .weight, 0⟩, none, [0, 0]⟩
    let spread : Spread := ⟨2, 1⟩
    let t := transport (answering busyAtFirst) spread
    let first := t.call call fun _ => ⟨0, []⟩
    let second := t.call call first.state
    busyAtFirst.IsWellFormed ∧ first.result = .error (.rejected 0 "w_0" "busy") ∧ second.result = .ok () ∧
      (⟨1, 1, 2⟩ : Span) ∈ spread.route call.key 2 ∧
      (⟨1, 1, 2⟩ : Span).slice second.buffer = [⟨0x40000000⟩] ∧
      busyAtFirst 1 (first.state 1).handed (call.message ⟨1, 1, 2⟩) = .ok (.params "w_0" [⟨0x40400000⟩]) :=
  ⟨busyAtFirst_isWellFormed, rfl, rfl, by decide, rfl, rfl⟩

end Network

end ParamExchange
