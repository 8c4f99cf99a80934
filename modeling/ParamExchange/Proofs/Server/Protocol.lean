/-
The protocol of a session, written down without the server loop, its buffers or the pieces in which
a stream comes:

- `Answers`: the messages after which a session goes on, what is answered to them and what they do
  to the server;
- `Refuses`: the messages that end a session with a diagnostic;
- `Run`: the whole session, up to a goodbye, a refusal or the end of the messages.

A connection does exactly what its run says: it sends the frames of the answers and nothing else,
leaves the server as the run does, and stands as the run ends.
-/
import ParamExchange.Proofs.Store.Requests
import ParamExchange.Proofs.Wire.Pieces
import ParamExchange.Server.Service

namespace ParamExchange

open Wire

/-! ## The protocol -/

/-- Every answer of `n` numbers for a key fits in a frame. -/
def AnswerFits (key : String) (n : Nat) : Prop :=
  ∀ values : List Single, values.length = n → (Message.params key values).body.length ≤ frameLimit

/-- A buffer of zeros. -/
def zeros (n : Nat) : List Single := List.replicate n 0

/-- `Answers server m replies after`: the session goes on after `m`. -/
inductive Answers : Server → Message → List Message → Server → Prop
  | connect {server : Server} : Answers server (.control .connect) [] server
  | firstHello {server : Server} {identity : Identity} :
      server.rankSize = none →
      Answers server (.control (.hello identity)) [] { server with rankSize := some identity.rankSize }
  | hello {server : Server} {identity : Identity} :
      server.rankSize = some identity.rankSize →
      Answers server (.control (.hello identity)) [] server
  | pull {server : Server} {key : String} {length : UInt64} {store : Store Single} {values : List Single} :
      AnswerFits key length.toNat →
      (server.store.pull key (zeros length.toNat)).result = .ok () →
      (server.store.pull key (zeros length.toNat)).state = store →
      store.value? key = some values → values.length = length.toNat →
      Answers server (.pull key length) [.params key values] { server with store := store }
  | push {server : Server} {key : String} {gradient : List Single} {store : Store Single}
      {values : List Single} :
      (server.store.push key gradient (zeros gradient.length)).result = .ok () →
      (server.store.push key gradient (zeros gradient.length)).state = store →
      store.value? key = some values → values.length = gradient.length →
      Answers server (.push key gradient) [.params key values] { server with store := store }

/-- `Refuses server m r after`: the session ends with the refusal of `m`. -/
inductive Refuses : Server → Message → Refusal → Server → Prop
  | rankSize {server : Server} {identity : Identity} {expected : UInt64} :
      server.rankSize = some expected → expected ≠ identity.rankSize →
      Refuses server (.control (.hello identity)) (.rankSizeChanged expected identity.rankSize) server
  | tooLarge {server : Server} {key : String} {length : UInt64} :
      ¬ AnswerFits key length.toNat →
      Refuses server (.pull key length) (.pullTooLarge key length) server
  | pull {server : Server} {key : String} {length : UInt64} {store : Store Single} {e : StoreError} :
      AnswerFits key length.toNat →
      (server.store.pull key (zeros length.toNat)).result = .error e →
      (server.store.pull key (zeros length.toNat)).state = store →
      Refuses server (.pull key length) (.store e) { server with store := store }
  | push {server : Server} {key : String} {gradient : List Single} {store : Store Single}
      {e : StoreError} :
      (server.store.push key gradient (zeros gradient.length)).result = .error e →
      (server.store.push key gradient (zeros gradient.length)).state = store →
      Refuses server (.push key gradient) (.store e) { server with store := store }
  | params {server : Server} {key : String} {values : List Single} :
      Refuses server (.params key values) (.unexpectedMessage "data/params") server
  | error {server : Server} {text : String} :
      Refuses server (.error text) (.unexpectedMessage "err") server

/-- `Run messages e server replies after standing`: the session of a server with these messages,
which are all that come before the failure `e` of the stream. -/
inductive Run : List Message → LinkError → Server → List Message → Server → Standing → Prop
  | ended {e : LinkError} {server : Server} : Run [] e server [] server (.failed (.link e))
  | goodbye {rest : List Message} {e : LinkError} {server : Server} :
      Run (.control .disconnect :: rest) e server [.control .disconnect] server .over
  | refused {m : Message} {rest : List Message} {e : LinkError} {server after : Server} {r : Refusal}
      {text : String} :
      Refuses server m r after → (ServerError.refused r).message? = some text →
      Run (m :: rest) e server [.error text] after (.failed (.refused r))
  | answered {m : Message} {rest now later : List Message} {e : LinkError}
      {server between after : Server} {standing : Standing} :
      Answers server m now between → Run rest e between later after standing →
      Run (m :: rest) e server (now ++ later) after standing

/-! ## Answers that fit -/

theorem length_body_params (key : String) (values : List Single) :
    (Message.params key values).body.length =
      8 + ((Text.Utf8.encode key).length + padding (Text.Utf8.encode key).length) + 4 * values.length := by
  have hpad : padding (8 + 4 + (4 + (Text.Utf8.encode key).length)) = padding (Text.Utf8.encode key).length := by
    rw [← Nat.add_assoc, padding_add (by decide)]
  simp only [Message.body, Message.encode, Message.head, Message.tail?, Option.getD_some, List.length_append,
    length_big, length_writeKey, length_littles, lengthWidth, hpad]
  omega

theorem answerFits_iff (key : String) (n : Nat) :
    AnswerFits key n ↔
      8 + ((Text.Utf8.encode key).length + padding (Text.Utf8.encode key).length) + 4 * n ≤ frameLimit := by
  constructor
  · intro h
    have hbody := h (zeros n) List.length_replicate
    rwa [length_body_params, zeros, List.length_replicate] at hbody
  · intro h values hv
    rw [length_body_params, hv]
    exact h

instance (key : String) (n : Nat) : Decidable (AnswerFits key n) :=
  decidable_of_iff _ (answerFits_iff key n).symm

/-- The guard of a pull accepts exactly the lengths whose answers fit. -/
theorem fitsInFrame_iff (key : String) (length : UInt64) :
    fitsInFrame key length = true ↔ AnswerFits key length.toNat := by
  rw [answerFits_iff]
  have hlim : frameLimit < UInt64.size := by decide
  unfold fitsInFrame product? sum?
  simp only
  split
  · rename_i hp
    rw [Option.bind_some]
    split
    · rw [Option.any_some, decide_eq_true_iff]; omega
    · simp only [Option.any_none, Bool.false_eq_true, false_iff]; omega
  · simp only [Option.bind_none, Option.any_none, Bool.false_eq_true, false_iff]; omega

/-! ## One message -/

namespace Session

theorem length_resized (s : Session) (n : Nat) : (s.resized n).length = (zeros n).length := by
  simp only [resized, zeros, List.length_append, List.length_take, List.length_replicate]
  omega

/-- An answer holds what the store has, whatever the buffer held. -/
theorem answer_ok {s : Session} {key : String} {filled : Filled StoreError Single (Store Single)}
    {values : List Single} (h : filled.result = .ok ()) (hv : some values = some filled.buffer) :
    s.answer key filled = (.reply (.params key values), ⟨{ s.server with store := filled.state }, values⟩) := by
  cases hv
  unfold answer
  rw [h]

theorem answer_error {s : Session} {key : String} {filled : Filled StoreError Single (Store Single)}
    {e : StoreError} (h : filled.result = .error e) :
    s.answer key filled =
      (.refuse (.store e), ⟨{ s.server with store := filled.state }, filled.buffer⟩) := by
  unfold answer
  rw [h]

/-- What the protocol answers is what the session answers. -/
theorem handle_of_answers {server after : Server} {m : Message} {replies : List Message}
    (h : Answers server m replies after) (scratch : List Single) :
    ∃ left, (replies = [] ∧ handle ⟨server, scratch⟩ m = (.silent, ⟨after, left⟩)) ∨
      ∃ reply, replies = [reply] ∧ handle ⟨server, scratch⟩ m = (.reply reply, ⟨after, left⟩) := by
  cases h with
  | connect => exact ⟨scratch, .inl ⟨rfl, rfl⟩⟩
  | firstHello hr => exact ⟨scratch, .inl ⟨rfl, by simp only [handle, Server.hello, hr]⟩⟩
  | hello hr => exact ⟨scratch, .inl ⟨rfl, by simp only [handle, Server.hello, hr, if_true]⟩⟩
  | @pull key length store values hfits hok hstore hvalue hlen =>
    -- the buffer has the length of the zeros that the protocol pulls into, so the store does the same
    obtain ⟨hresult, hstate⟩ :=
      server.store.pull_congr key (length_resized ⟨server, scratch⟩ length.toNat)
    have hheld := Store.value?_pull (hresult.trans hok)
    rw [hstate, hstore, hvalue] at hheld
    refine ⟨values, .inr ⟨.params key values, rfl, ?_⟩⟩
    simp only [handle]
    rw [if_pos ((fitsInFrame_iff key length).2 hfits), answer_ok (hresult.trans hok) hheld, hstate, hstore]
  | @push key gradient store values hok hstore hvalue hlen =>
    obtain ⟨hresult, hstate⟩ :=
      server.store.push_congr key gradient (length_resized ⟨server, scratch⟩ gradient.length)
    have hheld := Store.value?_push (hresult.trans hok)
    rw [hstate, hstore, hvalue] at hheld
    refine ⟨values, .inr ⟨.params key values, rfl, ?_⟩⟩
    simp only [handle]
    rw [answer_ok (hresult.trans hok) hheld, hstate, hstore]

/-- What the protocol refuses the session refuses. -/
theorem handle_of_refuses {server after : Server} {m : Message} {r : Refusal}
    (h : Refuses server m r after) (scratch : List Single) :
    ∃ left, handle ⟨server, scratch⟩ m = (.refuse r, ⟨after, left⟩) := by
  cases h with
  | rankSize hr hne => exact ⟨scratch, by simp only [handle, Server.hello, hr, if_neg hne]⟩
  | @tooLarge key length hfits =>
    refine ⟨scratch, ?_⟩
    simp only [handle]
    rw [if_neg (fun hguard => hfits ((fitsInFrame_iff key length).1 hguard))]
  | @pull key length store e hfits herror hstore =>
    obtain ⟨hresult, hstate⟩ :=
      server.store.pull_congr key (length_resized ⟨server, scratch⟩ length.toNat)
    refine ⟨(server.store.pull key (resized ⟨server, scratch⟩ length.toNat)).buffer, ?_⟩
    simp only [handle]
    rw [if_pos ((fitsInFrame_iff key length).2 hfits), answer_error (hresult.trans herror), hstate, hstore]
  | @push key gradient store e herror hstore =>
    obtain ⟨hresult, hstate⟩ :=
      server.store.push_congr key gradient (length_resized ⟨server, scratch⟩ gradient.length)
    refine ⟨(server.store.push key gradient (resized ⟨server, scratch⟩ gradient.length)).buffer, ?_⟩
    simp only [handle]
    rw [answer_error (hresult.trans herror), hstate, hstore]
  | params => exact ⟨scratch, rfl⟩
  | error => exact ⟨scratch, rfl⟩

end Session

/-- Every message but a goodbye is answered or refused. -/
theorem answers_or_refuses (server : Server) {m : Message} (hm : m ≠ .control .disconnect) :
    (∃ now after, Answers server m now after) ∨ ∃ r after, Refuses server m r after := by
  cases m with
  | error text => exact .inr ⟨_, _, .error⟩
  | params key values => exact .inr ⟨_, _, .params⟩
  | control command =>
    cases command with
    | connect => exact .inl ⟨_, _, .connect⟩
    | disconnect => exact absurd rfl hm
    | hello identity =>
      rcases hr : server.rankSize with _ | expected
      · exact .inl ⟨_, _, .firstHello hr⟩
      · by_cases he : expected = identity.rankSize
        · exact .inl ⟨_, _, .hello (he ▸ hr)⟩
        · exact .inr ⟨_, _, .rankSize hr he⟩
  | pull key length =>
    by_cases hfits : AnswerFits key length.toNat
    · rcases hresult : (server.store.pull key (zeros length.toNat)).result with e | ⟨⟩
      · exact .inr ⟨_, _, .pull hfits hresult rfl⟩
      · refine .inl ⟨_, _, .pull hfits hresult rfl (Store.value?_pull hresult) ?_⟩
        rw [Store.length_pull, zeros, List.length_replicate]
    · exact .inr ⟨_, _, .tooLarge hfits⟩
  | push key gradient =>
    rcases hresult : (server.store.push key gradient (zeros gradient.length)).result with e | ⟨⟩
    · exact .inr ⟨_, _, .push hresult rfl⟩
    · refine .inl ⟨_, _, .push hresult rfl (Store.value?_push hresult) ?_⟩
      rw [Store.length_push, zeros, List.length_replicate]

/-! ## All messages -/

/-- Every session has a run. -/
theorem exists_run (ms : List Message) (e : LinkError) (server : Server) :
    ∃ replies after standing, Run ms e server replies after standing := by
  induction ms generalizing server with
  | nil => exact ⟨_, _, _, .ended⟩
  | cons m ms ih =>
    by_cases hm : m = .control .disconnect
    · subst hm
      exact ⟨_, _, _, .goodbye⟩
    · obtain ⟨now, between, h⟩ | ⟨r, after, h⟩ := answers_or_refuses server hm
      · obtain ⟨later, after, standing, hrest⟩ := ih between
        exact ⟨_, _, _, .answered h hrest⟩
      · exact ⟨_, _, _, .refused h rfl⟩

/-- How a session stands when no message comes any more. -/
def Served.close (served : Served) (e : LinkError) : Standing :=
  match served.standing with
  | .open => .failed (.link e)
  | .over => .over
  | .failed e => .failed e

theorem Served.close_ne_open (served : Served) (e : LinkError) : served.close e ≠ .open := by
  unfold close
  split <;> nofun

namespace Session

theorem serve_silent {s after : Session} {m : Message} (h : s.handle m = (.silent, after))
    (fault? : Option LinkError) (ms : List Message) : serve fault? (m :: ms) s = serve fault? ms after := by
  simp only [serve, h]

theorem serve_reply {s after : Session} {m reply : Message} (h : s.handle m = (.reply reply, after))
    (ms : List Message) :
    serve none (m :: ms) s =
      { serve none ms after with replies := reply :: (serve none ms after).replies } := by
  simp only [serve, h]

theorem serve_refuse {s after : Session} {m : Message} {r : Refusal} (h : s.handle m = (.refuse r, after))
    (ms : List Message) :
    serve none (m :: ms) s = ⟨[.error r.message], after, .failed (.refused r)⟩ := by
  simp only [serve, h]

/-- A session serves its messages as the run says. What the buffer holds at the beginning of a step
does not matter, only what it holds at the end is not told by the run. -/
theorem serve_of_run {ms : List Message} {e : LinkError} {server after : Server} {replies : List Message}
    {standing : Standing} (h : Run ms e server replies after standing) (scratch : List Single) :
    (serve none ms ⟨server, scratch⟩).replies = replies ∧
      (serve none ms ⟨server, scratch⟩).session.server = after ∧
      (serve none ms ⟨server, scratch⟩).close e = standing := by
  induction h generalizing scratch with
  | ended => exact ⟨rfl, rfl, rfl⟩
  | goodbye => exact ⟨rfl, rfl, rfl⟩
  | @refused m rest e server after r text hr htext =>
    obtain ⟨left, hm⟩ := handle_of_refuses hr scratch
    rw [serve_refuse hm]
    cases htext
    exact ⟨rfl, rfl, rfl⟩
  | @answered m rest now later e server between after standing ha _ ih =>
    obtain ⟨left, ⟨rfl, hm⟩ | ⟨reply, rfl, hm⟩⟩ := handle_of_answers ha scratch
    · rw [serve_silent hm]
      exact ih left
    · -- what the answer left in the buffer goes into the next message
      obtain ⟨hreplies, hafter, hstanding⟩ := ih left
      rw [serve_reply hm, ← hreplies]
      exact ⟨rfl, hafter, hstanding⟩

end Session

/-! ## Streams in pieces -/

/-- What is served first, and what is served after it if the session is still open then. -/
def Served.andThen (first : Served) (next : Session → Served) : Served :=
  match first.standing with
  | .open => { next first.session with replies := first.replies ++ (next first.session).replies }
  | _ => first

namespace Session

theorem serve_append (fault? : Option LinkError) (ms ns : List Message) (s : Session) :
    serve fault? (ms ++ ns) s = (serve fault? ms s).andThen (serve fault? ns) := by
  induction ms generalizing s with
  | nil => rfl
  | cons m ms ih =>
    rw [List.cons_append]
    rcases hm : s.handle m with ⟨_ | reply | _ | r, after⟩
    · rw [serve_silent hm, serve_silent hm, ih]
    · cases fault? with
      | none =>
        rw [serve_reply hm, serve_reply hm, ih]
        unfold Served.andThen
        simp only
        split <;> rfl
      | some e => simp only [serve, hm, Served.andThen]
    · cases fault? <;> simp only [serve, hm, Served.andThen]
    · cases fault? <;> simp only [serve, hm, Served.andThen]

end Session

/-- What is left of a session by what ends its messages. -/
def Served.finish (served : Served) (ended : Bool) (tail : Tail) : Served × List UInt8 :=
  match served.standing, tail with
  | .open, .bad e => ({ served with standing := .failed (.link e) }, [])
  | .open, .partialFrame rest =>
    if ended then ({ served with standing := .failed (.link (cutOff rest)) }, []) else (served, rest)
  | _, _ => (served, [])

namespace Served

theorem andThen_open {first : Served} (h : first.standing = .open) (next : Session → Served) :
    first.andThen next =
      { next first.session with replies := first.replies ++ (next first.session).replies } := by
  unfold andThen; rw [h]

theorem andThen_closed {first : Served} (h : first.standing ≠ .open) (next : Session → Served) :
    first.andThen next = first := by
  unfold andThen
  split
  · rename_i hopen; exact absurd hopen h
  · rfl

/-- Answers that were given before do not change how a session finishes. -/
theorem finish_after (served : Served) (replies : List Message) (ended : Bool) (tail : Tail) :
    ({ served with replies := replies ++ served.replies } : Served).finish ended tail =
      ({ (served.finish ended tail).1 with replies := replies ++ (served.finish ended tail).1.replies },
        (served.finish ended tail).2) := by
  obtain ⟨_, session, standing⟩ := served
  cases standing <;> cases tail <;> cases ended <;> rfl

theorem finish_closed {served : Served} (h : served.standing ≠ .open) (ended : Bool) (tail : Tail) :
    served.finish ended tail = (served, []) := by
  rcases hs : served.standing with _ | _ | e
  · exact absurd hs h
  · unfold finish; rw [hs]
  · unfold finish; rw [hs]

theorem finish_bad (served : Served) (ended other : Bool) (e : LinkError) :
    served.finish ended (.bad e) = served.finish other (.bad e) := by
  obtain ⟨_, session, standing⟩ := served
  cases standing <;> rfl

theorem finish_partialFrame {served : Served} (h : served.standing = .open) (rest : List UInt8) :
    served.finish false (.partialFrame rest) = (served, rest) := by
  unfold finish; rw [h]; rfl

/-- A session that stays open waits for the rest of a frame. -/
theorem of_finish_open {served : Served} {tail : Tail} (h : (served.finish false tail).1.standing = .open) :
    served.standing = .open ∧ ∃ rest, tail = .partialFrame rest := by
  by_cases hopen : served.standing = .open
  · rcases tail with rest | e
    · exact ⟨hopen, rest, rfl⟩
    · unfold finish at h
      rw [hopen] at h
      cases h
  · rw [finish_closed hopen] at h
    exact absurd h hopen

theorem finish_ended (served : Served) (tail : Tail) :
    served.finish true tail = ({ served with standing := served.close tail.ended }, []) := by
  obtain ⟨replies, session, standing⟩ := served
  cases standing <;> cases tail <;> rfl

end Served

namespace Session

theorem serveStream_eq (fault? : Option LinkError) (ended : Bool) (stream : List UInt8) (s : Session) :
    serveStream fault? ended stream s =
      (serve fault? (inbound stream).1 s).finish ended (inbound stream).2 := by
  unfold serveStream
  rcases inbound stream with ⟨messages, tail⟩
  rfl

/-- A session that is still open after a piece goes on with what is left of it. -/
theorem serveStream_append_open {fault? : Option LinkError} {x : List UInt8} {s : Session}
    (h : (serveStream fault? false x s).1.standing = .open) (ended : Bool) (y : List UInt8) :
    serveStream fault? ended (x ++ y) s =
      let first := serveStream fault? false x s
      let second := serveStream fault? ended (first.2 ++ y) first.1.session
      ({ second.1 with replies := first.1.replies ++ second.1.replies }, second.2) := by
  simp only [serveStream_eq] at h ⊢
  obtain ⟨hopen, rest, htail⟩ := Served.of_finish_open h
  -- the second piece begins with the rest of the first one
  rw [inbound_append, htail, Served.finish_partialFrame hopen]
  simp only [Tail.followedBy]
  rw [serve_append, Served.andThen_open hopen, Served.finish_after]

/-- A session that is over after a piece takes nothing more. -/
theorem serveStream_append_closed {fault? : Option LinkError} {x : List UInt8} {s : Session}
    (h : (serveStream fault? false x s).1.standing ≠ .open) (ended : Bool) (y : List UInt8) :
    serveStream fault? ended (x ++ y) s = serveStream fault? false x s := by
  simp only [serveStream_eq] at h ⊢
  rw [inbound_append]
  rcases htail : (inbound x).2 with rest | e
  · have hclosed : (serve fault? (inbound x).1 s).standing ≠ .open := by
      intro hopen
      rw [htail, Served.finish_partialFrame hopen] at h
      exact h hopen
    simp only [Tail.followedBy]
    rw [serve_append, Served.andThen_closed hclosed, Served.finish_closed hclosed,
      Served.finish_closed hclosed]
  · exact Served.finish_bad _ _ _ _

end Session

/-! ## Connections -/

namespace Service

/-- The service after a connection was served. -/
def absorb (service : Service) (i : Nat) (c : Connection) (p : Served × List UInt8) : Service where
  server := p.1.session.server
  connections := service.connections.set i
    { c with
      inbox := p.2
      outbox := c.outbox ++ p.1.replies.flatMap Message.frame
      scratch := p.1.session.scratch
      isOpen := p.1.standing = .open }
  failure := service.failure <|> p.1.standing.failure?

theorem feed_open {service : Service} {i : Nat} {c : Connection} (hc : service.connections[i]? = some c)
    (hopen : c.isOpen = true) (octets : List UInt8) (ended : Bool) :
    service.feed i octets ended = service.absorb i c
      (Session.serveStream c.fault? ended (c.inbox ++ octets) ⟨service.server, c.scratch⟩) := by
  unfold feed
  rw [hc]
  simp only [hopen, if_true]
  rfl

theorem feed_closed {service : Service} {i : Nat} (h : ∀ c ∈ service.connections[i]?, c.isOpen = false)
    (octets : List UInt8) (ended : Bool) : service.feed i octets ended = service := by
  unfold feed
  split
  · rfl
  · rename_i c hc
    rw [h c hc]
    rfl

theorem connections_absorb {service : Service} {i : Nat} {c : Connection}
    (hc : service.connections[i]? = some c) (p : Served × List UInt8) :
    (service.absorb i c p).connections[i]? = some
      { c with
        inbox := p.2
        outbox := c.outbox ++ p.1.replies.flatMap Message.frame
        scratch := p.1.session.scratch
        isOpen := p.1.standing = .open } := by
  obtain ⟨hi, -⟩ := List.getElem?_eq_some_iff.1 hc
  exact List.getElem?_set_self hi

/-- Two pieces of a stream are served as one. -/
theorem feed_feed (service : Service) (i : Nat) (x y : List UInt8) (ended : Bool) :
    (service.feed i x false).feed i y ended = service.feed i (x ++ y) ended := by
  by_cases h : ∀ c ∈ service.connections[i]?, c.isOpen = false
  · rw [feed_closed h, feed_closed h, feed_closed h]
  · push Not at h
    obtain ⟨c, hc, hopen⟩ := h
    have hopen : c.isOpen = true := by simpa using hopen
    rw [feed_open hc hopen, feed_open hc hopen, ← List.append_assoc]
    have hnext := connections_absorb hc
      (Session.serveStream c.fault? false (c.inbox ++ x) ⟨service.server, c.scratch⟩)
    by_cases hstays : (Session.serveStream c.fault? false (c.inbox ++ x)
        ⟨service.server, c.scratch⟩).1.standing = .open
    · rw [feed_open hnext (decide_eq_true hstays), Session.serveStream_append_open hstays]
      have hfail : (service.failure <|> none) = service.failure := by cases service.failure <;> rfl
      simp only [absorb, List.set_set, hstays, Standing.failure?, hfail, List.flatMap_append, List.append_assoc]
    · rw [Session.serveStream_append_closed hstays]
      refine feed_closed (fun d hd => ?_) y ended
      rw [hnext, Option.mem_some_iff] at hd
      rw [← hd]
      exact decide_eq_false hstays

/-- Hands a stream to a connection in pieces. -/
def feedAll (service : Service) (i : Nat) (pieces : List (List UInt8)) : Service :=
  pieces.foldl (fun s octets => s.feed i octets false) service

theorem feedAll_feed (service : Service) (i : Nat) (pieces : List (List UInt8)) (last : List UInt8)
    (ended : Bool) :
    (service.feedAll i pieces).feed i last ended = service.feed i (pieces.flatten ++ last) ended := by
  induction pieces generalizing service with
  | nil => rfl
  | cons piece pieces ih =>
    show ((service.feed i piece false).feedAll i pieces).feed i last ended = _
    rw [ih, feed_feed, List.flatten_cons, List.append_assoc]

end Service

/-- The protocol of a connection whose answers can be sent. Let its stream come in any pieces and
end, and let `r` be a receiver of what it has to read, with any buffer. Then the session has exactly
one run over what `r` reads, and the connection follows it: the server is left as the run leaves it,
what is sent are the frames of its answers, as any sender writes them, and the connection is not
open any more, with the failure of the run if it has one. Neither the octets that the buffer for
answers held nor those that the buffers of receiver and sender held matter. -/
theorem feedAll_run (service : Service) {i : Nat} {c : Connection} (hc : service.connections[i]? = some c)
    (hopen : c.isOpen = true) (hwrite : c.fault? = none) (pieces : List (List UInt8)) (r : Receiver)
    (hr : r.stream = c.inbox ++ pieces.flatten) (sender : Sender) :
    ∃ replies after standing,
      (∀ x y z, Run (r.readAll.1.map Prod.fst) r.readAll.2 service.server x y z ↔
        x = replies ∧ y = after ∧ z = standing) ∧
      ((service.feedAll i pieces).feed i [] true).server = after ∧
      ((service.feedAll i pieces).feed i [] true).unread i = c.outbox ++ (sender.sendAll replies).flatten ∧
      ((service.feedAll i pieces).feed i [] true).isOpen i = false ∧
      ((service.feedAll i pieces).feed i [] true).failure = (service.failure <|> standing.failure?) := by
  have hread : (r.readAll.1.map Prod.fst, r.readAll.2) =
      ((inbound r.stream).1, (inbound r.stream).2.ended) := r.outcome_eq
  rw [Prod.mk.injEq] at hread
  rw [hread.1, hread.2]
  obtain ⟨replies, after, standing, hrun⟩ :=
    exists_run (inbound r.stream).1 (inbound r.stream).2.ended service.server
  obtain ⟨hreplies, hafter, hstanding⟩ := Session.serve_of_run hrun c.scratch
  refine ⟨replies, after, standing, ?_, ?_⟩
  · intro x y z
    constructor
    · intro h
      obtain ⟨hx, hy, hz⟩ := Session.serve_of_run h c.scratch
      exact ⟨hx.symm.trans hreplies, hy.symm.trans hafter, hz.symm.trans hstanding⟩
    · rintro ⟨rfl, rfl, rfl⟩
      exact hrun
  · -- the pieces are served as the whole stream, and the connection ends as the session does
    rw [Service.feedAll_feed, List.append_nil, Service.feed_open hc hopen, hwrite, ← hr,
      Session.serveStream_eq, Served.finish_ended, hstanding, sendAll_eq, ← List.flatMap_def, ← hreplies]
    have hclosed : standing ≠ .open := hstanding ▸ Served.close_ne_open _ _
    refine ⟨hafter, ?_, ?_, rfl⟩
    · unfold Service.unread
      rw [Service.connections_absorb hc]
      rfl
    · unfold Service.isOpen
      rw [Service.connections_absorb hc]
      exact decide_eq_false hclosed

/-- A pull that comes in two pieces and a goodbye, on a connection with a used buffer. -/
theorem feedAll_run_pull_goodbye :
    let c : Connection := ⟨[], [], [⟨0x7FC00001⟩], none, true⟩
    let plan : Plan Single := ⟨fun _ n => List.replicate n ⟨0x3F800000⟩, .additive, 0⟩
    let service : Service := ⟨⟨.empty plan, none⟩, [c], none⟩
    let pull : List UInt8 := (Message.pull "w_0" 2).frame
    let pieces : List (List UInt8) := [pull.take 5, pull.drop 5, (Message.control .disconnect).frame]
    let r : Receiver := ⟨4, [1, 2, 3], pieces.flatten⟩
    let ended : Service := (service.feedAll 0 pieces).feed 0 [] true
    service.connections[0]? = some c ∧ c.isOpen = true ∧ c.fault? = none ∧
      r.stream = c.inbox ++ pieces.flatten ∧
      ∃ replies after standing,
        (∀ x y z, Run (r.readAll.1.map Prod.fst) r.readAll.2 service.server x y z ↔
          x = replies ∧ y = after ∧ z = standing) ∧
        ended.server = after ∧
        ended.unread 0 = c.outbox ++ (Sender.sendAll ⟨[7]⟩ replies).flatten ∧
        ended.isOpen 0 = false ∧
        ended.failure = (service.failure <|> standing.failure?) := by
  intro c plan service pull pieces r ended
  exact ⟨rfl, rfl, rfl, rfl, feedAll_run service (i := 0) (c := c) rfl rfl rfl pieces r rfl ⟨[7]⟩⟩

end ParamExchange
