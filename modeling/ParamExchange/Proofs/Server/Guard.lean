/-
The frame guard. Of a pull the length of the answer is computed before there is one, and what is computed is the
length of the body that a sender writes, padding included, whatever the length of the key is; the guard is
open exactly if this body is within the limit, also where the product or the sum is no word. A push needs no
guard: its own body was within the limit, and the answer to it is as long. So a worker reads every answer that
a session gives, up to the report or the goodbye that ends it.
-/
import ParamExchange.Proofs.Server.Protocol

namespace ParamExchange

open Wire

/-! ## Lengths of answers -/

/-- The answer to a push is as long as the push was, whatever its padding held. -/
theorem length_body_of_decode_push {body : List UInt8} {key : String} {gradient values : List Single}
    (h : Message.decode body = .ok (.push key gradient)) (hlength : values.length = gradient.length) :
    (Message.params key values).body.length = body.length := by
  obtain ⟨opening, filling, ending, hlaid, rfl⟩ := (decode_eq_ok_iff (by simp)).1 h
  cases hlaid with
  | push gradient pads =>
    have hfilling := pads.length_eq
    simp only [length_body_params, keyed, List.length_append, length_big, length_littles, hfilling, hlength]
    omega

/-- The guard computes the length of the body of an answer. -/
theorem fitsInFrame_iff_length_body {key : String} {length : UInt64} {values : List Single}
    (hlength : values.length = length.toNat) :
    fitsInFrame key length = true ↔ (Message.params key values).body.length ≤ frameLimit := by
  rw [fitsInFrame_iff, answerFits_iff, length_body_params, hlength]

/-- The longest answer for a key of three octets, one that is longer, and one whose octets no word counts. -/
example : fitsInFrame "w_0" 268435453 = true ∧ fitsInFrame "w_0" 268435454 = false ∧
    fitsInFrame "w_0" 4611686018427387904 = false := by decide

namespace Session

variable {s after : Session} {m reply : Message}

theorem reply_of_answer {key : String} {filled : Filled StoreError Single (Store Single)}
    (h : s.answer key filled = (.reply reply, after)) : reply = .params key filled.buffer := by
  unfold answer at h
  split at h <;> cases h
  rfl

/-- What is replied to: a pull that the guard lets through, or a push. The reply has as many values. -/
theorem reply_of_handle (h : s.handle m = (.reply reply, after)) :
    ∃ key values, reply = .params key values ∧
      ((∃ length, m = .pull key length ∧ fitsInFrame key length = true ∧ values.length = length.toNat) ∨
        ∃ gradient, m = .push key gradient ∧ values.length = gradient.length) := by
  have hzeros : ∀ n, (s.resized n).length = n := fun n =>
    (length_resized s n).trans List.length_replicate
  cases m with
  | error text => cases h
  | params key values => cases h
  | control command =>
    cases command with
    | connect => cases h
    | disconnect => cases h
    | hello identity =>
      simp only [handle] at h
      split at h <;> cases h
  | pull key length =>
    simp only [handle] at h
    split at h
    · rename_i hguard
      refine ⟨key, _, reply_of_answer h, .inl ⟨length, rfl, hguard, ?_⟩⟩
      rw [Store.length_pull, hzeros]
    · cases h
  | push key gradient =>
    refine ⟨key, _, reply_of_answer h, .inr ⟨gradient, rfl, ?_⟩⟩
    rw [Store.length_push, hzeros]

/-- The reply to a message whose body is within the limit is within it too, and that to a push is as long. -/
theorem length_body_reply {body : List UInt8} (hbody : body.length ≤ frameLimit)
    (hm : Message.decode body = .ok m) (h : s.handle m = (.reply reply, after)) :
    reply.body.length ≤ frameLimit ∧ ∀ key gradient, m = .push key gradient → reply.body.length = body.length := by
  obtain ⟨key, values, rfl, ⟨length, rfl, hguard, hlength⟩ | ⟨gradient, rfl, hlength⟩⟩ := reply_of_handle h
  · exact ⟨(fitsInFrame_iff_length_body hlength).1 hguard, nofun⟩
  · have hsame := length_body_of_decode_push hm hlength
    exact ⟨hsame ▸ hbody, fun _ _ _ => hsame⟩

end Session

/-! ## Answers of a session -/

/-- The messages of a stream were read from bodies within the limit. -/
theorem exists_body_of_mem_inbound {stream : List UInt8} {m : Message} (h : m ∈ (inbound stream).1) :
    ∃ body, body.length ≤ frameLimit ∧ Message.decode body = .ok m := by
  induction hn : stream.length using Nat.strongRecOn generalizing stream with
  | ind n ih =>
    subst hn
    obtain ⟨-, hf⟩ | ⟨_, _, -, -, -, hf⟩ | ⟨_, _, -, -, -, hf⟩ | ⟨body, rest, -, hbody, hf⟩ := front_cases stream
    · simp [inbound_partialLength hf] at h
    · simp [inbound_oversized hf] at h
    · simp [inbound_partialBody hf] at h
    · rcases hdecode : Message.decode body with fault | first
      · simp [inbound_malformed hf hdecode] at h
      · rw [inbound_frame hf hdecode] at h
        rcases List.mem_cons.1 h with rfl | h
        · exact ⟨body, hbody, hdecode⟩
        · exact ih rest.length (length_lt_of_front hf) h rfl

/-- The answers of a session are values of parameters, each within the limit, up to the report or the goodbye
that ends it. -/
theorem Session.replies_serve (fault? : Option LinkError) {messages : List Message}
    (hmessages : ∀ m ∈ messages, ∃ body, body.length ≤ frameLimit ∧ Message.decode body = .ok m) (s : Session) :
    ∃ shown closing, (serve fault? messages s).replies = shown ++ closing ∧
      (∀ reply ∈ shown, reply.kindName = "data/params" ∧ reply.body.length ≤ frameLimit) ∧
      ∀ reply ∈ closing, reply.kindName ≠ "data/params" := by
  induction messages generalizing s with
  | nil => exact ⟨[], [], rfl, nofun, nofun⟩
  | cons m rest ih =>
    obtain ⟨⟨body, hbody, hm⟩, hrest⟩ := List.forall_mem_cons.1 hmessages
    rcases hhandle : s.handle m with ⟨_ | reply | _ | r, after⟩
    · rw [serve_silent hhandle]
      exact ih hrest after
    · cases fault? with
      | some e => exact ⟨[], [], by simp [serve, hhandle], nofun, nofun⟩
      | none =>
        obtain ⟨shown, closing, hreplies, hshown, hclosing⟩ := ih hrest after
        obtain ⟨key, values, rfl, -⟩ := reply_of_handle hhandle
        refine ⟨.params key values :: shown, closing, ?_, ?_, hclosing⟩
        · rw [serve_reply hhandle]
          simp [hreplies]
        · exact List.forall_mem_cons.2 ⟨⟨rfl, (length_body_reply hbody hm hhandle).1⟩, hshown⟩
    · cases fault? with
      | some e => exact ⟨[], [], by simp [serve, hhandle], nofun, nofun⟩
      | none => exact ⟨[], [.control .disconnect], by simp [serve, hhandle], nofun, by simp [Message.kindName]⟩
    · cases fault? with
      | some e => exact ⟨[], [], by simp [serve, hhandle], nofun, nofun⟩
      | none => exact ⟨[], [.error r.message], by simp [serve, hhandle], nofun, by simp [Message.kindName]⟩

theorem Session.replies_serveStream (fault? : Option LinkError) (ended : Bool) (stream : List UInt8) (s : Session) :
    (serveStream fault? ended stream s).1.replies = (serve fault? (inbound stream).1 s).replies := by
  rw [serveStream_eq]
  generalize serve fault? (inbound stream).1 s = served
  obtain ⟨replies, session, standing⟩ := served
  cases standing <;> cases (inbound stream).2 <;> cases ended <;> rfl

/-! ## Answers as a worker reads them -/

namespace Wire

/-- A message within the limit is read off a stream that begins with its frame. -/
theorem Receiver.next_message {r : Receiver} {m : Message} {rest : List UInt8} (h : m.body.length ≤ frameLimit)
    (hr : r.stream = m.frame ++ rest) : ∃ buffer, r.next = (.ok m, { r with buffer := buffer, stream := rest }) :=
  next_frame (hr ▸ front_message h rest) (decode_body h)

/-- Messages within the limit are read first off a stream that begins with their frames. -/
theorem Receiver.prefix_outcome {messages : List Message} (h : ∀ m ∈ messages, m.body.length ≤ frameLimit)
    {r : Receiver} {rest : List UInt8} (hr : r.stream = (messages.map Message.frame).flatten ++ rest) :
    messages <+: r.outcome.1 := by
  induction messages generalizing r with
  | nil => exact List.nil_prefix
  | cons m messages ih =>
    obtain ⟨hm, hmessages⟩ := List.forall_mem_cons.1 h
    rw [List.map_cons, List.flatten_cons, List.append_assoc] at hr
    obtain ⟨buffer, hout⟩ := outcome_frame hm hr
    rw [hout]
    exact (List.prefix_cons_inj m).2 (ih hmessages rfl)

end Wire

/-! ## The guard and the session -/

/-- The frame guard is exact, and no answer of a session is beyond the limit. For a key within the limit the
guard computes with words throughout, up to a product or a sum that is refused, and lets a length through
exactly if the body that a sender writes for so many values is within the limit. The reply to a message whose
body is within the limit is within it, that to a push being as long as the push, so every receiver reads it.
Of whatever a connection sends, the answers are values that any receiver reads, one after another, up to the
report or the goodbye that ends the session. -/
theorem replies_fit :
    (∀ (key : String) (length : UInt64), (Text.Utf8.encode key).length ≤ frameLimit →
      let size := (Text.Utf8.encode key).length
      let head := 8 + (size + padding size)
      head < UInt64.size ∧
      ∀ (sender : Sender) (values : List Single), values.length = length.toNat →
        ∃ body, (sender.send (.params key values)).1 = big lengthWidth body.length ++ body ∧
          body.length = length.toNat * 4 + head ∧
          (fitsInFrame key length = true ↔ body.length ≤ frameLimit)) ∧
    (∀ (s after : Session) (body : List UInt8) (m reply : Message), body.length ≤ frameLimit →
      Message.decode body = .ok m → s.handle m = (.reply reply, after) →
      reply.kindName = "data/params" ∧ reply.body.length ≤ frameLimit ∧
      (∀ key gradient, m = .push key gradient → reply.body.length = body.length) ∧
      ∀ (sender : Sender) (r : Receiver) (rest : List UInt8), r.stream = (sender.send reply).1 ++ rest →
        ∃ buffer, r.next = (.ok reply, { r with buffer := buffer, stream := rest })) ∧
    ∀ (fault? : Option LinkError) (ended : Bool) (stream : List UInt8) (s : Session),
      let replies := (s.serveStream fault? ended stream).1.replies
      ∃ shown closing, replies = shown ++ closing ∧
        (∀ reply ∈ shown, reply.kindName = "data/params" ∧ reply.body.length ≤ frameLimit) ∧
        (∀ reply ∈ closing, reply.kindName ≠ "data/params") ∧
        ∀ (sender : Sender) (r : Receiver), r.stream = (sender.sendAll replies).flatten →
          shown <+: r.readAll.1.map Prod.fst := by
  refine ⟨fun key length hkey => ?_, fun s after body m reply hbody hm hhandle => ?_, fun fault? ended stream s => ?_⟩
  · have hpadding : padding (Text.Utf8.encode key).length < 4 := Nat.mod_lt _ (by decide)
    have hlimit : frameLimit + 12 < UInt64.size := by decide
    refine ⟨by omega, fun sender values hvalues => ⟨_, send_eq sender _, ?_, fitsInFrame_iff_length_body hvalues⟩⟩
    rw [length_body_params, hvalues]
    omega
  · obtain ⟨hreply, hpush⟩ := Session.length_body_reply hbody hm hhandle
    obtain ⟨key, values, rfl, -⟩ := Session.reply_of_handle hhandle
    refine ⟨rfl, hreply, hpush, fun sender r rest hr => Receiver.next_message hreply ?_⟩
    rwa [send_eq] at hr
  · obtain ⟨shown, closing, hreplies, hshown, hclosing⟩ :=
      Session.replies_serve fault? (fun m hm => exists_body_of_mem_inbound hm) s
    rw [← Session.replies_serveStream fault? ended] at hreplies
    refine ⟨shown, closing, hreplies, hshown, hclosing, fun sender r hr => ?_⟩
    rw [sendAll_eq, hreplies, List.map_append, List.flatten_append] at hr
    exact Receiver.prefix_outcome (fun reply hreply => (hshown reply hreply).2) hr

/-- The longest answer for a key of three octets is let through. Of a push and a pull of another length on one
connection, the push is answered, as long as it was, and the answer is read before the report that ends the
session. -/
theorem replies_fit_push :
    let plan : Plan Single := ⟨fun _ n => List.replicate n ⟨0x3F800000⟩, .additive, 0⟩
    let s : Session := ⟨⟨.empty plan, none⟩, [⟨0x7FC00001⟩]⟩
    let push := Message.push "w_0" [⟨0⟩]
    let reply := Message.params "w_0" [⟨0x3F800000⟩]
    let stream : List UInt8 := push.frame ++ (Message.pull "w_0" 2).frame
    let replies := (s.serveStream none true stream).1.replies
    (∀ (sender : Sender) (values : List Single), values.length = 268435453 →
      ∃ body, (sender.send (.params "w_0" values)).1 = big lengthWidth body.length ++ body ∧
        body.length ≤ frameLimit) ∧
      (s.handle push).1 = .reply reply ∧ reply.body.length = push.body.length ∧
      replies.map Message.kindName = ["data/params", "err"] ∧
      ∃ shown closing, replies = shown ++ closing ∧
        (∀ reply ∈ shown, reply.kindName = "data/params" ∧ reply.body.length ≤ frameLimit) ∧
        (∀ reply ∈ closing, reply.kindName ≠ "data/params") ∧
        ∀ (sender : Sender) (r : Receiver), r.stream = (sender.sendAll replies).flatten →
          shown <+: r.readAll.1.map Prod.fst := by
  intro plan s push reply stream replies
  have hinbound : (inbound stream).1 = [push, .pull "w_0" 2] := by
    rw [inbound_append, inbound_message (by decide)]
    simp only [Tail.followedBy, List.nil_append]
    rw [inbound_message (by decide)]
    rfl
  have hreplies : replies = (Session.serve none [push, .pull "w_0" 2] s).replies :=
    hinbound ▸ Session.replies_serveStream none true stream s
  have hhandle : s.handle push = (.reply reply, (s.handle push).2) := rfl
  obtain ⟨hguard, hreply, hsession⟩ := replies_fit
  refine ⟨fun sender values hvalues => ?_, rfl, ?_, hreplies ▸ rfl, hsession none true stream s⟩
  · obtain ⟨body, hsent, -, hfits⟩ := (hguard "w_0" 268435453 (by decide)).2 sender values hvalues
    exact ⟨body, hsent, hfits.1 (by decide)⟩
  · obtain ⟨-, -, hsame, -⟩ := hreply s _ push.body push reply (by decide) (decode_body (by decide)) hhandle
    exact hsame "w_0" [⟨0⟩] rfl

end ParamExchange
