/-
Frames on a stream. What stands at the front of a stream is told by its octets alone, a sender
writes the frame of each message whatever its buffer held, and a receiver takes the messages out
again. Where a stream of frames is cut, exactly the messages whose frames are whole are read, and
the failure after them tells a cut length from a cut body.
-/
import Mathlib.Tactic
import ParamExchange.Proofs.Wire.Grammar
import ParamExchange.Wire.Frame

namespace ParamExchange.Wire

open Text

/-! ## The front of a stream -/

theorem frameLimit_lt : frameLimit < 256 ^ lengthWidth := by decide

theorem front_eq_partialLength_iff {stream : List UInt8} :
    front stream = .partialLength ↔ stream.length < lengthWidth := by
  rw [← takeBig?_eq_none_iff]
  unfold front
  rcases takeBig? lengthWidth stream with _ | ⟨n, rest⟩
  · simp
  · simp only [reduceCtorEq, iff_false]
    split
    · exact nofun
    · split <;> exact nofun

theorem front_big {n : Nat} (h : n < 256 ^ lengthWidth) (rest : List UInt8) :
    front (big lengthWidth n ++ rest) =
      if frameLimit < n then .oversized n rest
      else if rest.length < n then .partialBody n
      else .frame (rest.take n) (rest.drop n) := by
  unfold front
  rw [takeBig?_append h]

theorem front_oversized {n : Nat} (h : n < 256 ^ lengthWidth) (hn : frameLimit < n) (rest : List UInt8) :
    front (big lengthWidth n ++ rest) = .oversized n rest := by
  rw [front_big h, if_pos hn]

theorem front_partialBody {n : Nat} (hn : n ≤ frameLimit) {rest : List UInt8} (hr : rest.length < n) :
    front (big lengthWidth n ++ rest) = .partialBody n := by
  rw [front_big (lt_of_le_of_lt hn frameLimit_lt), if_neg (not_lt.2 hn), if_pos hr]

theorem front_frame {body : List UInt8} (h : body.length ≤ frameLimit) (rest : List UInt8) :
    front (big lengthWidth body.length ++ (body ++ rest)) = .frame body rest := by
  have hr : ¬ (body ++ rest).length < body.length := by simp
  rw [front_big (lt_of_le_of_lt h frameLimit_lt), if_neg (not_lt.2 h), if_neg hr, List.take_left,
    List.drop_left]

/-- The four ways in which a stream can begin. -/
theorem front_cases (stream : List UInt8) :
    (stream.length < lengthWidth ∧ front stream = .partialLength) ∨
    (∃ n rest, stream = big lengthWidth n ++ rest ∧ n < 256 ^ lengthWidth ∧ frameLimit < n ∧
      front stream = .oversized n rest) ∨
    (∃ n rest, stream = big lengthWidth n ++ rest ∧ n ≤ frameLimit ∧ rest.length < n ∧
      front stream = .partialBody n) ∨
    (∃ body rest, stream = big lengthWidth body.length ++ (body ++ rest) ∧ body.length ≤ frameLimit ∧
      front stream = .frame body rest) := by
  rcases ht : takeBig? lengthWidth stream with _ | ⟨n, rest⟩
  · have hl := takeBig?_eq_none_iff.1 ht
    exact .inl ⟨hl, front_eq_partialLength_iff.2 hl⟩
  · obtain ⟨hn, rfl⟩ := takeBig?_eq_some_iff.1 ht
    by_cases hlim : frameLimit < n
    · exact .inr (.inl ⟨n, rest, rfl, hn, hlim, front_oversized hn hlim rest⟩)
    · by_cases hr : rest.length < n
      · exact .inr (.inr (.inl ⟨n, rest, rfl, not_lt.1 hlim, hr, front_partialBody (not_lt.1 hlim) hr⟩))
      · have hb : (rest.take n).length = n := by rw [List.length_take]; omega
        refine .inr (.inr (.inr ⟨rest.take n, rest.drop n, ?_, by omega, ?_⟩))
        · rw [List.take_append_drop, hb]
        · rw [front_big hn, if_neg hlim, if_neg hr]

/-! ## The next message -/

/-- `Opens stream m rest`: a stream begins with a whole frame of a message, and the rest comes after it. -/
def Opens (stream : List UInt8) (m : Message) (rest : List UInt8) : Prop :=
  ∃ body, stream = big lengthWidth body.length ++ (body ++ rest) ∧ body.length ≤ frameLimit ∧
    Message.decode body = .ok m

/-- `Breaks stream e`: there is no message at the front of a stream. It ends inside of the length or of the body,
the body is too long, or it is no message. -/
inductive Breaks : List UInt8 → LinkError → Prop
  | endOfStream {stream : List UInt8} : stream.length < lengthWidth → Breaks stream .endOfStream
  | cutBody {n : Nat} {rest : List UInt8} : n ≤ frameLimit → rest.length < n →
    Breaks (big lengthWidth n ++ rest) .cutBody
  | oversized {n : Nat} {rest : List UInt8} : n < 256 ^ lengthWidth → frameLimit < n →
    Breaks (big lengthWidth n ++ rest) (.oversized n)
  | malformed {body rest : List UInt8} {fault : Fault} : body.length ≤ frameLimit →
    Message.decode body = .error fault → Breaks (big lengthWidth body.length ++ (body ++ rest)) (.malformed fault)

theorem Opens.receive {stream rest : List UInt8} {m : Message} (h : Opens stream m rest) :
    receive stream = (.ok m, rest) := by
  obtain ⟨body, rfl, hbody, hdecode⟩ := h
  unfold Wire.receive
  rw [front_frame hbody]
  simp only [hdecode]

theorem Breaks.receive {stream : List UInt8} {e : LinkError} (h : Breaks stream e) :
    (receive stream).1 = .error e := by
  unfold Wire.receive
  cases h with
  | endOfStream hshort => rw [front_eq_partialLength_iff.2 hshort]
  | cutBody hn hrest => rw [front_partialBody hn hrest]
  | oversized hn hlimit => rw [front_oversized hn hlimit]
  | malformed hbody hdecode =>
    rw [front_frame hbody]
    simp only [hdecode]

/-- A stream begins with a message, or there is none at its front. -/
theorem opens_or_breaks (stream : List UInt8) :
    (∃ m rest, Opens stream m rest) ∨ ∃ e, Breaks stream e := by
  obtain ⟨hshort, -⟩ | ⟨n, rest, rfl, hn, hlimit, -⟩ | ⟨n, rest, rfl, hn, hrest, -⟩ |
    ⟨body, rest, rfl, hbody, -⟩ := front_cases stream
  · exact .inr ⟨_, .endOfStream hshort⟩
  · exact .inr ⟨_, .oversized hn hlimit⟩
  · exact .inr ⟨_, .cutBody hn hrest⟩
  · rcases hdecode : Message.decode body with fault | m
    · exact .inr ⟨_, .malformed hbody hdecode⟩
    · exact .inl ⟨m, rest, body, rfl, hbody, hdecode⟩

/-- The next message is received exactly if a stream begins with it. -/
theorem opens_iff {stream rest : List UInt8} {m : Message} : Opens stream m rest ↔ receive stream = (.ok m, rest) := by
  refine ⟨Opens.receive, fun h => ?_⟩
  obtain ⟨n, left, hopens⟩ | ⟨e, hbreaks⟩ := opens_or_breaks stream
  · cases hopens.receive.symm.trans h
    exact hopens
  · have hreceive := hbreaks.receive
    rw [h] at hreceive
    cases hreceive

/-- No message is received exactly if there is none at the front of a stream. -/
theorem breaks_iff {stream : List UInt8} {e : LinkError} : Breaks stream e ↔ (receive stream).1 = .error e := by
  refine ⟨Breaks.receive, fun h => ?_⟩
  obtain ⟨m, rest, hopens⟩ | ⟨other, hbreaks⟩ := opens_or_breaks stream
  · rw [hopens.receive] at h
    cases h
  · cases hbreaks.receive.symm.trans h
    exact hbreaks

theorem receive_eq_ok_iff {stream : List UInt8} {m : Message} :
    (receive stream).1 = .ok m ↔ ∃ rest, Opens stream m rest := by
  simp only [opens_iff]
  constructor
  · intro h
    exact ⟨_, Prod.ext h rfl⟩
  · rintro ⟨rest, h⟩
    rw [h]

/-! ## Frames of messages -/

theorem frame_eq (m : Message) : m.frame = big lengthWidth m.body.length ++ m.body := rfl

theorem length_frame (m : Message) : m.frame.length = lengthWidth + m.body.length := by
  rw [frame_eq, List.length_append, length_big]

/-- A body that fits in a frame has a key whose length can be written. -/
theorem hasShortKey_of_length_body {m : Message} (h : m.body.length ≤ frameLimit) : m.HasShortKey := by
  intro key hkey
  have hlen : (Utf8.encode key).length ≤ m.body.length := by
    cases m with
    | error text => cases hkey
    | control c => cases hkey
    | pull k n =>
      cases hkey
      simp only [Message.body, Message.encode, Message.head, List.length_append, length_writeKey]; omega
    | push k xs =>
      cases hkey
      simp only [Message.body, Message.encode, Message.head, List.length_append, length_writeKey]; omega
    | params k xs =>
      cases hkey
      simp only [Message.body, Message.encode, Message.head, List.length_append, length_writeKey]; omega
  have : frameLimit < 2 ^ 32 := by decide
  omega

theorem decode_body {m : Message} (h : m.body.length ≤ frameLimit) : Message.decode m.body = .ok m :=
  decode_encode (hasShortKey_of_length_body h) (by decide)

theorem front_message {m : Message} (h : m.body.length ≤ frameLimit) (rest : List UInt8) :
    front (m.frame ++ rest) = .frame m.body rest := by
  rw [frame_eq, List.append_assoc, front_frame h]

theorem receive_message {m : Message} (h : m.body.length ≤ frameLimit) (rest : List UInt8) :
    receive (m.frame ++ rest) = (.ok m, rest) := by
  unfold receive
  rw [front_message h]
  simp only [decode_body h]

/-- What is received in place of a message is of its kind, even if the length in front of it is not
that of its body. -/
theorem kindNumber_of_receive {m got : Message} {stream rest : List UInt8}
    (h : receive (m.frame ++ stream) = (.ok got, rest)) : got.kindNumber = m.kindNumber := by
  obtain ⟨body, heq, -, hdecode⟩ := opens_iff.2 h
  obtain ⟨tail, rfl, -⟩ := decode_eq_ok_iff_takeKind.1 hdecode
  -- both bodies begin in the same place
  rw [frame_eq, List.append_assoc] at heq
  have hbodies := List.append_inj_right heq (by rw [length_big, length_big])
  obtain ⟨own, hown⟩ : ∃ own, m.body = big 4 m.kindNumber ++ own := ⟨_, List.append_assoc ..⟩
  rw [hown, List.append_assoc, List.append_assoc] at hbodies
  have hbig := List.append_inj_left hbodies (by rw [length_big, length_big])
  rw [← ofBig_big_of_lt (kindNumber_lt got), ← hbig, ofBig_big_of_lt (kindNumber_lt m)]

/-- The beginning of a frame that is not whole: a part of its length or a part of its body. -/
theorem front_take_frame {m : Message} (h : m.body.length ≤ frameLimit) {k : Nat}
    (hk : k < m.frame.length) :
    front (m.frame.take k) = if k < lengthWidth then .partialLength else .partialBody m.body.length := by
  rw [length_frame] at hk
  split
  · rename_i hlt
    rw [front_eq_partialLength_iff, List.length_take]
    omega
  · rename_i hge
    have htake : m.frame.take k = big lengthWidth m.body.length ++ m.body.take (k - lengthWidth) := by
      rw [frame_eq, List.take_append, length_big, List.take_of_length_le (by rw [length_big]; omega)]
    rw [htake]
    exact front_partialBody h (by rw [List.length_take]; omega)

/-! ## Senders -/

theorem send_eq (s : Sender) (m : Message) : (s.send m).1 = m.frame := by
  have hclear : s.clear.head = List.replicate lengthWidth 0 := rfl
  have hlen : (List.replicate lengthWidth (0 : UInt8)).length = lengthWidth := List.length_replicate
  unfold Sender.send
  simp only [serialize_eq, hclear, hlen, List.length_append, Nat.add_sub_cancel_left]
  rw [List.drop_left' hlen, List.append_assoc]
  simp only [Message.frame, Message.body, Message.encode, List.length_append]

/-- A sender writes one frame after another, and what its buffer held does not matter. -/
theorem sendAll_eq (s : Sender) (ms : List Message) : s.sendAll ms = ms.map Message.frame := by
  induction ms generalizing s with
  | nil => rfl
  | cons m ms ih =>
    show (s.send m).1 :: (s.send m).2.sendAll ms = _
    rw [List.map_cons, ih, send_eq]

/-! ## Receivers -/

namespace Receiver

theorem next_frame {r : Receiver} {body rest : List UInt8} {m : Message}
    (hf : front r.stream = .frame body rest) (hm : Message.decode body = .ok m) :
    ∃ buffer, r.next = (.ok m, { r with buffer := buffer, stream := rest }) := by
  refine ⟨body ++ (r.clear body.length).drop body.length, ?_⟩
  unfold next
  rw [hf]
  simp only [List.take_left, hm]

theorem next_malformed {r : Receiver} {body rest : List UInt8} {fault : Fault}
    (hf : front r.stream = .frame body rest) (hm : Message.decode body = .error fault) :
    (r.next).1 = .error (.malformed fault) := by
  unfold next
  rw [hf]
  simp only [List.take_left, hm]

theorem readAll_ok {r after : Receiver} {m : Message} (h : r.next = (.ok m, after)) :
    r.readAll = ((m, after) :: after.readAll.1, after.readAll.2) := by
  rw [readAll]
  split
  · rename_i he; rw [h] at he; cases he
  · rename_i he; rw [h] at he; cases he; rfl

theorem readAll_error {r : Receiver} {e : LinkError} (h : (r.next).1 = .error e) : r.readAll = ([], e) := by
  rw [readAll]
  split
  · rename_i he; rw [he] at h; cases h; rfl
  · rename_i he; rw [he] at h; cases h

/-- The messages that are read and the failure after them. -/
def outcome (r : Receiver) : List Message × LinkError := (r.readAll.1.map Prod.fst, r.readAll.2)

/-- A whole frame at the front of the stream gives its message, and the receiver goes on after it. -/
theorem outcome_frame {r : Receiver} {m : Message} {rest : List UInt8} (h : m.body.length ≤ frameLimit)
    (hs : r.stream = m.frame ++ rest) :
    ∃ buffer, r.outcome =
      (m :: (Receiver.mk r.width buffer rest).outcome.1, (Receiver.mk r.width buffer rest).outcome.2) := by
  obtain ⟨buffer, hn⟩ := next_frame (r := r) (by rw [hs]; exact front_message h rest) (decode_body h)
  refine ⟨buffer, ?_⟩
  unfold outcome
  rw [readAll_ok hn, List.map_cons]

theorem outcome_partialLength {r : Receiver} (h : front r.stream = .partialLength) :
    r.outcome = ([], .endOfStream) := by
  have hn : (r.next).1 = .error .endOfStream := by unfold next; rw [h]
  unfold outcome
  rw [readAll_error hn]; rfl

theorem outcome_partialBody {r : Receiver} {n : Nat} (h : front r.stream = .partialBody n) :
    r.outcome = ([], .cutBody) := by
  have hn : (r.next).1 = .error .cutBody := by unfold next; rw [h]
  unfold outcome
  rw [readAll_error hn]; rfl

/-- What a receiver reads of a stream of frames that is cut after `n` octets: the messages of the
first frames up to one that is not whole. -/
theorem outcome_take (ms : List Message) : ∀ (r : Receiver) (n : Nat),
    (∀ m ∈ ms, m.body.length ≤ frameLimit) → n ≤ (ms.map Message.frame).flatten.length →
    r.stream = (ms.map Message.frame).flatten.take n →
    ∃ k, ((ms.map Message.frame).take k).flatten.length ≤ n ∧
      (∀ f ∈ (ms.map Message.frame)[k]?, n < ((ms.map Message.frame).take k).flatten.length + f.length) ∧
      r.outcome = (ms.take k,
        if n - ((ms.map Message.frame).take k).flatten.length < lengthWidth then .endOfStream
        else .cutBody) := by
  induction ms with
  | nil =>
    intro r n _ hn hs
    obtain rfl : n = 0 := Nat.le_zero.1 hn
    exact ⟨0, le_refl _, nofun, outcome_partialLength (by rw [hs]; rfl)⟩
  | cons m ms ih =>
    intro r n hfit hn hs
    have hm := hfit m (List.mem_cons_self ..)
    simp only [List.map_cons, List.flatten_cons] at hn hs
    rw [List.length_append] at hn
    by_cases hwhole : m.frame.length ≤ n
    · -- the first frame is whole: the rest of the stream is cut after the rest of the octets
      have htake : (m.frame ++ (ms.map Message.frame).flatten).take n =
          m.frame ++ (ms.map Message.frame).flatten.take (n - m.frame.length) := by
        rw [List.take_append, List.take_of_length_le hwhole]
      obtain ⟨buffer, hout⟩ := outcome_frame hm (hs.trans htake)
      obtain ⟨k, hin, hnext, hrest⟩ := ih
        (Receiver.mk r.width buffer ((ms.map Message.frame).flatten.take (n - m.frame.length)))
        (n - m.frame.length) (fun x hx => hfit x (List.mem_cons_of_mem _ hx)) (by omega) rfl
      have hlen : ((List.map Message.frame (m :: ms)).take (k + 1)).flatten.length =
          m.frame.length + ((ms.map Message.frame).take k).flatten.length := by
        rw [List.map_cons, List.take_succ_cons, List.flatten_cons, List.length_append]
      refine ⟨k + 1, by omega, fun f hf => ?_, ?_⟩
      · have := hnext f (by simpa using hf)
        omega
      · rw [hout, hrest, hlen, List.take_succ_cons, Nat.sub_add_eq]
    · -- the first frame is cut
      have htake : (m.frame ++ (ms.map Message.frame).flatten).take n = m.frame.take n := by
        rw [List.take_append_of_le_length (by omega)]
      have hfront := front_take_frame hm (k := n) (by omega)
      rw [← htake, ← hs] at hfront
      refine ⟨0, Nat.zero_le _, fun f hf => ?_, ?_⟩
      · rw [List.map_cons, List.getElem?_cons_zero, Option.mem_some_iff] at hf
        rw [← hf, List.take_zero, List.flatten_nil, List.length_nil]
        omega
      · show r.outcome = ([], if n < lengthWidth then .endOfStream else .cutBody)
        split
        · rename_i hlt
          rw [if_pos hlt] at hfront
          exact outcome_partialLength hfront
        · rename_i hge
          rw [if_neg hge] at hfront
          exact outcome_partialBody hfront

end Receiver

/-- Frames survive a stream that is cut anywhere: whatever the buffers of the sender and of the
receiver held, and however wide the elements of the receiver's buffer are, exactly the messages are
read whose frames lie within the first `n` octets, in order. Then comes the end of the file, or an
early one where the next length is complete and its body is not. -/
theorem readAll_take_sendAll (ms : List Message) (hfit : ∀ m ∈ ms, m.body.length ≤ frameLimit)
    (sender : Sender) (n : Nat) (hn : n ≤ (sender.sendAll ms).flatten.length) (r : Receiver)
    (hr : r.stream = (sender.sendAll ms).flatten.take n) :
    ∃ k, ((sender.sendAll ms).take k).flatten.length ≤ n ∧
      (∀ f ∈ (sender.sendAll ms)[k]?, n < ((sender.sendAll ms).take k).flatten.length + f.length) ∧
      r.readAll.1.map Prod.fst = ms.take k ∧
      r.readAll.2.kind = .unexpectedEof ∧
      r.readAll.2.message? =
        some (if n - ((sender.sendAll ms).take k).flatten.length < 8 then "unexpected end of file"
          else "early eof") := by
  rw [sendAll_eq] at hn hr ⊢
  obtain ⟨k, hin, hnext, hout⟩ := Receiver.outcome_take ms r n hfit hn hr
  unfold Receiver.outcome at hout
  rw [Prod.mk.injEq] at hout
  obtain ⟨hread, herror⟩ := hout
  refine ⟨k, hin, hnext, hread, ?_, ?_⟩
  · rw [herror]; split <;> rfl
  · rw [herror]
    by_cases hc : n - ((ms.map Message.frame).take k).flatten.length < lengthWidth
    · have hc' : n - ((ms.map Message.frame).take k).flatten.length < 8 := hc
      rw [if_pos hc, if_pos hc']; rfl
    · have hc' : ¬ n - ((ms.map Message.frame).take k).flatten.length < 8 := hc
      rw [if_neg hc, if_neg hc']; rfl

/-- Three messages cut inside of the second body, read into a used buffer of eight octets a piece. -/
theorem readAll_take_three :
    let ms : List Message := [.pull "w_é0" 3, .push "b1" [⟨0x7FC00001⟩], .control .disconnect]
    let octets := (Sender.sendAll ⟨[7]⟩ ms).flatten
    (∀ m ∈ ms, m.body.length ≤ frameLimit) ∧ 50 ≤ octets.length ∧
      ∃ k, ((Sender.sendAll ⟨[7]⟩ ms).take k).flatten.length ≤ 50 ∧
        (∀ f ∈ (Sender.sendAll ⟨[7]⟩ ms)[k]?,
          50 < ((Sender.sendAll ⟨[7]⟩ ms).take k).flatten.length + f.length) ∧
        (Receiver.mk 8 [1, 2, 3] (octets.take 50)).readAll.1.map Prod.fst = ms.take k ∧
        (Receiver.mk 8 [1, 2, 3] (octets.take 50)).readAll.2.kind = .unexpectedEof ∧
        (Receiver.mk 8 [1, 2, 3] (octets.take 50)).readAll.2.message? =
          some (if 50 - ((Sender.sendAll ⟨[7]⟩ ms).take k).flatten.length < 8 then "unexpected end of file"
            else "early eof") := by
  have hfit : ∀ m ∈ ([.pull "w_é0" 3, .push "b1" [⟨0x7FC00001⟩], .control .disconnect] : List Message),
      m.body.length ≤ frameLimit := by decide
  have hn : 50 ≤ (Sender.sendAll ⟨[7]⟩
      [.pull "w_é0" 3, .push "b1" [⟨0x7FC00001⟩], .control .disconnect]).flatten.length := by decide
  exact ⟨hfit, hn, readAll_take_sendAll _ hfit ⟨[7]⟩ 50 hn ⟨8, [1, 2, 3], _⟩ rfl⟩

end ParamExchange.Wire
