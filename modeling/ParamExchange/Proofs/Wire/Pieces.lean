/-
Streams in pieces. The messages of a stream do not depend on the pieces in which it comes: what is
left of the first piece is the front of the second. Where the stream ends, they are the messages
that a receiver reads, whatever its buffer holds.
-/
import ParamExchange.Proofs.Wire.Frames

namespace ParamExchange.Wire

/-! ## The messages at the front of a stream -/

theorem inbound_partialLength {stream : List UInt8} (h : front stream = .partialLength) :
    inbound stream = ([], .partialFrame stream) := by
  rw [inbound]
  split <;> rename_i hf <;> rw [h] at hf <;> cases hf

theorem inbound_partialBody {stream : List UInt8} {n : Nat} (h : front stream = .partialBody n) :
    inbound stream = ([], .partialFrame stream) := by
  rw [inbound]
  split <;> rename_i hf <;> rw [h] at hf <;> cases hf

theorem inbound_oversized {stream rest : List UInt8} {n : Nat} (h : front stream = .oversized n rest) :
    inbound stream = ([], .bad (.oversized n)) := by
  rw [inbound]
  split <;> rename_i hf <;> rw [h] at hf <;> cases hf
  rfl

theorem inbound_malformed {stream body rest : List UInt8} {fault : Fault}
    (h : front stream = .frame body rest) (hm : Message.decode body = .error fault) :
    inbound stream = ([], .bad (.malformed fault)) := by
  rw [inbound]
  split <;> rename_i hf <;> rw [h] at hf <;> cases hf
  rw [hm]

theorem inbound_frame {stream body rest : List UInt8} {m : Message}
    (h : front stream = .frame body rest) (hm : Message.decode body = .ok m) :
    inbound stream = (m :: (inbound rest).1, (inbound rest).2) := by
  rw [inbound]
  split <;> rename_i hf <;> rw [h] at hf <;> cases hf
  rw [hm]

theorem inbound_message {m : Message} (h : m.body.length ≤ frameLimit) :
    inbound m.frame = ([m], .partialFrame []) := by
  have hfront := front_message h []
  rw [List.append_nil] at hfront
  have hnil : inbound [] = ([], .partialFrame []) := inbound_partialLength rfl
  rw [inbound_frame hfront (decode_body h), hnil]

/-! ## Pieces -/

/-- The messages of a stream, from those of a piece at its front. -/
def Tail.followedBy (messages : List Message) (y : List UInt8) : Tail → List Message × Tail
  | partialFrame rest => (messages ++ (inbound (rest ++ y)).1, (inbound (rest ++ y)).2)
  | bad e => (messages, bad e)

/-- What is left of a piece goes before the next one. -/
theorem inbound_append (x y : List UInt8) :
    inbound (x ++ y) = (inbound x).2.followedBy (inbound x).1 y := by
  induction hn : x.length using Nat.strongRecOn generalizing x with
  | ind n ih =>
    subst hn
    obtain ⟨-, hf⟩ | ⟨k, rest, hx, hk, hlim, hf⟩ | ⟨k, rest, hx, -, -, hf⟩ | ⟨body, rest, hx, hlim, hf⟩ :=
      front_cases x
    · rw [inbound_partialLength hf]
      rfl
    · have hxy : front (x ++ y) = .oversized k (rest ++ y) := by
        rw [hx, List.append_assoc, front_oversized hk hlim]
      rw [inbound_oversized hf, inbound_oversized hxy]
      rfl
    · rw [inbound_partialBody hf]
      rfl
    · have hxy : front (x ++ y) = .frame body (rest ++ y) := by
        rw [hx, List.append_assoc, List.append_assoc, front_frame hlim]
      rcases hm : Message.decode body with fault | m
      · rw [inbound_malformed hf hm, inbound_malformed hxy hm]
        rfl
      · rw [inbound_frame hf hm, inbound_frame hxy hm, ih rest.length (length_lt_of_front hf) rest rfl]
        rcases (inbound rest).2 with left | e <;> rfl

/-! ## Streams that end -/

/-- Why a stream that ends has no further message. -/
def Tail.ended : Tail → LinkError
  | partialFrame rest => cutOff rest
  | bad e => e

theorem cutOff_partialLength {stream : List UInt8} (h : stream.length < lengthWidth) :
    cutOff stream = .endOfStream := by
  unfold cutOff; rw [if_pos h]

theorem cutOff_partialBody (n : Nat) (rest : List UInt8) : cutOff (big lengthWidth n ++ rest) = .cutBody := by
  have h : ¬ (big lengthWidth n ++ rest).length < lengthWidth := by
    rw [List.length_append, length_big]; omega
  unfold cutOff; rw [if_neg h]

/-- A receiver reads the messages of its stream, whatever its buffer holds. -/
theorem Receiver.outcome_eq (r : Receiver) :
    r.outcome = ((inbound r.stream).1, (inbound r.stream).2.ended) := by
  induction hn : r.stream.length using Nat.strongRecOn generalizing r with
  | ind n ih =>
    subst hn
    obtain ⟨hl, hf⟩ | ⟨k, rest, -, -, -, hf⟩ | ⟨k, rest, hx, -, -, hf⟩ | ⟨body, rest, -, -, hf⟩ :=
      front_cases r.stream
    · rw [inbound_partialLength hf, outcome_partialLength hf]
      show ([], LinkError.endOfStream) = ([], cutOff r.stream)
      rw [cutOff_partialLength hl]
    · have hnext : (r.next).1 = .error (.oversized k) := by unfold next; rw [hf]
      unfold outcome
      rw [inbound_oversized hf, readAll_error hnext]
      rfl
    · rw [inbound_partialBody hf, outcome_partialBody hf]
      show ([], LinkError.cutBody) = ([], cutOff r.stream)
      rw [hx, cutOff_partialBody]
    · rcases hm : Message.decode body with fault | m
      · unfold outcome
        rw [inbound_malformed hf hm, readAll_error (next_malformed hf hm)]
        rfl
      · obtain ⟨buffer, hnext⟩ := next_frame hf hm
        have hrest := ih rest.length (length_lt_of_front hf) ⟨r.width, buffer, rest⟩ rfl
        unfold outcome at hrest ⊢
        rw [Prod.mk.injEq] at hrest
        rw [inbound_frame hf hm, readAll_ok hnext, List.map_cons, hrest.1, hrest.2]

end ParamExchange.Wire
