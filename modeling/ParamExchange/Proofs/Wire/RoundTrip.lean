/-
The codec of messages: writing a message to the end of a buffer leaves what the buffer held, and
what was written is read back as the same message. On the side of the writer the padding of a key
depends on where it ends in the buffer, on the side of the reader on its length alone, so the
buffer has to end at a multiple of four.
-/
import Mathlib.Tactic
import ParamExchange.Proofs.Json.Records
import ParamExchange.Proofs.Wire.Octets

namespace ParamExchange.Wire

open Text

/-! ## Buffers -/

theorem resize_of_le {buffer : List UInt8} {n : Nat} (h : buffer.length ≤ n) :
    resize buffer n = buffer ++ List.replicate (n - buffer.length) 0 := by
  rw [resize, List.take_of_length_le h]

/-- Padding only adds to a buffer. -/
theorem appendKey_eq (buffer : List UInt8) (key : String) :
    appendKey buffer key = buffer ++ writeKey buffer.length key := by
  unfold appendKey writeKey
  simp only
  rw [resize_of_le (Nat.le_add_right _ _), Nat.add_sub_cancel_left]
  simp only [List.length_append, List.append_assoc]

/-- What a message adds to a buffer depends on the length of the buffer only. -/
theorem serialize_eq (buffer : List UInt8) (m : Message) :
    m.serialize buffer = (buffer ++ m.head buffer.length, m.tail?) := by
  cases m <;>
    simp [Message.serialize, Message.head, Message.tail?, appendKey_eq]

/-! ## Keys -/

theorem length_writeKey (position : Nat) (key : String) :
    (writeKey position key).length =
      4 + (Utf8.encode key).length + padding (position + (4 + (Utf8.encode key).length)) := by
  simp [writeKey, Nat.add_assoc]

/-- A key is read back, whatever it is padded with. -/
theorem takeKey_padded {key : String} {filling : List UInt8} (hk : (Utf8.encode key).length < 2 ^ 32)
    (hf : filling.length = padding (Utf8.encode key).length) (rest : List UInt8) :
    takeKey (big 4 (Utf8.encode key).length ++ (Utf8.encode key ++ (filling ++ rest))) =
      .ok (key, rest) := by
  have hlen : (Utf8.encode key).length < 256 ^ 4 := hk
  have hnot : ¬ (Utf8.encode key ++ (filling ++ rest)).length <
      (Utf8.encode key).length + padding (Utf8.encode key).length := by
    simp only [List.length_append]; omega
  unfold takeKey
  rw [takeBig?_append hlen]
  simp only
  rw [if_neg hnot, List.take_left, Utf8.decode_encode]
  simp only
  rw [← List.append_assoc, List.drop_left' (by rw [List.length_append, hf])]

/-- A key that begins at a multiple of four is read back with its padding. -/
theorem takeKey_writeKey {position : Nat} {key : String} (hk : (Utf8.encode key).length < 2 ^ 32)
    (hp : position % 4 = 0) (rest : List UInt8) :
    takeKey (writeKey position key ++ rest) = .ok (key, rest) := by
  have hpad : padding (position + (4 + (Utf8.encode key).length)) = padding (Utf8.encode key).length := by
    rw [← Nat.add_assoc, padding_add (by omega)]
  have hw : writeKey position key ++ rest = big 4 (Utf8.encode key).length ++
      (Utf8.encode key ++ (List.replicate (padding (Utf8.encode key).length) 0 ++ rest)) := by
    simp only [writeKey, List.length_append, length_big, hpad, List.append_assoc]
  rw [hw, takeKey_padded hk (List.length_replicate)]

theorem takeNumbers_of_takeKey {key : String} {bs : List UInt8} {xs : List Single}
    (h : takeKey bs = .ok (key, littles xs)) (make : String → List Single → Message) :
    takeNumbers make bs = .ok (make key xs) := by
  unfold takeNumbers
  rw [h]
  simp only
  rw [ofLittles?_littles]

theorem takePull_of_takeKey {key : String} {bs rest : List UInt8} (h : takeKey bs = .ok (key, rest))
    (length : UInt64) : takePull (big 8 length.toNat ++ bs) = .ok (.pull key length) := by
  have hl : length.toNat < 256 ^ 8 := length.toNat_lt
  unfold takePull
  rw [takeBig?_append hl]
  simp only
  rw [h]
  simp only
  rw [UInt64.ofNat_toNat]

/-! ## Messages -/

/-- The key that a message carries. -/
def Message.key? : Message → Option String
  | error _ => none
  | control _ => none
  | pull key _ => some key
  | push key _ => some key
  | params key _ => some key

/-- The length of the key that a message carries, if there is one, fits in its four octets. -/
def Message.HasShortKey (m : Message) : Prop := ∀ key ∈ m.key?, (Utf8.encode key).length < 2 ^ 32

instance (m : Message) : Decidable m.HasShortKey :=
  inferInstanceAs (Decidable (∀ key ∈ m.key?, (Utf8.encode key).length < 2 ^ 32))

theorem kindNumber_lt (m : Message) : m.kindNumber < 256 ^ 4 := by
  cases m <;> simp [Message.kindNumber]

/-- A message that begins at a multiple of four is read back. -/
theorem decode_encode {m : Message} (hk : m.HasShortKey) {position : Nat} (hp : position % 4 = 0) :
    Message.decode (m.encode position) = .ok m := by
  have hkind := kindNumber_lt m
  unfold Message.encode Message.head
  rw [List.append_assoc]
  unfold Message.decode
  rw [takeBig?_append hkind]
  cases m with
  | error text =>
    show takeText ([] ++ Utf8.encode text) = .ok (.error text)
    unfold takeText
    rw [List.nil_append, Utf8.decode_encode]
  | control c =>
    show takeControl (c.write ++ []) = .ok (.control c)
    unfold takeControl
    rw [List.append_nil, Control.parse_write]
  | pull key length =>
    show takePull (big 8 length.toNat ++ writeKey (position + 12) key ++ []) = .ok (.pull key length)
    rw [List.append_assoc]
    exact takePull_of_takeKey (takeKey_writeKey (hk key rfl) (by omega) []) length
  | push key gradient =>
    exact takeNumbers_of_takeKey (takeKey_writeKey (hk key rfl) (by omega) (littles gradient)) .push
  | params key values =>
    exact takeNumbers_of_takeKey (takeKey_writeKey (hk key rfl) (by omega) (littles values)) .params

/-- The codec of messages: for every message whose key has a length that can be written, and every
buffer that ends at a multiple of four, the buffer is kept and what is written after it, with the
text or the numbers that are given apart, is read back as the message. -/
theorem decode_serialize (m : Message) (buffer : List UInt8) (hk : m.HasShortKey)
    (ha : buffer.length % 4 = 0) :
    ∃ written, (m.serialize buffer).1 = buffer ++ written ∧
      Message.decode (written ++ (m.serialize buffer).2.getD []) = .ok m := by
  rw [serialize_eq]
  exact ⟨m.head buffer.length, rfl, decode_encode hk ha⟩

/-- A push with a key that is padded and a number that is none, after the place of a length. -/
theorem decode_serialize_push :
    let m := Message.push "w_é0" [⟨0x7FC00001⟩, ⟨0x80000000⟩]
    let buffer : List UInt8 := List.replicate 8 0
    m.HasShortKey ∧ buffer.length % 4 = 0 ∧ ∃ written, (m.serialize buffer).1 = buffer ++ written ∧
      Message.decode (written ++ (m.serialize buffer).2.getD []) = .ok m :=
  ⟨by decide, by decide, decode_serialize _ _ (by decide) (by decide)⟩

end ParamExchange.Wire
