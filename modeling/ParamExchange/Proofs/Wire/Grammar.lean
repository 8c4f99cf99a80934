/-
The grammar of bodies. How the body of a report, a pull, a push or an answer is laid out is told
without the codec, and the decoder accepts what is laid out so and nothing else: every step of it is
inverted from the octets up, and what keeps other octets from being a message is invalid data unless
they have the kind of a control message.
-/
import Mathlib.Tactic
import ParamExchange.Proofs.Wire.Places
import ParamExchange.Proofs.Wire.RoundTrip

namespace ParamExchange.Wire

open Text

/-! ## Layouts -/

/-- The length of a key in four octets, and its own octets. -/
def keyed (key : String) : List UInt8 := big 4 (Utf8.encode key).length ++ Utf8.encode key

/-- Octets that can be the padding of a key whose length fits in four octets: as many as are missing
to the next multiple of four, of any value. -/
structure Pads (key : String) (filling : List UInt8) : Prop where
  short : (Utf8.encode key).length < 2 ^ 32
  fills : (filling.length : ℤ) = -((Utf8.encode key).length : ℤ) % 4

/-- How the body of a message is laid out: what stands before the padding of its key, the padding,
and what stands after it. A report has no key, and after the key of a pull stands anything. -/
inductive Laid : Message → List UInt8 → List UInt8 → List UInt8 → Prop
  | error (text : String) : Laid (.error text) (big 4 0 ++ Utf8.encode text) [] []
  | pull {key : String} {filling : List UInt8} (length : UInt64) (trailing : List UInt8)
      (pads : Pads key filling) :
      Laid (.pull key length) (big 4 2 ++ (big 8 length.toNat ++ keyed key)) filling trailing
  | push {key : String} {filling : List UInt8} (gradient : List Single) (pads : Pads key filling) :
      Laid (.push key gradient) (big 4 3 ++ keyed key) filling (littles gradient)
  | params {key : String} {filling : List UInt8} (values : List Single) (pads : Pads key filling) :
      Laid (.params key values) (big 4 4 ++ keyed key) filling (littles values)

/-- A body that is laid out for a message. -/
def Message.IsLaid (m : Message) (body : List UInt8) : Prop :=
  ∃ opening filling ending, Laid m opening filling ending ∧ body = opening ++ (filling ++ ending)

theorem Pads.length_eq {key : String} {filling : List UInt8} (h : Pads key filling) :
    filling.length = padding (Utf8.encode key).length := by
  have := h.fills
  have := cast_padding (Utf8.encode key).length
  omega

/-- Layouts for one message have the same octets before the padding, as many octets of padding, and
the same octets after it unless the message is a pull. -/
theorem Laid.alike {m : Message} {opening opening' filling filling' ending ending' : List UInt8}
    (h : Laid m opening filling ending) (h' : Laid m opening' filling' ending') :
    opening = opening' ∧ filling.length = filling'.length ∧
      (ending = ending' ∨ ∃ key length, m = .pull key length) := by
  cases h with
  | error text => cases h'; exact ⟨rfl, rfl, .inl rfl⟩
  | pull length trailing pads =>
    cases h' with
    | pull _ _ pads' => exact ⟨rfl, pads.length_eq.trans pads'.length_eq.symm, .inr ⟨_, _, rfl⟩⟩
  | push gradient pads =>
    cases h' with
    | push _ pads' => exact ⟨rfl, pads.length_eq.trans pads'.length_eq.symm, .inl rfl⟩
  | params values pads =>
    cases h' with
    | params _ pads' => exact ⟨rfl, pads.length_eq.trans pads'.length_eq.symm, .inl rfl⟩

theorem Pads.of_length {key : String} {filling filling' : List UInt8} (h : Pads key filling)
    (same : filling.length = filling'.length) : Pads key filling' :=
  ⟨h.short, same ▸ h.fills⟩

/-- A layout for a message stays one when its padding, and what is after the key of a pull, is
replaced. -/
theorem Laid.replace {m : Message} {opening filling filling' ending ending' : List UInt8}
    (h : Laid m opening filling ending) (same : filling.length = filling'.length)
    (after : ending = ending' ∨ ∃ key length, m = .pull key length) :
    Laid m opening filling' ending' := by
  cases h with
  | error text =>
    obtain rfl : filling' = [] := List.eq_nil_of_length_eq_zero same.symm
    obtain rfl | ⟨_, _, h⟩ := after
    · exact .error text
    · cases h
  | pull length trailing pads => exact .pull length ending' (pads.of_length same)
  | push gradient pads =>
    obtain rfl | ⟨_, _, h⟩ := after
    · exact .push gradient (pads.of_length same)
    · cases h
  | params values pads =>
    obtain rfl | ⟨_, _, h⟩ := after
    · exact .params values (pads.of_length same)
    · cases h

/-! ## The steps of the decoder -/

theorem takeText_eq_ok_iff {bs : List UInt8} {m : Message} :
    takeText bs = .ok m ↔ ∃ text, m = .error text ∧ bs = Utf8.encode text := by
  unfold takeText
  constructor
  · intro h
    split at h
    · cases h
    · rename_i text ht
      cases h
      exact ⟨text, rfl, (Utf8.encode_of_decode ht).symm⟩
  · rintro ⟨text, rfl, rfl⟩
    rw [Utf8.decode_encode]

/-- A key is taken off octets that begin with it and its padding. -/
theorem takeKey_eq_ok_iff {bs rest : List UInt8} {key : String} :
    takeKey bs = .ok (key, rest) ↔
      ∃ filling, Pads key filling ∧ bs = keyed key ++ (filling ++ rest) := by
  constructor
  · intro h
    unfold takeKey at h
    split at h
    · cases h
    rename_i length after hb
    obtain ⟨hlt, rfl⟩ := takeBig?_eq_some_iff.1 hb
    simp only at h
    split at h
    · cases h
    rename_i whole
    split at h
    · cases h
    rename_i ht
    cases h
    have octets : Utf8.encode key = after.take length := Utf8.encode_of_decode ht
    have size : (Utf8.encode key).length = length := by rw [octets, List.length_take]; omega
    have fits : ((after.drop length).take (padding length)).length = padding length := by
      rw [List.length_take, List.length_drop]; omega
    refine ⟨(after.drop length).take (padding length), ⟨size ▸ hlt, ?_⟩, ?_⟩
    · rw [fits, size, cast_padding]
    · rw [keyed, size, octets, List.append_assoc, ← List.drop_drop, List.take_append_drop,
        List.take_append_drop]
  · rintro ⟨filling, pads, rfl⟩
    rw [keyed, List.append_assoc]
    exact takeKey_padded pads.short pads.length_eq rest

theorem takePull_eq_ok_iff {bs : List UInt8} {m : Message} :
    takePull bs = .ok m ↔
      ∃ key length filling trailing, Pads key filling ∧ m = .pull key length ∧
        bs = big 8 length.toNat ++ (keyed key ++ (filling ++ trailing)) := by
  constructor
  · intro h
    unfold takePull at h
    split at h
    · cases h
    rename_i length rest hb
    obtain ⟨hlt, rfl⟩ := takeBig?_eq_some_iff.1 hb
    split at h
    · cases h
    rename_i key trailing hk
    obtain ⟨filling, pads, rfl⟩ := takeKey_eq_ok_iff.1 hk
    cases h
    have size : (UInt64.ofNat length).toNat = length := UInt64.toNat_ofNat_of_lt' hlt
    exact ⟨key, UInt64.ofNat length, filling, trailing, pads, rfl, by rw [size]⟩
  · rintro ⟨key, length, filling, trailing, pads, rfl, rfl⟩
    exact takePull_of_takeKey (takeKey_eq_ok_iff.2 ⟨filling, pads, rfl⟩) length

theorem takeNumbers_eq_ok_iff {make : String → List Single → Message} {bs : List UInt8}
    {m : Message} :
    takeNumbers make bs = .ok m ↔
      ∃ key filling xs, Pads key filling ∧ m = make key xs ∧
        bs = keyed key ++ (filling ++ littles xs) := by
  constructor
  · intro h
    unfold takeNumbers at h
    split at h
    · cases h
    rename_i key rest hk
    obtain ⟨filling, pads, rfl⟩ := takeKey_eq_ok_iff.1 hk
    split at h
    · cases h
    rename_i xs hx
    cases h
    exact ⟨key, filling, xs, pads, rfl, by rw [ofLittles?_eq_some_iff.1 hx]⟩
  · rintro ⟨key, filling, xs, pads, rfl, rfl⟩
    exact takeNumbers_of_takeKey (takeKey_eq_ok_iff.2 ⟨filling, pads, rfl⟩) make

theorem takeControl_eq_ok_iff {bs : List UInt8} {m : Message} :
    takeControl bs = .ok m ↔ ∃ c, m = .control c ∧ Json.parse Control.reader bs = .ok c := by
  unfold takeControl
  grind

theorem takeControl_eq_error_iff {bs : List UInt8} {f : Json.Fault} :
    takeControl bs = .error (.control f) ↔ Json.parse Control.reader bs = .error f := by
  unfold takeControl
  grind

/-! ## Kinds -/

/-- What is read after the number of a kind. -/
def takeKind : Nat → List UInt8 → Except Fault Message
  | 0 => takeText
  | 1 => takeControl
  | 2 => takePull
  | 3 => takeNumbers .push
  | 4 => takeNumbers .params
  | n => fun _ => .error (.unknownKind n)

theorem decode_big {n : Nat} (h : n < 256 ^ 4) (rest : List UInt8) :
    Message.decode (big 4 n ++ rest) = takeKind n rest := by
  unfold Message.decode
  rw [takeBig?_append h]
  match n with
  | 0 => rfl
  | 1 => rfl
  | 2 => rfl
  | 3 => rfl
  | 4 => rfl
  | n + 5 => rfl

/-- A body is too short for the number of a kind, or it is read after that number. -/
theorem decode_cases (body : List UInt8) :
    Message.decode body = .error (.tooShort body.length 4) ∨
      ∃ n rest, body = big 4 n ++ rest ∧ Message.decode body = takeKind n rest := by
  cases h : takeBig? 4 body with
  | none =>
    left
    unfold Message.decode
    rw [h]
  | some taken =>
    obtain ⟨fits, rfl⟩ := takeBig?_eq_some_iff.1 h
    exact .inr ⟨taken.1, taken.2, rfl, decode_big fits taken.2⟩

theorem kindNumber_of_takeKind {n : Nat} {rest : List UInt8} {m : Message}
    (h : takeKind n rest = .ok m) : m.kindNumber = n := by
  match n with
  | 0 => obtain ⟨_, rfl, -⟩ := takeText_eq_ok_iff.1 h; rfl
  | 1 => obtain ⟨_, rfl, -⟩ := takeControl_eq_ok_iff.1 h; rfl
  | 2 => obtain ⟨_, _, _, _, -, rfl, -⟩ := takePull_eq_ok_iff.1 h; rfl
  | 3 => obtain ⟨_, _, _, -, rfl, -⟩ := takeNumbers_eq_ok_iff.1 h; rfl
  | 4 => obtain ⟨_, _, _, -, rfl, -⟩ := takeNumbers_eq_ok_iff.1 h; rfl
  | n + 5 => cases h

/-- A body that is read begins with the number of the kind of its message. -/
theorem decode_eq_ok_iff_takeKind {body : List UInt8} {m : Message} :
    Message.decode body = .ok m ↔
      ∃ rest, body = big 4 m.kindNumber ++ rest ∧ takeKind m.kindNumber rest = .ok m := by
  constructor
  · intro h
    obtain short | ⟨n, rest, rfl, read⟩ := decode_cases body
    · rw [short] at h
      cases h
    · rw [read] at h
      obtain rfl := kindNumber_of_takeKind h
      exact ⟨rest, rfl, h⟩
  · rintro ⟨rest, rfl, h⟩
    rw [decode_big (kindNumber_lt m)]
    exact h

/-! ## Faults -/

theorem takeKey_ne_control {bs : List UInt8} {f : Json.Fault} :
    takeKey bs ≠ .error (.control f) := by
  unfold takeKey
  grind

theorem takeText_ne_control {bs : List UInt8} {f : Json.Fault} :
    takeText bs ≠ .error (.control f) := by
  unfold takeText
  grind

theorem takePull_ne_control {bs : List UInt8} {f : Json.Fault} :
    takePull bs ≠ .error (.control f) := by
  have := @takeKey_ne_control
  unfold takePull
  grind

theorem takeNumbers_ne_control {make : String → List Single → Message} {bs : List UInt8}
    {f : Json.Fault} : takeNumbers make bs ≠ .error (.control f) := by
  have := @takeKey_ne_control
  unfold takeNumbers
  grind

/-- The fault is in the document of a control message only if the body has the kind of one. -/
theorem decode_eq_error_control_iff {body : List UInt8} {f : Json.Fault} :
    Message.decode body = .error (.control f) ↔
      ∃ doc, body = big 4 1 ++ doc ∧ Json.parse Control.reader doc = .error f := by
  constructor
  · intro h
    obtain short | ⟨n, rest, rfl, read⟩ := decode_cases body
    · rw [short] at h
      cases h
    rw [read] at h
    match n with
    | 0 => exact absurd h takeText_ne_control
    | 1 => exact ⟨rest, rfl, takeControl_eq_error_iff.1 h⟩
    | 2 => exact absurd h takePull_ne_control
    | 3 => exact absurd h takeNumbers_ne_control
    | 4 => exact absurd h takeNumbers_ne_control
    | n + 5 => cases h
  · rintro ⟨doc, rfl, h⟩
    rw [decode_big (by decide)]
    exact takeControl_eq_error_iff.2 h

theorem Fault.kind_eq_invalidData_iff {fault : Fault} :
    fault.kind = .invalidData ↔ fault ≠ .control .truncated := by
  unfold Fault.kind
  split <;> simp_all

/-! ## The language of the decoder -/

/-- A message that is no control message is the message of the bodies that are laid out for it. -/
theorem decode_eq_ok_iff {body : List UInt8} {m : Message} (plain : ∀ c, m ≠ .control c) :
    Message.decode body = .ok m ↔ m.IsLaid body := by
  rw [decode_eq_ok_iff_takeKind]
  constructor
  · rintro ⟨rest, rfl, h⟩
    cases m with
    | error text =>
      obtain ⟨_, hm, rfl⟩ := takeText_eq_ok_iff.1 h
      cases hm
      exact ⟨_, _, _, .error text, by simp [Message.kindNumber]⟩
    | control c => exact absurd rfl (plain c)
    | pull key length =>
      obtain ⟨_, _, filling, trailing, pads, hm, rfl⟩ := takePull_eq_ok_iff.1 h
      cases hm
      exact ⟨_, _, _, .pull length trailing pads, by simp [Message.kindNumber]⟩
    | push key gradient =>
      obtain ⟨_, filling, _, pads, hm, rfl⟩ := takeNumbers_eq_ok_iff.1 h
      cases hm
      exact ⟨_, _, _, .push gradient pads, by simp [Message.kindNumber]⟩
    | params key values =>
      obtain ⟨_, filling, _, pads, hm, rfl⟩ := takeNumbers_eq_ok_iff.1 h
      cases hm
      exact ⟨_, _, _, .params values pads, by simp [Message.kindNumber]⟩
  · rintro ⟨opening, filling, ending, laid, rfl⟩
    cases laid with
    | error text => exact ⟨_, List.append_assoc .., takeText_eq_ok_iff.2 ⟨text, rfl, by simp⟩⟩
    | pull length trailing pads =>
      exact ⟨_, List.append_assoc .., takePull_eq_ok_iff.2
        ⟨_, length, filling, ending, pads, rfl, List.append_assoc ..⟩⟩
    | push gradient pads =>
      exact ⟨_, List.append_assoc .., takeNumbers_eq_ok_iff.2 ⟨_, filling, gradient, pads, rfl, rfl⟩⟩
    | params values pads =>
      exact ⟨_, List.append_assoc .., takeNumbers_eq_ok_iff.2 ⟨_, filling, values, pads, rfl, rfl⟩⟩

/-- A control message is the message of the bodies that have its kind and then a document of it. -/
theorem decode_eq_ok_control_iff {body : List UInt8} {c : Control} :
    Message.decode body = .ok (.control c) ↔
      ∃ doc, body = big 4 1 ++ doc ∧ Json.parse Control.reader doc = .ok c := by
  rw [decode_eq_ok_iff_takeKind]
  constructor
  · rintro ⟨doc, rfl, h⟩
    obtain ⟨_, hm, parsed⟩ := takeControl_eq_ok_iff.1 h
    cases hm
    exact ⟨doc, rfl, parsed⟩
  · rintro ⟨doc, rfl, parsed⟩
    exact ⟨doc, rfl, takeControl_eq_ok_iff.2 ⟨c, rfl, parsed⟩⟩

/-- The decoder on every body. No octet is asked for that is not there; a report, a pull, a push or
an answer is accepted from the bodies that are laid out for it and no others; a body that does not
begin with the kind of a control message, and is not laid out for any message, is invalid data; and
the bodies with the same message as another are those that differ from it in the padding of the key
and in what is after the key of a pull. -/
theorem decode_language (body : List UInt8) :
    Message.decodeAt? body = some (Message.decode body) ∧
      (∀ m : Message, (∀ c, m ≠ .control c) → (Message.decode body = .ok m ↔ m.IsLaid body)) ∧
      ((∀ rest, body ≠ big 4 1 ++ rest) → (∀ m : Message, ¬ m.IsLaid body) →
        ∃ fault, Message.decode body = .error fault ∧ fault.kind = .invalidData) ∧
      ∀ m : Message, (∀ c, m ≠ .control c) → Message.decode body = .ok m →
        ∀ body', Message.decode body' = .ok m ↔
          ∃ opening filling filling' ending ending', Laid m opening filling ending ∧
            body = opening ++ (filling ++ ending) ∧ body' = opening ++ (filling' ++ ending') ∧
            filling.length = filling'.length ∧
            (ending = ending' ∨ ∃ key length, m = .pull key length) := by
  refine ⟨decodeAt?_eq body, fun m plain => decode_eq_ok_iff plain, ?_, ?_⟩
  · intro other unlaid
    cases h : Message.decode body with
    | error fault =>
      refine ⟨fault, rfl, Fault.kind_eq_invalidData_iff.2 ?_⟩
      rintro rfl
      obtain ⟨doc, rfl, -⟩ := decode_eq_error_control_iff.1 h
      exact other doc rfl
    | ok m =>
      have plain : ∀ c, m ≠ .control c := by
        rintro c rfl
        obtain ⟨doc, rfl, -⟩ := decode_eq_ok_control_iff.1 h
        exact other doc rfl
      exact absurd ((decode_eq_ok_iff plain).1 h) (unlaid m)
  · intro m plain h body'
    obtain ⟨opening, filling, ending, laid, rfl⟩ := (decode_eq_ok_iff plain).1 h
    constructor
    · intro h'
      obtain ⟨opening', filling', ending', laid', rfl⟩ := (decode_eq_ok_iff plain).1 h'
      obtain ⟨rfl, same, after⟩ := laid.alike laid'
      exact ⟨opening, filling, filling', ending, ending', laid, rfl, rfl, same, after⟩
    · rintro ⟨_, _, filling', _, ending', laid', -, rfl, same, after⟩
      exact (decode_eq_ok_iff plain).2 ⟨_, filling', ending', laid'.replace same after, rfl⟩

/-- The padding of a key in a push may hold anything. -/
theorem decode_language_padding :
    let m := Message.push "w0" [⟨0x3F800000⟩]
    let body := fun filling => (big 4 3 ++ keyed "w0") ++ (filling ++ littles [⟨0x3F800000⟩])
    body [0, 0] ≠ body [7, 9] ∧ Message.decode (body [0, 0]) = .ok m ∧
      Message.decode (body [7, 9]) = .ok m := by
  intro m body
  have plain : ∀ c, m ≠ .control c := fun c => Message.noConfusion
  have laid : Laid m (big 4 3 ++ keyed "w0") [0, 0] (littles [⟨0x3F800000⟩]) :=
    .push _ ⟨by decide, by decide⟩
  obtain ⟨-, accepts, -, same⟩ := decode_language (body [0, 0])
  have first := (accepts m plain).2 ⟨_, _, _, laid, rfl⟩
  exact ⟨by decide, first, (same m plain first _).2 ⟨_, _, _, _, _, laid, rfl, rfl, rfl, .inl rfl⟩⟩

end ParamExchange.Wire
