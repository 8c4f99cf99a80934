/-
Reading a body in place. The decoder hands on the octets that it has not read yet, and taking or
dropping too many of them goes unnoticed. Here every step knows its place in the body: octets are
there only between two places of the body, numbers only from a place that is aligned for them, and
whatever else is asked for is not there. The two agree on every body, so the decoder never asks for
what is not there.
-/
import Mathlib.Tactic
import ParamExchange.Proofs.Wire.Octets
import ParamExchange.Wire.Codec

namespace ParamExchange.Wire

open Text

variable {body : List UInt8} {place : Nat}

/-! ## What is there -/

/-- The number of octets from a place of the body on. -/
def left? (body : List UInt8) (place : Nat) : Option Nat :=
  if place ≤ body.length then some (body.length - place) else none

/-- The octets between two places of the body. -/
def slice? (body : List UInt8) (start stop : Nat) : Option (List UInt8) :=
  if start ≤ stop ∧ stop ≤ body.length then some ((body.drop start).take (stop - start)) else none

/-- The number in the `width` octets from a place on. -/
def bigAt? (body : List UInt8) (place width : Nat) : Option Nat :=
  (slice? body place (place + width)).map ofBig

/-- The numbers of single precision from a place on. -/
def littlesAt? (body : List UInt8) (place : Nat) : Option (Option (List Single)) :=
  if place % 4 = 0 then (slice? body place body.length).map ofLittles? else none

theorem left?_eq (h : place ≤ body.length) : left? body place = some (body.drop place).length := by
  rw [left?, if_pos h, List.length_drop]

theorem slice?_add {n : Nat} (h : place + n ≤ body.length) :
    slice? body place (place + n) = some ((body.drop place).take n) := by
  rw [slice?, if_pos ⟨Nat.le_add_right _ _, h⟩, Nat.add_sub_cancel_left]

theorem slice?_length (h : place ≤ body.length) :
    slice? body place body.length = some (body.drop place) := by
  rw [slice?, if_pos ⟨h, le_rfl⟩, ← List.length_drop, List.take_length]

theorem bigAt?_eq {width : Nat} (h : place + width ≤ body.length) :
    bigAt? body place width = some (ofBig ((body.drop place).take width)) := by
  rw [bigAt?, slice?_add h, Option.map_some]

theorem littlesAt?_eq (h : place ≤ body.length) (aligned : place % 4 = 0) :
    littlesAt? body place = some (ofLittles? (body.drop place)) := by
  rw [littlesAt?, if_pos aligned, slice?_length h, Option.map_some]

/-- A number is at the front of the octets from a place on, or these are too few. -/
theorem takeBig?_drop (body : List UInt8) (place width : Nat) :
    takeBig? width (body.drop place) =
      if (body.drop place).length < width then none
      else some (ofBig ((body.drop place).take width), body.drop (place + width)) := by
  rw [takeBig?, List.drop_drop]

/-! ## Steps -/

/-- The key at a place, and the place after its padding. -/
def keyAt? (body : List UInt8) (place : Nat) : Option (Except Fault (String × Nat)) := do
  let size ← left? body place
  if size < 4 then some (.error (.tooShort size 4))
  else
    let length ← bigAt? body place 4
    let size ← left? body (place + 4)
    let padded := length + padding length
    if size < padded then some (.error (.tooShort size padded))
    else
      match Utf8.decode (← slice? body (place + 4) (place + 4 + length)) with
      | .error fault => some (.error (.notText fault))
      | .ok key => some (.ok (key, place + 4 + padded))

/-- The key at a place, and the numbers after it. -/
def numbersAt? (make : String → List Single → Message) (body : List UInt8) (place : Nat) :
    Option (Except Fault Message) := do
  match ← keyAt? body place with
  | .error fault => some (.error fault)
  | .ok (key, next) =>
    match ← littlesAt? body next with
    | none => some (.error .ragged)
    | some values => some (.ok (make key values))

/-- The length at a place, and the key after it. -/
def pullAt? (body : List UInt8) (place : Nat) : Option (Except Fault Message) := do
  let size ← left? body place
  if size < 8 then some (.error (.tooShort size 8))
  else
    let length ← bigAt? body place 8
    match ← keyAt? body (place + 8) with
    | .error fault => some (.error fault)
    | .ok (key, _) => some (.ok (.pull key (UInt64.ofNat length)))

/-- The message of a body, read in place. -/
def Message.decodeAt? (body : List UInt8) : Option (Except Fault Message) := do
  let size ← left? body 0
  if size < 4 then some (.error (.tooShort size 4))
  else
    match ← bigAt? body 0 4 with
    | 0 => (slice? body 4 body.length).map takeText
    | 1 => (slice? body 4 body.length).map takeControl
    | 2 => pullAt? body 4
    | 3 => numbersAt? .push body 4
    | 4 => numbersAt? .params body 4
    | n => some (.error (.unknownKind n))

/-! ## Agreement -/

/-- A key is read in place as it is read off the octets from there on: both give the same fault, or
the same key and what is after the same place. -/
theorem keyAt?_eq (h : place ≤ body.length) :
    (∃ fault, takeKey (body.drop place) = .error fault ∧ keyAt? body place = some (.error fault)) ∨
      ∃ key next, takeKey (body.drop place) = .ok (key, body.drop next) ∧
        keyAt? body place = some (.ok (key, next)) ∧ next ≤ body.length ∧ next % 4 = place % 4 := by
  unfold takeKey keyAt?
  rw [takeBig?_drop, left?_eq h]
  simp only [Option.bind_eq_bind, Option.bind_some]
  by_cases short : (body.drop place).length < 4
  · simp only [if_pos short]
    exact .inl ⟨_, rfl, rfl⟩
  have four : place + 4 ≤ body.length := by rw [List.length_drop] at short; omega
  simp only [if_neg short, bigAt?_eq four, left?_eq four, Option.bind_some]
  generalize ofBig ((body.drop place).take 4) = length
  by_cases cut : (body.drop (place + 4)).length < length + padding length
  · simp only [if_pos cut]
    exact .inl ⟨_, rfl, rfl⟩
  have whole : place + 4 + (length + padding length) ≤ body.length := by
    rw [List.length_drop] at cut; omega
  have text : place + 4 + length ≤ body.length := by omega
  simp only [if_neg cut, slice?_add text, Option.bind_some, List.drop_drop]
  cases Utf8.decode ((body.drop (place + 4)).take length) with
  | error fault => exact .inl ⟨_, rfl, rfl⟩
  | ok key =>
    have := add_padding_mod length
    exact .inr ⟨key, _, rfl, rfl, whole, by omega⟩

theorem numbersAt?_eq (h : place ≤ body.length) (aligned : place % 4 = 0)
    (make : String → List Single → Message) :
    numbersAt? make body place = some (takeNumbers make (body.drop place)) := by
  unfold numbersAt? takeNumbers
  obtain ⟨fault, taken, there⟩ | ⟨key, next, taken, there, hn, same⟩ := keyAt?_eq h
  · simp only [taken, there, Option.bind_eq_bind, Option.bind_some]
  · simp only [taken, there, Option.bind_eq_bind, Option.bind_some,
      littlesAt?_eq hn (same.trans aligned)]
    cases ofLittles? (body.drop next) <;> rfl

theorem pullAt?_eq (h : place ≤ body.length) :
    pullAt? body place = some (takePull (body.drop place)) := by
  unfold pullAt? takePull
  rw [takeBig?_drop, left?_eq h]
  simp only [Option.bind_eq_bind, Option.bind_some]
  by_cases short : (body.drop place).length < 8
  · simp only [if_pos short]
  have eight : place + 8 ≤ body.length := by rw [List.length_drop] at short; omega
  simp only [if_neg short, bigAt?_eq eight, Option.bind_some]
  obtain ⟨fault, taken, there⟩ | ⟨key, next, taken, there, -, -⟩ := keyAt?_eq eight
  · simp only [taken, there, Option.bind_some]
  · simp only [taken, there, Option.bind_some]

/-- Every body is read in place: no octet is asked for that is not there, and no number from a place
that is not aligned for it. -/
theorem decodeAt?_eq (body : List UInt8) : Message.decodeAt? body = some (Message.decode body) := by
  unfold Message.decodeAt? Message.decode
  have front := takeBig?_drop body 0 4
  rw [List.drop_zero, Nat.zero_add] at front
  rw [front, left?_eq (Nat.zero_le _)]
  simp only [Option.bind_eq_bind, Option.bind_some, List.drop_zero]
  by_cases short : body.length < 4
  · simp only [if_pos short]
  have four : 4 ≤ body.length := by omega
  have there : bigAt? body 0 4 = some (ofBig (body.take 4)) := bigAt?_eq (by omega)
  simp only [if_neg short, there, Option.bind_some]
  generalize ofBig (body.take 4) = n
  match n with
  | 0 => rw [slice?_length four]; rfl
  | 1 => rw [slice?_length four]; rfl
  | 2 => exact pullAt?_eq four
  | 3 => exact numbersAt?_eq four rfl .push
  | 4 => exact numbersAt?_eq four rfl .params
  | n + 5 => rfl

end ParamExchange.Wire
