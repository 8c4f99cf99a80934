/-
UTF-8: the octets of a text, the text of some octets, and the place and the length of the first
ill-formed part of octets that are no text.
-/

namespace ParamExchange.Text.Utf8

/-! ## Texts and octets -/

/-- The octets of a text. -/
def encode (s : String) : List UInt8 := s.toList.flatMap String.utf8EncodeChar

/-- What keeps octets from being a text: the length of the well-formed front, and the length of
the ill-formed part after it, unknown if the octets end inside a sequence. -/
structure Fault where
  validUpTo : Nat
  length : Option Nat
  deriving DecidableEq, Repr

/-- The diagnostic of a fault. -/
def Fault.message (f : Fault) : String :=
  match f.length with
  | some n => s!"invalid utf-8 sequence of {n} bytes from index {f.validUpTo}"
  | none => s!"incomplete utf-8 byte sequence from index {f.validUpTo}"

/-! ## The first ill-formed part -/

/-- An octet that continues a sequence. -/
def isContinuation (b : UInt8) : Bool := 0x80 ≤ b && b ≤ 0xBF

/-- Which octets may follow the first octet of a sequence of three. -/
def followsThree (first second : UInt8) : Bool :=
  if first == 0xE0 then 0xA0 ≤ second && second ≤ 0xBF
  else if first == 0xED then 0x80 ≤ second && second ≤ 0x9F
  else isContinuation second

/-- Which octets may follow the first octet of a sequence of four. -/
def followsFour (first second : UInt8) : Bool :=
  if first == 0xF0 then 0x90 ≤ second && second ≤ 0xBF
  else if first == 0xF4 then 0x80 ≤ second && second ≤ 0x8F
  else isContinuation second

/-- What stands at the front of some octets: a whole sequence of so many octets, or the length of
the longest start of a sequence that can not be completed, unknown at the end of the octets. -/
inductive Front
  | whole (width : Nat)
  | broken (length : Option Nat)

/-- The sequence that starts with `first`. -/
def front (first : UInt8) (rest : List UInt8) : Front :=
  if first < 0x80 then .whole 1
  else if 0xC2 ≤ first && first ≤ 0xDF then
    match rest with
    | [] => .broken none
    | b :: _ => if isContinuation b then .whole 2 else .broken (some 1)
  else if 0xE0 ≤ first && first ≤ 0xEF then
    match rest with
    | [] => .broken none
    | b :: rest =>
      if !followsThree first b then .broken (some 1)
      else match rest with
        | [] => .broken none
        | c :: _ => if isContinuation c then .whole 3 else .broken (some 2)
  else if 0xF0 ≤ first && first ≤ 0xF4 then
    match rest with
    | [] => .broken none
    | b :: rest =>
      if !followsFour first b then .broken (some 1)
      else match rest with
        | [] => .broken none
        | c :: rest =>
          if !isContinuation c then .broken (some 2)
          else match rest with
            | [] => .broken none
            | d :: _ => if isContinuation d then .whole 4 else .broken (some 3)
  else .broken (some 1)

/-- The first fault in octets that begin at `position`; the first `skip` of them belong to a sequence
that is known to be whole. -/
def scan (position skip : Nat) : List UInt8 → Fault
  | [] => ⟨position, none⟩
  | b :: rest =>
    match skip with
    | k + 1 => scan (position + 1) k rest
    | 0 =>
      match front b rest with
      | .whole width => scan (position + 1) (width - 1) rest
      | .broken length => ⟨position, length⟩

/-- The text of some octets, or the first fault in them. -/
def decode (bs : List UInt8) : Except Fault String :=
  match String.fromUTF8? bs.toByteArray with
  | some s => .ok s
  | none => .error (scan 0 0 bs)

end ParamExchange.Text.Utf8
