/-
Socket addresses: four octets or eight groups of 16 bits, and a port. The text of an address is
canonical: no leading zeros, and the longest run of at least two zero groups as two colons.
Reading takes every text of an address whose octets have no leading zeros.
-/
import ParamExchange.Text.Decimal
import ParamExchange.Text.Quoted

namespace ParamExchange.Network

open Text

/-- A socket address. -/
inductive Address
  | four (octets : List Nat) (port : Nat)
  | six (groups : List Nat) (scope port : Nat)
  deriving DecidableEq, Repr

namespace Address

/-! ## Reading -/

/-- A reader of a part of an address: its value and the characters after it. -/
abbrev Part (α : Type) := List Char → Option (α × List Char)

/-- The value of a digit of numbers to base `base`. -/
def digit? (base : Nat) (c : Char) : Option Nat :=
  let n := c.toNat
  let value :=
    if 0x30 ≤ n && n ≤ 0x39 then n - 0x30
    else if 0x41 ≤ n && n ≤ 0x5A then n - 0x37
    else if 0x61 ≤ n && n ≤ 0x7A then n - 0x57
    else base
  if value < base then some value else none

/-- The digits at the front and the characters after them. -/
def splitDigits (base : Nat) : List Char → List Nat × List Char
  | [] => ([], [])
  | c :: cs =>
    match digit? base c with
    | none => ([], c :: cs)
    | some d =>
      let (ds, rest) := splitDigits base cs
      (d :: ds, rest)

/-- A number below `limit`, with at most `width` digits if there is a width. -/
def number (base limit : Nat) (width : Option Nat) (zeroPadded : Bool) : Part Nat := fun cs =>
  let (ds, rest) := splitDigits base cs
  let value := ds.foldl (fun v d => base * v + d) 0
  if ds.isEmpty || limit ≤ value || (width.any fun w => w < ds.length) ||
      (!zeroPadded && ds.head? == some 0 && 1 < ds.length) then none
  else some (value, rest)

/-- The character `c`. -/
def mark (c : Char) : Part Unit
  | [] => none
  | d :: cs => if d = c then some ((), cs) else none

/-- An octet of an address with four of them. -/
def octet : Part Nat := number 10 256 (some 3) false

/-- Four octets with points between them. -/
def fourOctets : Part (List Nat) := fun cs => do
  let (a, cs) ← octet cs
  let (_, cs) ← mark '.' cs
  let (b, cs) ← octet cs
  let (_, cs) ← mark '.' cs
  let (c, cs) ← octet cs
  let (_, cs) ← mark '.' cs
  let (d, cs) ← octet cs
  pure ([a, b, c, d], cs)

/-- The characters after the colon that must stand in front of every part but the first. -/
def afterColon (isFirst : Bool) (cs : List Char) : Option (List Char) :=
  if isFirst then some cs else (mark ':' cs).map (·.2)

/-- At most `room` groups with colons between them, whether the last two of them are written as
four octets, and the characters after them. -/
def groups (isFirst : Bool) : Nat → List Char → List Nat × Bool × List Char
  | 0, cs => ([], false, cs)
  | room + 1, cs =>
    let embedded := if room = 0 then none else (afterColon isFirst cs).bind fourOctets
    match embedded with
    | some ([a, b, c, d], rest) => ([256 * a + b, 256 * c + d], true, rest)
    | _ =>
      match (afterColon isFirst cs).bind (number 16 65536 (some 4) true) with
      | none => ([], false, cs)
      | some (g, rest) =>
        let (gs, isEmbedded, rest) := groups false room rest
        (g :: gs, isEmbedded, rest)

/-- Eight groups, of which one run of zeros may be written as two colons. -/
def eightGroups : Part (List Nat) := fun cs =>
  let (front, isEmbedded, cs) := groups true 8 cs
  if front.length = 8 then some (front, cs)
  else if isEmbedded then none
  else do
    let (_, cs) ← mark ':' cs
    let (_, cs) ← mark ':' cs
    let (back, _, cs) := groups true (7 - front.length) cs
    pure (front ++ List.replicate (8 - front.length - back.length) 0 ++ back, cs)

/-- A colon and a port. -/
def port : Part Nat := fun cs => do
  let (_, cs) ← mark ':' cs
  number 10 65536 none true cs

/-- A percent sign and the number of a scope; without them the scope is zero. -/
def scope : Part Nat := fun cs =>
  match mark '%' cs with
  | none => some (0, cs)
  | some (_, rest) => (number 10 UInt32.size none true rest).getD (0, cs)

/-- An address with four octets. -/
def readFour : Part Address := fun cs => do
  let (octets, cs) ← fourOctets cs
  let (p, cs) ← port cs
  pure (four octets p, cs)

/-- An address with eight groups in square brackets. -/
def readSix : Part Address := fun cs => do
  let (_, cs) ← mark '[' cs
  let (gs, cs) ← eightGroups cs
  let (s, cs) ← scope cs
  let (_, cs) ← mark ']' cs
  let (p, cs) ← port cs
  pure (six gs s p, cs)

/-- The address that a text denotes. -/
def ofText? (s : String) : Option Address :=
  match (readFour s.toList).orElse fun _ => readSix s.toList with
  | some (address, []) => some address
  | _ => none

/-! ## Writing -/

/-- Four octets with points between them. -/
def octetsText (octets : List Nat) : String := String.intercalate "." (octets.map Decimal.text)

/-- Groups with colons between them. -/
def groupsText (gs : List Nat) : String :=
  String.intercalate ":" (gs.map fun g => String.ofList (Quoted.hex g))

/-- The number of zeros at the front. -/
def zeros (gs : List Nat) : Nat := (gs.takeWhile (· == 0)).length

/-- The start and the length of the first of the longest runs of zeros, `start` being the position
of the first group. -/
def longestZeros (start : Nat) : List Nat → Nat × Nat
  | [] => (start, 0)
  | g :: gs =>
    let here := zeros (g :: gs)
    let later := longestZeros (start + 1) gs
    if later.2 ≤ here then (start, here) else later

/-- The text of eight groups. An embedded address with four octets is written as such. -/
def eightGroupsText (gs : List Nat) : String :=
  match gs with
  | [0, 0, 0, 0, 0, 0xFFFF, a, b] => "::ffff:" ++ octetsText [a / 256, a % 256, b / 256, b % 256]
  | _ =>
    let (start, length) := longestZeros 0 gs
    if 1 < length then
      groupsText (gs.take start) ++ "::" ++ groupsText (gs.drop (start + length))
    else groupsText gs

/-- The text of an address. -/
def text : Address → String
  | four octets p => octetsText octets ++ ":" ++ Decimal.text p
  | six gs 0 p => "[" ++ eightGroupsText gs ++ "]:" ++ Decimal.text p
  | six gs s p => "[" ++ eightGroupsText gs ++ "%" ++ Decimal.text s ++ "]:" ++ Decimal.text p

end Address

end ParamExchange.Network
