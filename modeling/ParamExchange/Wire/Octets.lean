/-
Numbers as octets: natural numbers of a fixed width with the most significant octet first, single
precision numbers with the least significant octet first, and padding to whole words of four
octets.
-/
import ParamExchange.Number.Single

namespace ParamExchange.Wire

/-! ## Natural numbers -/

/-- A number in `width` octets, the most significant one first; what does not fit is dropped. -/
def big : Nat → Nat → List UInt8
  | 0, _ => []
  | width + 1, n => UInt8.ofNat (n / 256 ^ width) :: big width n

/-- The number in some octets, the most significant one first. -/
def ofBig (bs : List UInt8) : Nat := bs.foldl (fun n b => 256 * n + b.toNat) 0

/-- Splits off the first `width` octets as a number. -/
def takeBig? (width : Nat) (bs : List UInt8) : Option (Nat × List UInt8) :=
  if bs.length < width then none else some (ofBig (bs.take width), bs.drop width)

/-! ## Padding -/

/-- The number of octets that are missing to the next multiple of four. -/
def padding (n : Nat) : Nat := (4 - n % 4) % 4

/-! ## Numbers of single precision -/

/-- The four octets of a number, the least significant one first. -/
def little (x : Single) : List UInt8 := (big 4 x.bits.toNat).reverse

/-- The octets of some numbers. -/
def littles (xs : List Single) : List UInt8 := xs.flatMap little

/-- The number in four octets, the least significant one first. -/
def ofLittle (a b c d : UInt8) : Single := ⟨UInt32.ofNat (ofBig [d, c, b, a])⟩

/-- The numbers in some octets, if these are a multiple of four. -/
def ofLittles? : List UInt8 → Option (List Single)
  | [] => some []
  | a :: b :: c :: d :: rest => (ofLittles? rest).map (ofLittle a b c d :: ·)
  | _ => none

end ParamExchange.Wire
