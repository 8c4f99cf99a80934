/-
The shortest decimal text of a number of single precision: as few digits as tell it from every
other number, and of those the nearest. Zero and magnitudes from 1e-4 up to 1e16 are written with
a point and at least one decimal, all others with an exponent.
-/
import ParamExchange.Number.Single
import ParamExchange.Text.Decimal

namespace ParamExchange.Shortest

open Text

/-! ## The interval of a number -/

/-- A positive finite number as `mantissa * 2 ^ exponent`, and whether it is the least of its
binade, so that its lower neighbour is only half as far as its upper one. -/
structure Binary where
  mantissa : Nat
  exponent : Int
  isLeast : Bool

/-- The magnitude of a finite number that is not zero. -/
def magnitude (x : Single) : Binary :=
  if x.exponentField = 0 then ⟨x.fractionField, -149, false⟩
  else ⟨0x800000 + x.fractionField, (x.exponentField : Int) - 150,
    x.fractionField = 0 && 1 < x.exponentField⟩

/-- The natural numbers `a` and `b` in proportion to `m * 2 ^ e` and `10 ^ p`. -/
def scaled (m : Nat) (e p : Int) : Nat × Nat :=
  (m * Nat.pow 2 e.toNat * Nat.pow 10 (-p).toNat, Nat.pow 2 (-e).toNat * Nat.pow 10 p.toNat)

/-- Whether `digits * 10 ^ p` is read back as the number: it lies between the midpoints to the
neighbours, or on one of them if the mantissa is even. -/
def isInside (b : Binary) (digits : Nat) (p : Int) : Bool :=
  let low := 4 * b.mantissa - (if b.isLeast then 1 else 2)
  let high := 4 * b.mantissa + 2
  let isClosed := b.mantissa % 2 == 0
  let (l, unit) := scaled low (b.exponent - 2) p
  let (h, _) := scaled high (b.exponent - 2) p
  let v := digits * unit
  (l < v || (isClosed && l == v)) && (v < h || (isClosed && v == h))

/-! ## The digits -/

/-- The number's neighbours on the grid of the multiples of `10 ^ p`, the nearer one first; the
upper one is first in a tie. -/
def neighbours (b : Binary) (p : Int) : List Nat :=
  let (v, unit) := scaled b.mantissa b.exponent p
  let below := v / unit
  if 2 * (v % unit) < unit then [below, below + 1] else [below + 1, below]

/-- The first grid, from that of `10 ^ p` to finer ones, that has a point inside. -/
def search (b : Binary) (p : Int) : Nat → Nat × Int
  | 0 => (b.mantissa, p)
  | fuel + 1 =>
    match (neighbours b p).find? fun d => isInside b d p && d != 0 with
    | some d => (d, p)
    | none => search b (p - 1) fuel

/-- A number of the form `d * 10 ^ p` without the zeros at the end of `d`. -/
def strip (p : Int) : Nat → Nat → Nat × Int
  | 0, d => (d, p)
  | fuel + 1, d => if d != 0 && d % 10 == 0 then strip (p + 1) fuel (d / 10) else (d, p)

/-- The digits of the shortest decimal and the power of ten of the last one. -/
def decimal (x : Single) : Nat × Int :=
  let (d, p) := search (magnitude x) 39 90
  strip p 40 d

/-! ## The text -/

/-- How the digits of a number are laid out: the least exponent and the first exponent beyond
those that are written with a point. -/
structure Layout where
  leastPositional : Int
  firstExponential : Int

/-- The layout of diagnostics. -/
def layout : Layout := ⟨-4, 16⟩

/-- The digits with the point after the first `places` of them, filled with zeros. -/
def positional (digits : List Char) (places : Int) : List Char :=
  if places ≤ 0 then
    ['0', '.'] ++ List.replicate (-places).toNat '0' ++ digits
  else if places.toNat < digits.length then
    digits.take places.toNat ++ ['.'] ++ digits.drop places.toNat
  else
    digits ++ List.replicate (places.toNat - digits.length) '0' ++ ['.', '0']

/-- The digits with a point after the first of them, and the exponent of that one. -/
def exponential (digits : List Char) (exponent : Int) : List Char :=
  let fraction := digits.drop 1
  let sign := if exponent < 0 then ['-'] else []
  digits.take 1 ++ (if fraction.isEmpty then [] else '.' :: fraction) ++ ['e'] ++ sign ++
    Decimal.digits exponent.natAbs

/-- The text of a finite magnitude. -/
def unsigned (x : Single) : List Char :=
  if x.exponentField = 0 && x.fractionField = 0 then ['0', '.', '0']
  else
    let (d, p) := decimal x
    let digits := Decimal.digits d
    let exponent := p + digits.length - 1
    if layout.leastPositional ≤ exponent && exponent < layout.firstExponential then
      positional digits (exponent + 1)
    else exponential digits exponent

/-- The shortest text of a number. -/
def text (x : Single) : String :=
  if x.isNaN then "NaN"
  else
    let sign := if x.isNegative then ['-'] else []
    String.ofList (sign ++ if x.isFinite then unsigned x else ['i', 'n', 'f'])

end ParamExchange.Shortest
