/-
Decimal numerals: the digits of a number, the number that a run of digits denotes, and the
numerals of 64-bit words.
-/

namespace ParamExchange.Text.Decimal

/-! ## Writing -/

/-- The decimal digits of a number, the most significant one first. -/
def digits (n : Nat) : List Char := Nat.toDigits 10 n

/-- The numeral of a number. -/
def text (n : Nat) : String := String.ofList (digits n)

/-! ## Reading -/

/-- The number that a non-empty run of decimal digits denotes. -/
def read? (cs : List Char) : Option Nat :=
  if cs.isEmpty || !cs.all Char.isDigit then none else some (Nat.ofDigitChars 10 cs 0)

/-- A number as a 64-bit word, if it fits. -/
def toWord? (n : Nat) : Option UInt64 :=
  if n < UInt64.size then some (UInt64.ofNat n) else none

/-- A word is written as decimal digits, in front of which one plus sign may stand. -/
def readWord? : List Char → Option UInt64
  | '+' :: cs => (read? cs).bind toWord?
  | cs => (read? cs).bind toWord?

end ParamExchange.Text.Decimal
