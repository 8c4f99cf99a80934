/-
Room in memory: what is at hand at once takes up less than `2 ^ 63` octets.
-/

namespace ParamExchange

/-- The number of octets that there is room for. -/
def roomLimit : Nat := 0x7FFFFFFFFFFFFFFF

/-- Whether there is room for so many things of so many octets each. -/
def hasRoom (count width : Nat) : Bool := count * width ≤ roomLimit

/-- The number of octets that a number of single precision takes up. -/
def singleWidth : Nat := 4

end ParamExchange
