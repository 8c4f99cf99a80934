/-
Tables: rows of a key and a value, in the order in which the keys came. Every key has one row.
-/

namespace ParamExchange.Table

variable {κ β : Type} [BEq κ]

/-- Puts a value under a key, in the place of the one that is there. -/
def put (key : κ) (value : β) : List (κ × β) → List (κ × β)
  | [] => [(key, value)]
  | row :: rest => if row.1 == key then (key, value) :: rest else row :: put key value rest

/-- The value of a key. -/
def get? (key : κ) (rows : List (κ × β)) : Option β := rows.lookup key

end ParamExchange.Table
