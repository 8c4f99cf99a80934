/-
The kinds of failure that a caller tells apart.
-/

namespace ParamExchange

/-- A kind of failure. -/
inductive Kind
  | notFound
  | invalidData
  | invalidInput
  | unexpectedEof
  | notConnected
  | brokenPipe
  deriving DecidableEq, Repr

end ParamExchange
