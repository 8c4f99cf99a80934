/-
Where parameters live: the servers that hold a parameter, and the span of its elements that each
one holds. A short parameter is held whole by the server that its index chooses, a longer one is
cut into even spans, one for each server in order.
-/
import ParamExchange.Config.Worker
import ParamExchange.Key.Basic

namespace ParamExchange.Network

/-! ## Parts of lists -/

/-- Puts the elements of a part in the place of those from `start` on; what is beyond the end is
dropped. -/
def overwrite {α : Type} : Nat → List α → List α → List α
  | _, _, [] => []
  | start + 1, part, x :: xs => x :: overwrite start part xs
  | 0, [], x :: xs => x :: xs
  | 0, p :: part, _ :: xs => p :: overwrite 0 part xs

theorem length_overwrite {α : Type} (start : Nat) (part xs : List α) :
    (overwrite start part xs).length = xs.length := by
  fun_induction overwrite start part xs <;> simp_all

/-! ## Spans -/

/-- The elements of a parameter from `start` up to but not including `stop`, on a server. -/
structure Span where
  server : Nat
  start : Nat
  stop : Nat
  deriving DecidableEq, Repr

namespace Span

/-- The number of elements. -/
def length (s : Span) : Nat := s.stop - s.start

/-- Whether there are no elements. -/
def isEmpty (s : Span) : Bool := s.stop ≤ s.start

/-- The elements of a span. -/
def slice {α : Type} (s : Span) (xs : List α) : List α := (xs.drop s.start).take s.length

end Span

/-! ## Routes -/

/-- How parameters are spread: the number of servers, and the length from which on a parameter is
cut. -/
structure Spread where
  servers : Nat
  minSlice : Nat
  deriving DecidableEq, Repr

namespace Spread

/-- The spread over some servers; no length below one is cut. -/
def ofMinSlice (servers minSlice : Nat) : Spread := ⟨servers, max minSlice 1⟩

/-- Where the span of the server `i` begins. -/
def bound (s : Spread) (length i : Nat) : Nat := length * i / s.servers

/-- Whether the spans of a parameter can be told with words: it is not cut, or its length times the
number of servers is a word. -/
def isRoutable (s : Spread) (length : Nat) : Bool :=
  length < s.minSlice || length * s.servers < UInt64.size

/-- The span of the server `i`. -/
def span (s : Spread) (length i : Nat) : Span := ⟨i, s.bound length i, s.bound length (i + 1)⟩

/-- The spans of a parameter that are not empty, in the order of their servers. A parameter
without elements that is not cut has one span nevertheless. -/
def route (s : Spread) (key : Key) (length : Nat) : List Span :=
  if s.servers = 0 then []
  else if length < s.minSlice then [⟨key.index.toNat % s.servers, 0, length⟩]
  else ((List.range s.servers).map (s.span length)).filter (!·.isEmpty)

end Spread

end ParamExchange.Network
