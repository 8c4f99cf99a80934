/-
Tensors. The elements of a tensor lie in memory in row-major or in column-major order, so that a
view with all axes reversed shares the memory of what it views; what counts are the elements at
the multi-indices of the shape, which are listed in row-major order whatever the memory is.
-/
import ParamExchange.Number.Scalar
import ParamExchange.Tensor.Shape

namespace ParamExchange

/-- The order of elements in memory: the last axis runs fastest, or the first one does. -/
inductive Order
  | rowMajor
  | columnMajor
  deriving DecidableEq, Repr

/-- The other order. -/
def Order.flip : Order → Order
  | .rowMajor => .columnMajor
  | .columnMajor => .rowMajor

/-- A tensor. Its memory holds one number for each element of its shape. -/
structure Tensor (α : Type) where
  shape : List Nat
  order : Order
  memory : List α
  length_memory : memory.length = Shape.size shape
  deriving DecidableEq

namespace Tensor

variable {α : Type}

/-! ## Construction -/

/-- The tensor of some elements in row-major order. -/
def ofList (shape : List Nat) (xs : List α) (h : xs.length = Shape.size shape) : Tensor α :=
  ⟨shape, .rowMajor, xs, h⟩

/-- The tensor of some elements in row-major order, if there is one for each place. -/
def ofList? (shape : List Nat) (xs : List α) : Option (Tensor α) :=
  if h : xs.length = Shape.size shape then some (ofList shape xs h) else none

/-- The tensor whose elements are all zero. -/
def zeros [Zero α] (shape : List Nat) : Tensor α :=
  ofList shape (List.replicate (Shape.size shape) 0) List.length_replicate

/-- The view with all axes reversed. -/
def reverseAxes (t : Tensor α) : Tensor α :=
  ⟨t.shape.reverse, t.order.flip, t.memory, t.length_memory.trans (Shape.size_reverse t.shape).symm⟩

/-! ## Elements -/

/-- The place in memory of the element at a multi-index. -/
def place (t : Tensor α) (index : List Nat) : Nat :=
  match t.order with
  | .rowMajor => Shape.offset t.shape index
  | .columnMajor => Shape.offset t.shape.reverse index.reverse

/-- The element at a multi-index of the shape. -/
def get? (t : Tensor α) (index : List Nat) : Option α :=
  if index ∈ Shape.indices t.shape then t.memory[t.place index]? else none

/-- What is listed in the row-major order of a shape, in column-major order. -/
def transpose [Zero α] (shape : List Nat) (xs : List α) : List α :=
  (Shape.indices shape.reverse).map fun index => xs.getD (Shape.offset shape index.reverse) 0

theorem length_transpose [Zero α] (shape : List Nat) (xs : List α) :
    (transpose shape xs).length = Shape.size shape := by
  rw [transpose, List.length_map, Shape.length_indices, Shape.size_reverse]

/-- The elements in an order. -/
def inOrder [Zero α] (t : Tensor α) (order : Order) : List α :=
  match t.order, order with
  | .rowMajor, .columnMajor => transpose t.shape t.memory
  | .columnMajor, .rowMajor => transpose t.shape.reverse t.memory
  | _, _ => t.memory

theorem length_inOrder [Zero α] (t : Tensor α) (order : Order) :
    (t.inOrder order).length = Shape.size t.shape := by
  unfold inOrder
  split
  · exact length_transpose _ _
  · rw [length_transpose, Shape.size_reverse]
  · exact t.length_memory

/-- The elements in row-major order. -/
def elements [Zero α] (t : Tensor α) : List α := t.inOrder .rowMajor

/-- The number of elements in memory between two neighbours on each axis. -/
def strides (t : Tensor α) : List Nat :=
  match t.order with
  | .rowMajor => Shape.strides t.shape
  | .columnMajor => (Shape.strides t.shape.reverse).reverse

/-- Whether the memory is in row-major order: there are no elements, or every axis with more than
one place has the distance of that order between its neighbours. -/
def isContiguous (t : Tensor α) : Bool :=
  t.shape.contains 0 ||
    (t.shape.zip (t.strides.zip (Shape.strides t.shape))).all fun a => a.1 == 1 || a.2.1 == a.2.2

/-- The memory, if it is in row-major order. -/
def slice? (t : Tensor α) : Option (List α) := if t.isContiguous then some t.memory else none

/-! ## Arithmetic -/

/-- Applies a function to every element. -/
def map {β : Type} (f : α → β) (t : Tensor α) : Tensor β :=
  ⟨t.shape, t.order, t.memory.map f, (List.length_map f).trans t.length_memory⟩

/-- Combines the elements of two tensors of one shape, in the order of the first one. -/
def zip? [Zero α] (f : α → α → α) (t u : Tensor α) : Option (Tensor α) :=
  if h : u.shape = t.shape then
    some ⟨t.shape, t.order, List.zipWith f t.memory (u.inOrder t.order), by
      rw [List.length_zipWith, t.length_memory, u.length_inOrder, h, Nat.min_self]⟩
  else none

/-- The tensor repeated to fill a shape. -/
def broadcast? [Zero α] (target : List Nat) (t : Tensor α) : Option (Tensor α) :=
  if t.shape = target then some t
  else if Shape.fits t.shape target then
    let elements := t.elements
    let pick (index : List Nat) := elements.getD (Shape.offset t.shape (Shape.source t.shape index)) 0
    some (ofList target ((Shape.indices target).map pick) (by
      rw [List.length_map, Shape.length_indices]))
  else none

variable [Scalar α]

/-- The sum of two tensors of one shape. -/
def add? (t u : Tensor α) : Option (Tensor α) := t.zip? (fun x y => x + y) u

/-- Every element multiplied by a number on its right. -/
def scale (t : Tensor α) (a : α) : Tensor α := t.map fun x => x * a

/-- The sum with `a` times a tensor that is repeated to the shape. -/
def scaledAdd? (t : Tensor α) (a : α) (u : Tensor α) : Option (Tensor α) :=
  (u.broadcast? t.shape).bind (t.zip? (fun y x => y + a * x))

end Tensor

end ParamExchange
