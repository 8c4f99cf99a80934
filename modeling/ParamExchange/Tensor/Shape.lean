/-
Shapes of tensors: the length of each axis, the first axis first. The multi-indices of a shape
are listed in row-major order, the last axis running fastest, and there are as many of them as
the shape has elements.
-/
import ParamExchange.Room

namespace ParamExchange.Shape

/-! ## Elements -/

/-- The number of elements of a shape. -/
def size : List Nat → Nat
  | [] => 1
  | d :: rest => d * size rest

/-- Every multi-index of a shape, the last axis running fastest. -/
def indices : List Nat → List (List Nat)
  | [] => [[]]
  | d :: rest => (List.range d).flatMap fun i => (indices rest).map (i :: ·)

/-- The place of a multi-index in row-major order. -/
def offset : List Nat → List Nat → Nat
  | _ :: rest, i :: index => i * size rest + offset rest index
  | _, _ => 0

/-- The number of elements between two neighbours on each axis, in row-major order. -/
def strides : List Nat → List Nat
  | [] => []
  | _ :: rest => size rest :: strides rest

/-! ## Room -/

/-- The product of the lengths of the axes that are not empty. -/
def extent : List Nat → Nat
  | [] => 1
  | 0 :: rest => extent rest
  | (d + 1) :: rest => (d + 1) * extent rest

/-- Whether a new tensor of a shape can be made: there is room for its elements, and no place on
its axes is out of reach, even if there is no element. -/
def isAddressable (shape : List Nat) : Bool :=
  extent shape ≤ roomLimit && hasRoom (size shape) singleWidth

/-! ## Repetition -/

/-- Whether a tensor of a shape can be repeated to fill another one: seen from the last axis, each
of its axes has the other's length or length one. -/
def fits (shape target : List Nat) : Bool :=
  shape.length ≤ target.length &&
    (shape.zip (target.drop (target.length - shape.length))).all fun p => p.1 == p.2 || p.1 == 1

/-- The multi-index of a shape that is repeated at a multi-index of a larger one. -/
def source (shape index : List Nat) : List Nat :=
  List.zipWith (fun d i => if d = 1 then 0 else i) shape
    (index.drop (index.length - shape.length))

/-! ## Laws -/

theorem size_append (s t : List Nat) : size (s ++ t) = size s * size t := by
  induction s with
  | nil => simp [size]
  | cons d s ih => simp [size, ih, Nat.mul_assoc]

theorem size_reverse (s : List Nat) : size s.reverse = size s := by
  induction s with
  | nil => rfl
  | cons d s ih => simp [size, size_append, ih, Nat.mul_comm]

theorem length_indices (s : List Nat) : (indices s).length = size s := by
  induction s with
  | nil => rfl
  | cons d s ih => simp [indices, size, List.length_flatMap, ih, List.map_const']

end ParamExchange.Shape
