/-
The sum of the gradients of several devices as a balanced tree: a list is split in halves, each
half is summed and the two sums are added. The tree is walked with a stack of tasks on ranges of
the list, and the sum of a range takes the place of its first element.
-/

namespace ParamExchange

/-- Why there is no sum: there are no elements, an addition failed, or an element outside of the
list was asked for. -/
inductive ReductionError (ε : Type)
  | empty
  | addition (e : ε)
  | outside
  deriving DecidableEq, Repr

namespace Reduction

/-- A task: to sum the elements from `lo` up to but not including `hi`, or to add the sum that
stands at `mid` to the one that stands at `lo`. -/
inductive Task
  | sum (lo hi : Nat)
  | merge (lo mid : Nat)
  deriving DecidableEq, Repr

/-- At least the number of tasks that a task gives rise to, itself included. -/
def Task.weight : Task → Nat
  | sum lo hi => if hi - lo ≤ 1 then 1 else 4 * (hi - lo) - 2
  | merge _ _ => 1

/-- The weight of a stack of tasks. -/
def weight : List Task → Nat
  | [] => 0
  | task :: rest => task.weight + weight rest

theorem weight_lt_cons (task : Task) (rest : List Task) : weight rest < weight (task :: rest) := by
  have : 0 < task.weight := by
    cases task with
    | merge lo mid => exact Nat.one_pos
    | sum lo hi => simp only [Task.weight]; split <;> omega
  rw [weight]
  omega

theorem weight_halves_lt {lo hi : Nat} (h : 1 < hi - lo) (rest : List Task) :
    weight (.sum lo (lo + (hi - lo) / 2) :: .sum (lo + (hi - lo) / 2) hi ::
      .merge lo (lo + (hi - lo) / 2) :: rest) < weight (.sum lo hi :: rest) := by
  simp only [weight, Task.weight]
  repeat' split
  all_goals omega

variable {ε β : Type}

/-- Adds the element at `mid` to the one at `lo`. -/
def merge (add : β → β → Except ε β) (lo mid : Nat) (xs : List β) :
    Except (ReductionError ε) (List β) :=
  match xs[lo]?, xs[mid]? with
  | some x, some y =>
    match add x y with
    | .ok s => .ok (xs.set lo s)
    | .error e => .error (.addition e)
  | _, _ => .error .outside

/-- Works off a stack of tasks. -/
def run (add : β → β → Except ε β) : List Task → List β → Except (ReductionError ε) (List β)
  | [], xs => .ok xs
  | .sum lo hi :: rest, xs =>
    if 1 < hi - lo then
      run add (.sum lo (lo + (hi - lo) / 2) :: .sum (lo + (hi - lo) / 2) hi ::
        .merge lo (lo + (hi - lo) / 2) :: rest) xs
    else run add rest xs
  | .merge lo mid :: rest, xs =>
    match merge add lo mid xs with
    | .ok xs => run add rest xs
    | .error e => .error e
termination_by tasks => weight tasks
decreasing_by
  · exact weight_halves_lt ‹_› rest
  · exact weight_lt_cons _ rest
  · exact weight_lt_cons _ rest

end Reduction

/-- The sum of some elements. A single element is its own sum. -/
def reduce {ε β : Type} (add : β → β → Except ε β) (xs : List β) : Except (ReductionError ε) β :=
  match xs with
  | [] => .error .empty
  | _ =>
    match Reduction.run add [.sum 0 xs.length] xs with
    | .error e => .error e
    | .ok [] => .error .empty
    | .ok (s :: _) => .ok s

end ParamExchange
