/-
The reduction of gradients is a tree. What the stack of tasks computes in place is the recursion
that it was taken from: the first half of a list is summed, then the second half, and then the two
sums are added. The induction is on the length of the range of a task.
-/
import Mathlib.Tactic
import ParamExchange.Worker.Backend

namespace ParamExchange

namespace Reduction

variable {ε β : Type}

/-! ## The tree -/

/-- The sum of some elements: of the first half, and then of the second half, added. -/
def tree (add : β → β → Except ε β) : List β → Except (ReductionError ε) β
  | [] => .error .empty
  | [x] => .ok x
  | x :: y :: rest => do
    let left ← tree add ((x :: y :: rest).take ((x :: y :: rest).length / 2))
    let right ← tree add ((x :: y :: rest).drop ((x :: y :: rest).length / 2))
    (add left right).mapError .addition
termination_by xs => xs.length
decreasing_by
  · rw [List.length_take, List.length_cons, List.length_cons]; omega
  · rw [List.length_drop, List.length_cons, List.length_cons]; omega

theorem tree_nil (add : β → β → Except ε β) : tree add [] = .error .empty := by rw [tree]

theorem tree_singleton (add : β → β → Except ε β) (x : β) : tree add [x] = .ok x := by rw [tree]

theorem tree_of_one_lt (add : β → β → Except ε β) {xs : List β} (h : 1 < xs.length) :
    tree add xs = (do
      let left ← tree add (xs.take (xs.length / 2))
      let right ← tree add (xs.drop (xs.length / 2))
      (add left right).mapError .addition) := by
  match xs, h with
  | x :: y :: rest, _ => rw [tree]

/-- What holds of all elements and is kept by additions holds of the sum. -/
theorem of_tree_ok {add : β → β → Except ε β} {P : β → Prop}
    (hadd : ∀ x y s, P x → P y → add x y = .ok s → P s) {xs : List β} (hxs : ∀ x ∈ xs, P x) {s : β}
    (h : tree add xs = .ok s) : P s := by
  induction hn : xs.length using Nat.strong_induction_on generalizing xs s with
  | _ n ih =>
    subst hn
    by_cases hlen : 1 < xs.length
    · rw [tree_of_one_lt add hlen] at h
      rcases hleft : tree add (xs.take (xs.length / 2)) with e | left
      · rw [hleft] at h
        cases h
      rcases hright : tree add (xs.drop (xs.length / 2)) with e | right
      · rw [hleft, hright] at h
        cases h
      rw [hleft, hright] at h
      simp only [bind, Except.bind] at h
      rcases hsum : add left right with e | sum
      · rw [hsum] at h
        cases h
      · rw [hsum] at h
        cases h
        refine hadd left right _ ?_ ?_ hsum
        · exact ih _ (by rw [List.length_take]; omega) (fun x hx => hxs x (List.mem_of_mem_take hx)) hleft rfl
        · exact ih _ (by rw [List.length_drop]; omega) (fun x hx => hxs x (List.mem_of_mem_drop hx)) hright rfl
    · rcases xs with _ | ⟨x, _ | ⟨y, rest⟩⟩
      · rw [tree_nil] at h
        cases h
      · rw [tree_singleton] at h
        cases h
        exact hxs _ (List.mem_singleton_self _)
      · exact absurd (by rw [List.length_cons, List.length_cons]; omega) hlen

/-! ## The stack of tasks -/

/-- The elements from `lo` on, `n` of them. -/
def range (lo n : Nat) (xs : List β) : List β := (xs.drop lo).take n

theorem length_range {lo n : Nat} {xs : List β} (h : lo + n ≤ xs.length) : (range lo n xs).length = n := by
  rw [range, List.length_take, List.length_drop]
  omega

theorem take_range {lo k n : Nat} (h : k ≤ n) (xs : List β) : (range lo n xs).take k = range lo k xs := by
  rw [range, range, List.take_take, Nat.min_eq_left h]

theorem drop_range (lo k n : Nat) (xs : List β) : (range lo n xs).drop k = range (lo + k) (n - k) xs := by
  rw [range, range, List.drop_take, List.drop_drop]

theorem range_congr {lo n : Nat} {xs ys : List β} (h : ∀ i, lo ≤ i → xs[i]? = ys[i]?) :
    range lo n xs = range lo n ys := by
  have hdrop : xs.drop lo = ys.drop lo := by
    apply List.ext_getElem?
    intro i
    rw [List.getElem?_drop, List.getElem?_drop]
    exact h _ (Nat.le_add_right lo i)
  rw [range, range, hdrop]

theorem run_sum (add : β → β → Except ε β) {lo n : Nat} (h : 1 < n) (rest : List Task) (xs : List β) :
    run add (.sum lo (lo + n) :: rest) xs =
      run add (.sum lo (lo + n / 2) :: .sum (lo + n / 2) (lo + n) :: .merge lo (lo + n / 2) :: rest) xs := by
  rw [run, if_pos (by omega), Nat.add_sub_cancel_left]

theorem run_merge (add : β → β → Except ε β) {lo mid : Nat} {xs : List β} {x y : β} (hx : xs[lo]? = some x)
    (hy : xs[mid]? = some y) (rest : List Task) :
    run add (.merge lo mid :: rest) xs = ((add x y).mapError .addition).bind fun s => run add rest (xs.set lo s) := by
  rw [run, merge, hx, hy]
  rcases hsum : add x y with e | s <;> simp only [hsum] <;> rfl

/-- A task on a range is worked off: the sum of the range takes the place of its first element, nothing
else outside of the range changes, and the other tasks go on; or the failure of the sum ends them all. -/
def WorksOff (add : β → β → Except ε β) (lo n : Nat) (xs : List β) : Prop :=
  (∀ s, tree add (range lo n xs) = .ok s → ∃ after : List β, after.length = xs.length ∧ after[lo]? = some s ∧
    (∀ i, i < lo ∨ lo + n ≤ i → after[i]? = xs[i]?) ∧
    ∀ rest, run add (.sum lo (lo + n) :: rest) xs = run add rest after) ∧
  ∀ e, tree add (range lo n xs) = .error e → ∀ rest, run add (.sum lo (lo + n) :: rest) xs = .error e

theorem worksOff_one (add : β → β → Except ε β) {lo : Nat} {xs : List β} (h : lo + 1 ≤ xs.length) :
    WorksOff add lo 1 xs := by
  have hrange : range lo 1 xs = [xs[lo]] := by
    rw [range, List.drop_eq_getElem_cons h, List.take_succ_cons, List.take_zero]
  have hrun : ∀ rest, run add (.sum lo (lo + 1) :: rest) xs = run add rest xs := by
    intro rest
    rw [run, if_neg (by omega)]
  unfold WorksOff
  rw [hrange, tree_singleton]
  constructor
  · intro s hs
    cases hs
    exact ⟨xs, rfl, List.getElem?_eq_getElem h, fun _ _ => rfl, hrun⟩
  · intro e he
    cases he

/-- Every task on a range that is not empty is worked off. -/
theorem worksOff (add : β → β → Except ε β) {n : Nat} (hn : 0 < n) {lo : Nat} {xs : List β}
    (h : lo + n ≤ xs.length) : WorksOff add lo n xs := by
  induction n using Nat.strong_induction_on generalizing lo xs with
  | _ n ih =>
    rcases Nat.lt_or_ge 1 n with hlong | hshort
    swap
    · obtain rfl : n = 1 := by omega
      exact worksOff_one add h
    have htree := tree_of_one_lt add ((length_range h).symm ▸ hlong)
    rw [length_range h, take_range (Nat.div_le_self n 2), drop_range] at htree
    obtain ⟨hleftOk, hleftError⟩ := ih (n / 2) (by omega) (by omega) (show lo + n / 2 ≤ xs.length by omega)
    rcases hleft : tree add (range lo (n / 2) xs) with e | left
    · rw [hleft] at htree
      unfold WorksOff
      rw [htree]
      refine ⟨nofun, fun e' he rest => ?_⟩
      cases he
      rw [run_sum add hlong, hleftError e hleft]
    obtain ⟨mid, hmidLen, hmidLo, hmidKept, hmidRun⟩ := hleftOk left hleft
    -- the second half was not touched by the first task
    have hmid : range (lo + n / 2) (n - n / 2) mid = range (lo + n / 2) (n - n / 2) xs :=
      range_congr fun i hi => hmidKept i (.inr hi)
    have hend : lo + n / 2 + (n - n / 2) = lo + n := by omega
    obtain ⟨hrightOk, hrightError⟩ :=
      ih (n - n / 2) (by omega) (by omega) (show lo + n / 2 + (n - n / 2) ≤ mid.length by omega)
    rw [hmid, hend] at hrightOk hrightError
    rcases hright : tree add (range (lo + n / 2) (n - n / 2) xs) with e | right
    · rw [hleft, hright] at htree
      unfold WorksOff
      rw [htree]
      refine ⟨nofun, fun e' he rest => ?_⟩
      cases he
      rw [run_sum add hlong, hmidRun, hrightError e hright]
    obtain ⟨last, hlastLen, hlastMid, hlastKept, hlastRun⟩ := hrightOk right hright
    have hlastLo : last[lo]? = some left := by rw [hlastKept lo (.inl (by omega)), hmidLo]
    have hrun : ∀ rest, run add (.sum lo (lo + n) :: rest) xs =
        ((add left right).mapError .addition).bind fun s => run add rest (last.set lo s) := by
      intro rest
      rw [run_sum add hlong, hmidRun, hlastRun, run_merge add hlastLo hlastMid]
    rw [hleft, hright] at htree
    change _ = (add left right).mapError ReductionError.addition at htree
    unfold WorksOff
    rw [htree]
    refine ⟨fun s hs => ⟨last.set lo s, by rw [List.length_set]; omega, List.getElem?_set_self (by omega),
      fun i hi => ?_, fun rest => ?_⟩, fun e he rest => ?_⟩
    · rw [List.getElem?_set_ne (by omega), hlastKept i (by omega), hmidKept i (by omega)]
    · rw [hrun, hs]
      rfl
    · rw [hrun, he]
      rfl

end Reduction

open Reduction in
/-- The iterative sum is that of the tree. -/
theorem reduce_eq_tree {ε β : Type} (add : β → β → Except ε β) (xs : List β) : reduce add xs = tree add xs := by
  cases xs with
  | nil => rw [tree_nil, reduce]
  | cons x xs =>
    have hall : range 0 (x :: xs).length (x :: xs) = x :: xs := by rw [range, List.drop_zero, List.take_length]
    obtain ⟨hok, herror⟩ := worksOff add (List.length_pos_of_ne_nil (List.cons_ne_nil x xs))
      (show 0 + (x :: xs).length ≤ (x :: xs).length by rw [Nat.zero_add])
    rw [hall, Nat.zero_add] at hok herror
    unfold reduce
    rcases htree : tree add (x :: xs) with e | s
    · rw [herror e htree]
    · obtain ⟨after, -, hfirst, -, hrun⟩ := hok s htree
      rw [hrun, run]
      cases after with
      | nil => cases hfirst
      | cons y after =>
        cases hfirst
        rfl

/-- A backend reduces gradients to the sum of their tree. -/
theorem Backend.reduce_ok {α : Type} [Scalar α] {backend : Backend} {gradients : List (Tensor α)}
    {s : Tensor α} (h : backend.reduce gradients = .ok s) : Reduction.tree backend.add gradients = .ok s := by
  unfold Backend.reduce at h
  rw [reduce_eq_tree] at h
  split at h
  · rename_i heq
    cases h
    exact heq
  all_goals cases h

end ParamExchange
