/-
The additions of a reduction, one after another. Working off the stack of tasks is making a list of
additions that only the number of elements decides: those of the first half, those of the second half, and
that of the two sums. Each of them is of two places in the list, and all together connect its elements, so
an addition that needs operands of one kind succeeds throughout exactly if all elements are of one kind.
-/
import ParamExchange.Proofs.Tensor.Layout
import ParamExchange.Proofs.Worker.Reduction

namespace ParamExchange

namespace Reduction

variable {ε β κ : Type}

/-! ## Additions in order -/

/-- The additions that sum `n` elements from `lo` on, in their order. Each is told by the two places of its
operands; the sum of a range stands at the first place of the range. -/
def merges (lo n : Nat) : List (Nat × Nat) :=
  if 1 < n then merges lo (n / 2) ++ (merges (lo + n / 2) (n - n / 2) ++ [(lo, lo + n / 2)]) else []
termination_by n
decreasing_by all_goals omega

/-- Makes additions one after another. -/
def mergeAll (add : β → β → Except ε β) (places : List (Nat × Nat)) (xs : List β) :
    Except (ReductionError ε) (List β) :=
  places.foldlM (fun ys p => merge add p.1 p.2 ys) xs

theorem merges_of_le_one {n : Nat} (h : n ≤ 1) (lo : Nat) : merges lo n = [] := by
  rw [merges, if_neg (by omega)]

theorem merges_of_one_lt {n : Nat} (h : 1 < n) (lo : Nat) :
    merges lo n = merges lo (n / 2) ++ (merges (lo + n / 2) (n - n / 2) ++ [(lo, lo + n / 2)]) := by
  rw [merges, if_pos h]

/-- An addition is of an earlier place and a later one, both in the range. -/
theorem lt_of_mem_merges {lo n : Nat} {p : Nat × Nat} (h : p ∈ merges lo n) :
    lo ≤ p.1 ∧ p.1 < p.2 ∧ p.2 < lo + n := by
  induction n using Nat.strong_induction_on generalizing lo with
  | _ n ih =>
    by_cases hn : 1 < n
    · simp only [merges_of_one_lt hn, List.mem_append, List.mem_singleton] at h
      rcases h with hleft | hright | rfl
      · have := ih (n / 2) (by omega) hleft
        omega
      · have := ih (n - n / 2) (by omega) hright
        omega
      · simp only
        omega
    · simp [merges_of_le_one (not_lt.1 hn)] at h

/-- The additions of a whole list are of places in the list. -/
theorem inside_of_mem_merges (n : Nat) : ∀ p ∈ merges 0 n, p.1 < n ∧ p.2 < n := by
  intro p hp
  have := lt_of_mem_merges hp
  omega

/-- One addition fewer than there are elements. -/
theorem length_merges (lo n : Nat) : (merges lo n).length = n - 1 := by
  induction n using Nat.strong_induction_on generalizing lo with
  | _ n ih =>
    by_cases hn : 1 < n
    · simp only [merges_of_one_lt hn, List.length_append, List.length_singleton, ih (n / 2) (by omega),
        ih (n - n / 2) (by omega)]
      omega
    · rw [merges_of_le_one (not_lt.1 hn), List.length_nil]
      omega

example : merges 0 5 = [(0, 1), (3, 4), (2, 3), (0, 2)] := by simp [merges_of_one_lt, merges_of_le_one]

theorem mergeAll_append (add : β → β → Except ε β) (first second : List (Nat × Nat)) (xs : List β) :
    mergeAll add (first ++ second) xs = (mergeAll add first xs).bind (mergeAll add second) :=
  List.foldlM_append

theorem mergeAll_cons (add : β → β → Except ε β) (p : Nat × Nat) (places : List (Nat × Nat)) (xs : List β) :
    mergeAll add (p :: places) xs = (merge add p.1 p.2 xs).bind (mergeAll add places) :=
  List.foldlM_cons

/-- An addition of two places in the list depends on nothing else. -/
theorem merge_inside (add : β → β → Except ε β) {i j : Nat} {xs : List β} (hi : i < xs.length) (hj : j < xs.length) :
    merge add i j xs = ((add xs[i] xs[j]).mapError .addition).map (xs.set i) := by
  rw [merge, List.getElem?_eq_getElem hi, List.getElem?_eq_getElem hj]
  simp only
  cases add xs[i] xs[j] <;> rfl

/-- Additions of places in the list only fail because one of them does. -/
theorem mergeAll_cases (add : β → β → Except ε β) {places : List (Nat × Nat)} {xs : List β}
    (hplaces : ∀ p ∈ places, p.1 < xs.length ∧ p.2 < xs.length) :
    (∃ ys, mergeAll add places xs = .ok ys ∧ ys.length = xs.length) ∨
      ∃ cause, mergeAll add places xs = .error (.addition cause) := by
  induction places generalizing xs with
  | nil => exact .inl ⟨xs, rfl, rfl⟩
  | cons p places ih =>
    obtain ⟨⟨hi, hj⟩, hplaces⟩ := List.forall_mem_cons.1 hplaces
    rw [mergeAll_cons, merge_inside add hi hj]
    rcases add xs[p.1] xs[p.2] with cause | s
    · exact .inr ⟨cause, rfl⟩
    · have hlen : (xs.set p.1 s).length = xs.length := List.length_set
      rw [← hlen] at hplaces ⊢
      exact ih hplaces

/-- Additions that fail do so because one of two elements does. -/
theorem exists_add_error {add : β → β → Except ε β} {places : List (Nat × Nat)} {xs : List β} {cause : ε}
    (h : mergeAll add places xs = .error (.addition cause)) : ∃ x y, add x y = .error cause := by
  induction places generalizing xs with
  | nil => cases h
  | cons p places ih =>
    rw [mergeAll_cons, merge] at h
    split at h
    · rename_i x y _ _
      rcases hadd : add x y with e | s
      · rw [hadd] at h
        cases h
        exact ⟨x, y, hadd⟩
      · rw [hadd] at h
        exact ih h
    · cases h

/-- A task on a range is worked off by the additions of the range. -/
theorem run_eq_mergeAll (add : β → β → Except ε β) (lo n : Nat) (rest : List Task) (xs : List β) :
    run add (.sum lo (lo + n) :: rest) xs = (mergeAll add (merges lo n) xs).bind (run add rest) := by
  induction n using Nat.strong_induction_on generalizing lo rest xs with
  | _ n ih =>
    by_cases hn : 1 < n
    · have hend : lo + n / 2 + (n - n / 2) = lo + n := by omega
      have hright := ih (n - n / 2) (by omega) (lo + n / 2) (.merge lo (lo + n / 2) :: rest)
      rw [hend] at hright
      rw [run_sum add hn, ih (n / 2) (by omega), merges_of_one_lt hn, mergeAll_append]
      -- the first half is summed, or its failure ends both sides
      rcases mergeAll add (merges lo (n / 2)) xs with e | ys
      · rfl
      show run add (.sum (lo + n / 2) (lo + n) :: .merge lo (lo + n / 2) :: rest) ys =
        (mergeAll add (merges (lo + n / 2) (n - n / 2) ++ [(lo, lo + n / 2)]) ys).bind (run add rest)
      -- then the second half, in the list that the first one left
      rw [hright, mergeAll_append]
      rcases mergeAll add (merges (lo + n / 2) (n - n / 2)) ys with e | zs
      · rfl
      show run add (.merge lo (lo + n / 2) :: rest) zs =
        (mergeAll add [(lo, lo + n / 2)] zs).bind (run add rest)
      rw [run, mergeAll_cons]
      cases merge add lo (lo + n / 2) zs <;> rfl
    · rw [run, if_neg (by omega), merges_of_le_one (not_lt.1 hn)]
      rfl

/-- The whole list is summed by the additions of all its elements. -/
theorem run_all (add : β → β → Except ε β) (xs : List β) :
    run add [.sum 0 xs.length] xs = mergeAll add (merges 0 xs.length) xs := by
  have hrun := run_eq_mergeAll add 0 xs.length [] xs
  rw [Nat.zero_add] at hrun
  rw [hrun]
  rcases mergeAll add (merges 0 xs.length) xs with e | ys
  · rfl
  · exact run.eq_1 add ys

/-! ## Kinds of elements -/

/-- An addition that needs operands of one kind, gives a sum of this kind, and otherwise tells the kinds. -/
structure KeepsKind (add : β → β → Except ε β) (kind : β → κ) (clash : κ → κ → ε) : Prop where
  ok : ∀ x y, kind x = kind y → ∃ s, add x y = .ok s ∧ kind s = kind x
  error : ∀ x y, kind x ≠ kind y → add x y = .error (clash (kind x) (kind y))

/-- Some additions end at the first one of two kinds: those before it give their sums, which are of the
kinds of the elements they replace, and its operands are of kinds `k` and `l`. -/
def ClashesFirst (add : β → β → Except ε β) (kind : β → κ) (places : List (Nat × Nat)) (xs : List β) (k l : κ) :
    Prop :=
  ∃ before i j after sums x y, places = before ++ (i, j) :: after ∧ mergeAll add before xs = .ok sums ∧
    sums.map kind = xs.map kind ∧ sums[i]? = some x ∧ sums[j]? = some y ∧ kind x = k ∧ kind y = l ∧ k ≠ l

/-- The additions connect all elements of a range. -/
theorem forall_merges_iff (f : Nat → κ) (lo n : Nat) :
    (∀ p ∈ merges lo n, f p.1 = f p.2) ↔ ∀ i, lo ≤ i → i < lo + n → f i = f lo := by
  constructor
  · intro h
    induction n using Nat.strong_induction_on generalizing lo with
    | _ n ih =>
      intro i hlo hi
      by_cases hn : 1 < n
      · simp only [merges_of_one_lt hn, List.mem_append, List.mem_singleton] at h
        by_cases hhalf : i < lo + n / 2
        · exact ih (n / 2) (by omega) lo (fun p hp => h p (.inl hp)) i hlo hhalf
        · -- an element of the second half has the kind of the half's first element
          calc f i = f (lo + n / 2) :=
                ih (n - n / 2) (by omega) (lo + n / 2) (fun p hp => h p (.inr (.inl hp))) i (by omega) (by omega)
            _ = f lo := (h (lo, lo + n / 2) (.inr (.inr rfl))).symm
      · obtain rfl : i = lo := by omega
        rfl
  · intro h p hp
    obtain ⟨hlo, hlt, hhi⟩ := lt_of_mem_merges hp
    rw [h p.1 hlo (by omega), h p.2 (by omega) hhi]

section

variable {add : β → β → Except ε β} {kind : β → κ} {clash : κ → κ → ε}

/-- Additions leave an element of the same kind at every place, and the first one of two kinds ends them. -/
theorem KeepsKind.mergeAll_cases (h : KeepsKind add kind clash) {places : List (Nat × Nat)} {xs : List β}
    (hplaces : ∀ p ∈ places, p.1 < xs.length ∧ p.2 < xs.length) :
    ((∀ p ∈ places, (xs.map kind)[p.1]? = (xs.map kind)[p.2]?) ∧
      ∃ ys, mergeAll add places xs = .ok ys ∧ ys.map kind = xs.map kind) ∨
    ∃ k l, ClashesFirst add kind places xs k l ∧ mergeAll add places xs = .error (.addition (clash k l)) := by
  induction places generalizing xs with
  | nil => exact .inl ⟨nofun, xs, rfl, rfl⟩
  | cons p places ih =>
    obtain ⟨⟨hi, hj⟩, hplaces⟩ := List.forall_mem_cons.1 hplaces
    have hx : xs[p.1]? = some xs[p.1] := List.getElem?_eq_getElem hi
    have hy : xs[p.2]? = some xs[p.2] := List.getElem?_eq_getElem hj
    by_cases hkind : kind xs[p.1] = kind xs[p.2]
    · obtain ⟨s, hs, hsum⟩ := h.ok _ _ hkind
      -- the sum has the kind of the element that it replaces, so the others see the kinds they saw before
      have hkinds : (xs.set p.1 s).map kind = xs.map kind := by
        rw [List.map_set, hsum, ← List.getElem_map kind, List.set_getElem_self]
        simpa using hi
      have hrest (places : List (Nat × Nat)) :
          mergeAll add (p :: places) xs = mergeAll add places (xs.set p.1 s) := by
        rw [mergeAll_cons, merge_inside add hi hj, hs]
        rfl
      have hinside : ∀ q ∈ places, q.1 < (xs.set p.1 s).length ∧ q.2 < (xs.set p.1 s).length := by
        simpa using hplaces
      rw [hrest, ← hkinds]
      rcases ih hinside with
        ⟨hsame, hok⟩ | ⟨k, l, ⟨before, i, j, after, sums, x, y, rfl, hbefore, hclash⟩, herror⟩
      · refine .inl ⟨List.forall_mem_cons.2 ⟨?_, hsame⟩, hok⟩
        simp [hkinds, hx, hy, hkind]
      · refine .inr ⟨k, l, ⟨p :: before, i, j, after, sums, x, y, rfl, ?_, ?_⟩, herror⟩
        · rw [hrest, hbefore]
        · rw [← hkinds]
          exact hclash
    · -- this one is of two kinds, and nothing was added before it
      refine .inr ⟨_, _, ⟨[], p.1, p.2, places, xs, _, _, rfl, rfl, rfl, hx, hy, rfl, rfl, hkind⟩, ?_⟩
      rw [mergeAll_cons, merge_inside add hi hj, h.error _ _ hkind]
      rfl

/-- The kinds at the two places of the first addition of two kinds. -/
theorem ClashesFirst.getElem? {places : List (Nat × Nat)} {xs : List β} {k l : κ}
    (h : ClashesFirst add kind places xs k l) :
    k ≠ l ∧ ∃ p ∈ places, (xs.map kind)[p.1]? = some k ∧ (xs.map kind)[p.2]? = some l := by
  obtain ⟨before, i, j, after, sums, x, y, rfl, -, hkinds, hx, hy, rfl, rfl, hne⟩ := h
  refine ⟨hne, (i, j), by simp, ?_⟩
  rw [← hkinds]
  simp [hx, hy]

/-- The additions of all elements meet one kind only exactly if there is one kind only. -/
theorem forall_merges_map_iff {xs : List β} :
    (∀ p ∈ merges 0 xs.length, (xs.map kind)[p.1]? = (xs.map kind)[p.2]?) ↔
      ∀ x ∈ xs, ∀ y ∈ xs, kind x = kind y := by
  rw [forall_merges_iff (fun i => (xs.map kind)[i]?)]
  constructor
  · intro h x hx y hy
    obtain ⟨i, hi, rfl⟩ := List.getElem_of_mem hx
    obtain ⟨j, hj, rfl⟩ := List.getElem_of_mem hy
    have hsame := (h i (Nat.zero_le i) (by omega)).trans (h j (Nat.zero_le j) (by omega)).symm
    simpa [hi, hj] using hsame
  · intro h i _ hi
    have hi : i < xs.length := by omega
    have hfirst : 0 < xs.length := by omega
    simpa [hi, hfirst] using h _ (List.getElem_mem hi) _ (List.getElem_mem hfirst)

end

end Reduction

/-! ## Reductions -/

open Reduction

/-- A reduction is its additions, and what then stands at the first place. -/
theorem reduce_eq_mergeAll {ε β : Type} (add : β → β → Except ε β) {xs : List β} (hne : xs ≠ []) :
    reduce add xs = (mergeAll add (merges 0 xs.length) xs).bind fun
      | [] => .error .empty
      | s :: _ => .ok s := by
  obtain ⟨x, xs, rfl⟩ := List.exists_cons_of_ne_nil hne
  unfold reduce
  rw [run_all]
  rcases mergeAll add (merges 0 (x :: xs).length) (x :: xs) with e | (_ | ⟨s, sums⟩) <;> rfl

/-- A reduction fails only because an addition does. -/
theorem addition_of_reduce_error {ε β : Type} {add : β → β → Except ε β} {xs : List β} (hne : xs ≠ [])
    {e : ReductionError ε} (h : reduce add xs = .error e) : ∃ cause, e = .addition cause := by
  rw [reduce_eq_mergeAll add hne] at h
  rcases mergeAll_cases add (inside_of_mem_merges xs.length) with ⟨ys, hys, hlen⟩ | ⟨cause, hcause⟩
  · -- the sum stands at the first place
    have hpos := List.length_pos_of_ne_nil hne
    obtain ⟨s, sums, rfl⟩ := List.exists_cons_of_length_pos (hlen ▸ hpos)
    rw [hys] at h
    cases h
  · rw [hcause] at h
    cases h
    exact ⟨cause, rfl⟩

/-- A reduction of some elements fails only because an addition of two elements does. -/
theorem exists_add_error_of_reduce_error {ε β : Type} {add : β → β → Except ε β} {xs : List β} (hne : xs ≠ [])
    {e : ReductionError ε} (h : reduce add xs = .error e) :
    ∃ cause x y, e = .addition cause ∧ add x y = .error cause := by
  obtain ⟨cause, rfl⟩ := addition_of_reduce_error hne h
  rw [reduce_eq_mergeAll add hne] at h
  rcases hmerge : mergeAll add (merges 0 xs.length) xs with e | (_ | ⟨s, sums⟩)
  · rw [hmerge] at h
    cases h
    obtain ⟨x, y, hadd⟩ := exists_add_error hmerge
    exact ⟨cause, x, y, rfl, hadd⟩
  · rw [hmerge] at h
    cases h
  · rw [hmerge] at h
    cases h

/-- On the host, tensors of one shape have a sum of this shape, and others are refused with their shapes. -/
theorem Backend.keepsKind_cpu {α : Type} [Scalar α] :
    KeepsKind (Backend.cpu.add (α := α)) (·.shape) WorkerError.incompatibleShapes := by
  constructor
  · intro x y hshape
    obtain ⟨s, hs⟩ := Tensor.exists_zip? (fun x y => x + y) (t := x) (u := y) hshape.symm
    refine ⟨s, ?_, (Tensor.of_zip? hs).2.1⟩
    simp only [Backend.add, Tensor.add?, hs]
  · intro x y hshape
    simp only [Backend.add, Tensor.add?, Tensor.zip?_of_shape_ne _ (Ne.symm hshape)]

/-- A reduction on the host gives a sum if the additions meet one shape only, and otherwise reports the first
two shapes they meet. -/
theorem Backend.reduce_cpu_cases {α : Type} [Scalar α] {gradients : List (Tensor α)} (hne : gradients ≠ []) :
    ((∀ x ∈ gradients, ∀ y ∈ gradients, x.shape = y.shape) ∧ ∃ s, Backend.cpu.reduce gradients = .ok s) ∨
    ∃ expected got,
      ClashesFirst Backend.cpu.add (·.shape) (merges 0 gradients.length) gradients expected got ∧
      Backend.cpu.reduce gradients = .error (.error (.incompatibleShapes expected got)) := by
  unfold Backend.reduce
  rw [reduce_eq_mergeAll _ hne]
  rcases (Backend.keepsKind_cpu (α := α)).mergeAll_cases (inside_of_mem_merges gradients.length) with
    ⟨hsame, sums, hsums, hkinds⟩ | ⟨expected, got, hclash, herror⟩
  · refine .inl ⟨forall_merges_map_iff.1 hsame, ?_⟩
    rw [hsums]
    rcases sums with _ | ⟨s, sums⟩
    · -- there are as many sums as gradients
      exact absurd (List.map_eq_nil_iff.1 hkinds.symm) hne
    · exact ⟨s, rfl⟩
  · refine .inr ⟨expected, got, hclash, ?_⟩
    rw [herror]
    rfl

/-- A reduction is the balanced tree: its additions are made in the order of the tree, each of two places in
the list, and it gives the sum of the tree or the failure of the first addition that fails. On the host it
gives a sum exactly if all gradients have one shape, and otherwise reports the shapes of the first addition
of two shapes. -/
theorem reduce_balanced {ε β α : Type} [Scalar α] (add : β → β → Except ε β) {xs : List β} (hxs : xs ≠ [])
    {gradients : List (Tensor α)} (hgradients : gradients ≠ []) :
    (reduce add xs = tree add xs ∧
      run add [.sum 0 xs.length] xs = mergeAll add (merges 0 xs.length) xs ∧
      (merges 0 xs.length).length = xs.length - 1 ∧
      (∀ p ∈ merges 0 xs.length, p.1 < p.2 ∧ p.2 < xs.length) ∧
      ∀ e, reduce add xs = .error e → ∃ cause, e = .addition cause) ∧
    ((∃ s, Backend.cpu.reduce gradients = .ok s) ↔ ∀ x ∈ gradients, ∀ y ∈ gradients, x.shape = y.shape) ∧
    ∀ stop, Backend.cpu.reduce gradients = .error stop → ∃ expected got,
      ClashesFirst Backend.cpu.add (·.shape) (merges 0 gradients.length) gradients expected got ∧
      stop = .error (.incompatibleShapes expected got) := by
  have hmerges : ∀ p ∈ merges 0 xs.length, p.1 < p.2 ∧ p.2 < xs.length := by
    intro p hp
    have := lt_of_mem_merges hp
    omega
  refine ⟨⟨reduce_eq_tree add xs, run_all add xs, length_merges 0 _, hmerges,
    fun e he => addition_of_reduce_error hxs he⟩, ?_⟩
  rcases Backend.reduce_cpu_cases hgradients with ⟨hsame, s, hs⟩ | ⟨expected, got, hclash, herror⟩
  · refine ⟨iff_of_true ⟨s, hs⟩ hsame, fun stop hstop => ?_⟩
    rw [hs] at hstop
    cases hstop
  · refine ⟨iff_of_false (fun ⟨s, hs⟩ => ?_) fun hsame => ?_, fun stop hstop => ?_⟩
    · rw [herror] at hs
      cases hs
    · -- two shapes were met, so not all are the same
      obtain ⟨hne, p, hp, hi, hj⟩ := hclash.getElem?
      have hplace := forall_merges_map_iff.2 hsame p hp
      rw [hi, hj] at hplace
      exact hne (Option.some.inj hplace)
    · rw [herror] at hstop
      cases hstop
      exact ⟨expected, got, hclash, rfl⟩

/-- The last one of three gradients has another shape, which the first addition of the second half reports. -/
theorem reduce_balanced_three :
    let gradients : List (Tensor Rat) := [.zeros [2], .zeros [2], .zeros [3]]
    merges 0 gradients.length = [(1, 2), (0, 1)] ∧
      reduce Backend.cpu.add gradients = tree Backend.cpu.add gradients ∧
      Backend.cpu.reduce gradients = .error (.error (.incompatibleShapes [2] [3])) := by
  intro gradients
  have hmerges : merges 0 gradients.length = [(1, 2), (0, 1)] := by
    simp [gradients, merges_of_one_lt, merges_of_le_one]
  have hne : gradients ≠ [] := List.cons_ne_nil _ _
  obtain ⟨⟨htree, -⟩, hiff, herror⟩ := reduce_balanced Backend.cpu.add hne hne
  refine ⟨hmerges, htree, ?_⟩
  rcases hreduce : Backend.cpu.reduce gradients with stop | s
  · obtain ⟨expected, got, hclash, rfl⟩ := herror stop hreduce
    obtain ⟨hdiffer, p, hp, hi, hj⟩ := hclash.getElem?
    rw [hmerges] at hp
    have hcases : p = (1, 2) ∨ p = (0, 1) := by simpa using hp
    rcases hcases with rfl | rfl
    · cases hi
      cases hj
      rfl
    · cases hi
      cases hj
      exact absurd rfl hdiffer
  · have hsame : [2] = [3] := hiff.1 ⟨s, hreduce⟩ (.zeros [2]) (by simp [gradients]) (.zeros [3]) (by simp [gradients])
    cases hsame

end ParamExchange
