/-
The layout of tensors. The places of the multi-indices of a shape in row-major order are all places in
memory, each once and in order; so what is listed in one order and then in the other is what it was. What
counts of a tensor is its shape and its elements: mapping and combining tensors does so to the elements,
whatever the memory is, and memory that is told to be in row-major order holds the elements.
-/
import Mathlib.Tactic
import ParamExchange.Tensor.Basic

namespace ParamExchange

/-! ## Places -/

namespace Shape

/-- A multi-index of a shape stays below the length of each axis. -/
theorem mem_indices {shape index : List Nat} : index ∈ indices shape ↔ List.Forall₂ (· < ·) index shape := by
  induction shape generalizing index with
  | nil => simp [indices]
  | cons d shape ih =>
    simp only [indices, List.mem_flatMap, List.mem_range, List.mem_map]
    constructor
    · rintro ⟨i, hi, rest, hrest, rfl⟩
      exact .cons hi (ih.1 hrest)
    · rintro (_ | ⟨hi, hrest⟩)
      exact ⟨_, hi, _, ih.2 hrest, rfl⟩

theorem reverse_mem_indices {shape index : List Nat} (h : index ∈ indices shape) :
    index.reverse ∈ indices shape.reverse :=
  mem_indices.2 (List.rel_reverse (mem_indices.1 h))

theorem length_strides (shape : List Nat) : (strides shape).length = shape.length := by
  induction shape with
  | nil => rfl
  | cons d shape ih => simp [strides, ih]

theorem range_mul (m n : Nat) :
    ((List.range m).flatMap fun i => (List.range n).map (i * n + ·)) = List.range (m * n) := by
  induction m with
  | zero => simp
  | succ m ih => rw [List.range_succ, List.flatMap_append, ih, List.flatMap_singleton, Nat.succ_mul, List.range_add]

/-- The places of the multi-indices, in order, are all places. -/
theorem map_offset_indices (shape : List Nat) : (indices shape).map (offset shape) = List.range (size shape) := by
  induction shape with
  | nil => rfl
  | cons d shape ih =>
    rw [indices, List.map_flatMap, size, ← range_mul, ← ih]
    simp only [List.map_map]
    rfl

theorem offset_lt {shape index : List Nat} (h : index ∈ indices shape) : offset shape index < size shape := by
  rw [← List.mem_range, ← map_offset_indices]
  exact List.mem_map_of_mem h

theorem offset_reverse_lt {shape index : List Nat} (h : index ∈ indices shape.reverse) :
    offset shape index.reverse < size shape := by
  apply offset_lt
  simpa using reverse_mem_indices h

/-- What is listed for the multi-indices stands at their places. -/
theorem getD_map_indices {β : Type} {shape index : List Nat} (h : index ∈ indices shape) (f : List Nat → β) (b : β) :
    ((indices shape).map f).getD (offset shape index) b = f index := by
  obtain ⟨k, hk, rfl⟩ := List.getElem_of_mem h
  have hplace : offset shape (indices shape)[k] = k := by
    have hrange := congrArg (·[k]?) (map_offset_indices shape)
    rw [List.getElem?_map, List.getElem?_eq_getElem hk, List.getElem?_range (length_indices shape ▸ hk)] at hrange
    exact Option.some.inj hrange
  rw [hplace, List.getD_eq_getElem?_getD, List.getElem?_map, List.getElem?_eq_getElem hk]
  rfl

/-- A list is what stands in it at the places of the multi-indices. -/
theorem map_getD_offset {β : Type} {shape : List Nat} {xs : List β} (h : xs.length = size shape) (b : β) :
    ((indices shape).map fun index => xs.getD (offset shape index) b) = xs := by
  have hmap : ((indices shape).map fun index => xs.getD (offset shape index) b) =
      (List.range xs.length).map (xs.getD · b) := by
    rw [h, ← map_offset_indices, List.map_map]
    rfl
  rw [hmap]
  refine List.ext_getElem (by simp) fun k hk hk' => ?_
  simp [List.getD_eq_getElem?_getD, hk']

/-- The place of a multi-index is the sum of its steps along each axis. -/
theorem offset_eq_sum {shape index : List Nat} (h : index ∈ indices shape) :
    offset shape index = (List.zipWith (· * ·) index (strides shape)).sum := by
  rw [mem_indices] at h
  induction h with
  | nil => rfl
  | cons _ _ ih => simp [offset, strides, ih]

end Shape

namespace Tensor

variable {α : Type} [Zero α]

/-! ## Orders -/

theorem transpose_map {β : Type} [Zero β] (f : α → β) {shape : List Nat} {xs : List α}
    (h : xs.length = Shape.size shape) :
    transpose shape (xs.map f) = (transpose shape xs).map f := by
  rw [transpose, transpose, List.map_map]
  refine List.map_congr_left fun index hindex => ?_
  have hlt : Shape.offset shape index.reverse < xs.length := h ▸ Shape.offset_reverse_lt hindex
  simp [List.getD_eq_getElem?_getD, hlt]

theorem transpose_zipWith (f : α → α → α) {shape : List Nat} {xs ys : List α} (hx : xs.length = Shape.size shape)
    (hy : ys.length = Shape.size shape) :
    transpose shape (List.zipWith f xs ys) = List.zipWith f (transpose shape xs) (transpose shape ys) := by
  rw [transpose, transpose, transpose, List.zipWith_map, List.zipWith_self]
  refine List.map_congr_left fun index hindex => ?_
  simp [List.getD_eq_getElem?_getD, hx, hy, Shape.offset_reverse_lt hindex]

/-- What is listed in the one order and then in the other is what it was. -/
theorem transpose_transpose {shape : List Nat} {xs : List α} (h : xs.length = Shape.size shape) :
    transpose shape.reverse (transpose shape xs) = xs := by
  rw [transpose, List.reverse_reverse]
  calc ((Shape.indices shape).map fun index =>
        (transpose shape xs).getD (Shape.offset shape.reverse index.reverse) 0)
      = (Shape.indices shape).map fun index => xs.getD (Shape.offset shape index) 0 := by
        refine List.map_congr_left fun index hindex => ?_
        rw [transpose, Shape.getD_map_indices (Shape.reverse_mem_indices hindex), List.reverse_reverse]
    _ = xs := Shape.map_getD_offset h 0

/-! ## Elements -/

/-- Two tensors have the same shape and the same elements. -/
structure Same (t u : Tensor α) : Prop where
  shape : t.shape = u.shape
  elements : t.elements = u.elements

theorem Same.refl (t : Tensor α) : Same t t := ⟨rfl, rfl⟩

theorem length_elements (t : Tensor α) : t.elements.length = Shape.size t.shape := t.length_inOrder .rowMajor

theorem elements_of_rowMajor {t : Tensor α} (h : t.order = .rowMajor) : t.elements = t.memory := by
  unfold elements inOrder
  rw [h]

theorem elements_of_columnMajor {t : Tensor α} (h : t.order = .columnMajor) :
    t.elements = transpose t.shape.reverse t.memory := by
  unfold elements inOrder
  rw [h]

@[simp] theorem elements_ofList (shape : List Nat) (xs : List α) (h : xs.length = Shape.size shape) :
    (ofList shape xs h).elements = xs := rfl

omit [Zero α] in
@[simp] theorem shape_ofList (shape : List Nat) (xs : List α) (h : xs.length = Shape.size shape) :
    (ofList shape xs h).shape = shape := rfl

omit [Zero α] in
@[simp] theorem shape_map {β : Type} (f : α → β) (t : Tensor α) : (t.map f).shape = t.shape := rfl

@[simp] theorem elements_map {β : Type} [Zero β] (f : α → β) (t : Tensor α) :
    (t.map f).elements = t.elements.map f := by
  cases h : t.order with
  | rowMajor =>
    rw [elements_of_rowMajor h, elements_of_rowMajor (t := t.map f) h]
    rfl
  | columnMajor =>
    rw [elements_of_columnMajor h, elements_of_columnMajor (t := t.map f) h]
    exact transpose_map f (t.length_memory.trans (Shape.size_reverse t.shape).symm)

/-- The elements in column-major order are listed in the same way as those in row-major order. -/
theorem transpose_inOrder (u : Tensor α) : transpose u.shape.reverse (u.inOrder .columnMajor) = u.elements := by
  unfold inOrder
  cases h : u.order with
  | rowMajor =>
    rw [elements_of_rowMajor h]
    exact transpose_transpose u.length_memory
  | columnMajor => exact (elements_of_columnMajor h).symm

/-- What is combined has one shape, and the result is laid out as the first tensor is. -/
theorem of_zip? {f : α → α → α} {t u s : Tensor α} (h : zip? f t u = some s) :
    u.shape = t.shape ∧ s.shape = t.shape ∧ s.order = t.order ∧
      s.memory = List.zipWith f t.memory (u.inOrder t.order) := by
  unfold zip? at h
  split at h
  · rename_i hshape
    cases h
    exact ⟨hshape, rfl, rfl, rfl⟩
  · cases h

theorem elements_zip? {f : α → α → α} {t u s : Tensor α} (h : zip? f t u = some s) :
    s.elements = List.zipWith f t.elements u.elements := by
  obtain ⟨hshape, hsame, horder, hmemory⟩ := of_zip? h
  cases ht : t.order with
  | rowMajor =>
    rw [elements_of_rowMajor ht, elements_of_rowMajor (horder.trans ht), hmemory, ht]
    rfl
  | columnMajor =>
    have hsize : (u.inOrder .columnMajor).length = Shape.size t.shape.reverse := by
      rw [u.length_inOrder, hshape, Shape.size_reverse]
    rw [elements_of_columnMajor ht, elements_of_columnMajor (horder.trans ht), hmemory, ht, hsame,
      transpose_zipWith f (t.length_memory.trans (Shape.size_reverse _).symm) hsize, ← u.transpose_inOrder, hshape]

theorem exists_zip? (f : α → α → α) {t u : Tensor α} (h : u.shape = t.shape) : ∃ s, zip? f t u = some s := by
  unfold zip?
  rw [dif_pos h]
  exact ⟨_, rfl⟩

theorem zip?_of_shape_ne (f : α → α → α) {t u : Tensor α} (h : u.shape ≠ t.shape) : zip? f t u = none := by
  unfold zip?
  rw [dif_neg h]

theorem Same.map {t u : Tensor α} (h : Same t u) (f : α → α) : Same (t.map f) (u.map f) :=
  ⟨h.shape, by rw [elements_map, elements_map, h.elements]⟩

/-- Tensors with the same shape and elements are combined alike, or are not combined at all. -/
theorem Same.zip? {t u : Tensor α} (h : Same t u) (f : α → α → α) (x : Tensor α) :
    Tensor.zip? f t x = none ∧ Tensor.zip? f u x = none ∨
      ∃ s r, Tensor.zip? f t x = some s ∧ Tensor.zip? f u x = some r ∧ Same s r := by
  by_cases hshape : x.shape = t.shape
  · obtain ⟨s, hs⟩ := exists_zip? f hshape
    obtain ⟨r, hr⟩ := exists_zip? f (hshape.trans h.shape)
    refine .inr ⟨s, r, hs, hr, ?_, ?_⟩
    · rw [(of_zip? hs).2.1, (of_zip? hr).2.1, h.shape]
    · rw [elements_zip? hs, elements_zip? hr, h.elements]
  · exact .inl ⟨zip?_of_shape_ne f hshape, zip?_of_shape_ne f fun heq => hshape (heq.trans h.shape.symm)⟩

/-! ## Memory in row-major order -/

theorem sum_zipWith_congr {index shape xs ys : List Nat} (h : List.Forall₂ (· < ·) index shape)
    (hx : xs.length = shape.length) (hy : ys.length = shape.length)
    (hall : ((shape.zip (xs.zip ys)).all fun a => a.1 == 1 || a.2.1 == a.2.2) = true) :
    (List.zipWith (· * ·) index xs).sum = (List.zipWith (· * ·) index ys).sum := by
  induction h generalizing xs ys with
  | nil => simp
  | @cons i d index shape hlt _ ih =>
    obtain ⟨x, xs, rfl⟩ := List.exists_cons_of_length_eq_add_one hx
    obtain ⟨y, ys, rfl⟩ := List.exists_cons_of_length_eq_add_one hy
    simp only [List.zip_cons_cons, List.all_cons, Bool.and_eq_true, Bool.or_eq_true, beq_iff_eq] at hall
    obtain ⟨hfirst, hrest⟩ := hall
    have hsteps : i * x = i * y := by
      rcases hfirst with hone | hsame
      · -- the only place on an axis of length one is the first one
        obtain rfl : i = 0 := by omega
        simp
      · rw [hsame]
    simp [hsteps, ih (Nat.succ.inj hx) (Nat.succ.inj hy) hrest]

theorem size_eq_zero {shape : List Nat} (h : shape.contains 0 = true) : Shape.size shape = 0 := by
  induction shape with
  | nil => simp at h
  | cons d shape ih =>
    simp only [List.contains_cons, Bool.or_eq_true, beq_iff_eq] at h
    rcases h with rfl | h
    · simp [Shape.size]
    · simp [Shape.size, ih h]

/-- Memory that is told to be in row-major order holds the elements in this order. -/
theorem elements_of_isContiguous {t : Tensor α} (h : t.isContiguous = true) : t.elements = t.memory := by
  cases horder : t.order with
  | rowMajor => exact elements_of_rowMajor horder
  | columnMajor =>
    rw [elements_of_columnMajor horder]
    simp only [isContiguous, strides, horder, Bool.or_eq_true] at h
    rcases h with hempty | hstrides
    · have hsize := size_eq_zero hempty
      have hmemory := t.length_memory
      rw [hsize] at hmemory
      rw [List.length_eq_zero_iff.1 hmemory]
      apply List.length_eq_zero_iff.1
      rw [length_transpose, Shape.size_reverse, hsize]
    · rw [transpose, List.reverse_reverse]
      calc ((Shape.indices t.shape).map fun index =>
            t.memory.getD (Shape.offset t.shape.reverse index.reverse) 0)
          = (Shape.indices t.shape).map fun index => t.memory.getD (Shape.offset t.shape index) 0 := by
            refine List.map_congr_left fun index hindex => ?_
            have hlength := (Shape.mem_indices.1 hindex).length_eq
            rw [Shape.offset_eq_sum hindex, Shape.offset_eq_sum (Shape.reverse_mem_indices hindex)]
            congr 1
            rw [← sum_zipWith_congr (Shape.mem_indices.1 hindex) (by simp [Shape.length_strides])
              (Shape.length_strides _) hstrides, ← List.sum_reverse]
            rw [List.reverse_zipWith (by simp [Shape.length_strides, hlength]), List.reverse_reverse]
        _ = t.memory := Shape.map_getD_offset t.length_memory 0

end Tensor

end ParamExchange
