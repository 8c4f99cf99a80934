/-
Tensors as they are indexed. A tensor is told by its shape and by its element at each multi-index; every tensor is
one whose elements were listed in row-major order, or the view of such a one with all axes reversed. Arithmetic goes
element by element: what is repeated to fill a shape is read at the multi-index that stays where its axes have one
place only.
-/
import ParamExchange.Proofs.Tensor.Layout

namespace ParamExchange

/-! ## Repeated multi-indices -/

namespace Shape

/-- Where the axes of one shape are those of another one or have one place, its repeated index stays inside. -/
theorem forall₂_source {shape target index : List Nat} (hlength : shape.length = target.length)
    (hfits : ((shape.zip target).all fun p => p.1 == p.2 || p.1 == 1) = true) (h : List.Forall₂ (· < ·) index target) :
    List.Forall₂ (· < ·) (List.zipWith (fun d i => if d = 1 then 0 else i) shape index) shape := by
  induction h generalizing shape with
  | nil =>
    rw [List.length_eq_zero_iff.1 hlength]
    exact .nil
  | @cons i d index target hlt _ ih =>
    obtain ⟨e, shape, rfl⟩ := List.exists_cons_of_length_eq_add_one hlength
    simp only [List.zip_cons_cons, List.all_cons, Bool.and_eq_true, Bool.or_eq_true, beq_iff_eq] at hfits
    obtain ⟨hfirst, hrest⟩ := hfits
    refine .cons ?_ (ih (Nat.succ.inj hlength) hrest)
    show (if e = 1 then 0 else i) < e
    split <;> omega

/-- What is repeated at a multi-index of the larger shape has a place in the smaller one. -/
theorem source_mem_indices {shape target index : List Nat} (hfits : fits shape target = true)
    (h : index ∈ indices target) : source shape index ∈ indices shape := by
  rw [mem_indices] at h ⊢
  rw [fits, Bool.and_eq_true, decide_eq_true_eq] at hfits
  have hlength := h.length_eq
  rw [source, hlength]
  exact forall₂_source (by rw [List.length_drop]; omega) hfits.2 (List.forall₂_drop _ h)

theorem fits_self (shape : List Nat) : fits shape shape = true := by
  have hzip : ∀ shape : List Nat, ((shape.zip shape).all fun p => p.1 == p.2 || p.1 == 1) = true := by
    intro shape
    induction shape with
    | nil => rfl
    | cons d shape ih => simpa using ih
  simp [fits, hzip]

theorem source_self {shape index : List Nat} (h : index ∈ indices shape) : source shape index = index := by
  rw [mem_indices] at h
  rw [source, h.length_eq, Nat.sub_self, List.drop_zero]
  induction h with
  | nil => rfl
  | @cons i d _ _ hlt _ ih =>
    rw [List.zipWith_cons_cons, ih]
    congr 1
    split <;> omega

end Shape

namespace Tensor

variable {α : Type} [Zero α] {t : Tensor α} {index : List Nat}

/-! ## Elements at multi-indices -/

/-- The element at a multi-index of the shape. -/
def element (t : Tensor α) (index : List Nat) : α := (t.get? index).getD 0

omit [Zero α] in
theorem place_lt (h : index ∈ Shape.indices t.shape) : t.place index < t.memory.length := by
  rw [t.length_memory, place]
  cases t.order with
  | rowMajor => exact Shape.offset_lt h
  | columnMajor => exact Shape.size_reverse t.shape ▸ Shape.offset_lt (Shape.reverse_mem_indices h)

theorem get?_eq_some_element (h : index ∈ Shape.indices t.shape) : t.get? index = some (t.element index) := by
  rw [element, get?, if_pos h, List.getElem?_eq_getElem (place_lt h)]
  rfl

theorem element_eq_getD (h : index ∈ Shape.indices t.shape) : t.element index = t.memory.getD (t.place index) 0 := by
  rw [element, get?, if_pos h, List.getD_eq_getElem?_getD]

/-- The elements are listed with the last axis running fastest. -/
theorem elements_eq_map (t : Tensor α) : t.elements = (Shape.indices t.shape).map t.element := by
  rw [List.map_congr_left fun index hindex => element_eq_getD hindex]
  cases h : t.order with
  | rowMajor =>
    rw [elements_of_rowMajor h]
    simp only [place, h]
    exact (Shape.map_getD_offset t.length_memory 0).symm
  | columnMajor =>
    -- transposing the memory reads it at the multi-indices of the shape, which are reversed twice
    rw [elements_of_columnMajor h, transpose, List.reverse_reverse]
    simp only [place, h]

theorem getD_elements (h : index ∈ Shape.indices t.shape) :
    t.elements.getD (Shape.offset t.shape index) 0 = t.element index := by
  rw [elements_eq_map, Shape.getD_map_indices h]

theorem getElem?_elements (h : index ∈ Shape.indices t.shape) :
    t.elements[Shape.offset t.shape index]? = some (t.element index) := by
  have hlt : Shape.offset t.shape index < t.elements.length := t.length_elements ▸ Shape.offset_lt h
  rw [← getD_elements h, List.getD_eq_getElem?_getD, List.getElem?_eq_getElem hlt]
  rfl

theorem element_of_elements {x : α} (h : index ∈ Shape.indices t.shape)
    (helements : t.elements[Shape.offset t.shape index]? = some x) : t.element index = x :=
  Option.some.inj ((getElem?_elements h).symm.trans helements)

/-! ## Views -/

/-- The view with all axes reversed has the same elements, each at the reversed multi-index. -/
theorem element_reverseAxes (h : index ∈ Shape.indices t.shape) :
    t.reverseAxes.element index.reverse = t.element index := by
  rw [element_eq_getD h, element_eq_getD (Shape.reverse_mem_indices h)]
  cases horder : t.order <;> simp [place, reverseAxes, Order.flip, horder]

omit [Zero α] in
/-- A tensor lies in memory in row-major order, or views one that does. -/
theorem exists_ofList (t : Tensor α) :
    ∃ shape xs h, t = ofList shape xs h ∨ t = (ofList shape xs h).reverseAxes := by
  obtain ⟨shape, order, memory, hmemory⟩ := t
  cases order with
  | rowMajor => exact ⟨shape, memory, hmemory, .inl rfl⟩
  | columnMajor =>
    refine ⟨shape.reverse, memory, hmemory.trans (Shape.size_reverse shape).symm, .inr ?_⟩
    simp [ofList, reverseAxes, Order.flip]

omit [Zero α] in
theorem slice?_eq_some_iff {xs : List α} : t.slice? = some xs ↔ t.isContiguous = true ∧ t.memory = xs := by
  unfold slice?
  split <;> simp [*]

/-! ## Arithmetic -/

theorem element_map {β : Type} [Zero β] (f : α → β) (h : index ∈ Shape.indices t.shape) :
    (t.map f).element index = f (t.element index) := by
  refine element_of_elements (t := t.map f) h ?_
  rw [elements_map, List.getElem?_map, shape_map, getElem?_elements h, Option.map_some]

theorem element_of_zip? {f : α → α → α} {u s : Tensor α} (h : zip? f t u = some s)
    (hindex : index ∈ Shape.indices t.shape) : s.element index = f (t.element index) (u.element index) := by
  obtain ⟨hu, hs, -⟩ := of_zip? h
  refine element_of_elements (hs ▸ hindex) ?_
  rw [elements_zip? h, hs, List.getElem?_zipWith, getElem?_elements hindex, ← hu, getElem?_elements (hu ▸ hindex)]

theorem broadcast?_eq_none_iff {target : List Nat} :
    t.broadcast? target = none ↔ Shape.fits t.shape target = false := by
  unfold broadcast?
  split
  · rename_i hshape
    simp [hshape, Shape.fits_self]
  · split <;> rename_i hfits <;> simpa using hfits

/-- A tensor that is repeated to fill a shape. -/
theorem of_broadcast? {target : List Nat} {u : Tensor α} (h : t.broadcast? target = some u) :
    u.shape = target ∧ ∀ index ∈ Shape.indices target, u.element index = t.element (Shape.source t.shape index) := by
  unfold broadcast? at h
  split at h
  · rename_i hshape
    cases h
    refine ⟨hshape, fun index hindex => ?_⟩
    rw [Shape.source_self (hshape ▸ hindex)]
  · split at h
    · rename_i hfits
      cases h
      refine ⟨rfl, fun index hindex => ?_⟩
      have hplace : (ofList target ((Shape.indices target).map fun index =>
            t.elements.getD (Shape.offset t.shape (Shape.source t.shape index)) 0)
          (by rw [List.length_map, Shape.length_indices])).element index =
          t.elements.getD (Shape.offset t.shape (Shape.source t.shape index)) 0 := by
        rw [element_eq_getD hindex]
        exact Shape.getD_map_indices hindex _ 0
      rw [hplace, getD_elements (Shape.source_mem_indices hfits hindex)]
    · cases h

end Tensor

end ParamExchange
