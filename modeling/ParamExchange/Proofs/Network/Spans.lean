/-
Spans of a parameter. The spans of a route lie one after another from the first element to the
last, each on another server, so a value is put together again from its slices, in whatever buffer,
and what works on each element by itself works on slices.
-/
import Mathlib.Tactic
import ParamExchange.Network.Route

namespace ParamExchange.Network

/-! ## Slices -/

namespace Span

variable {α β γ : Type}

theorem length_slice {s : Span} {xs : List α} (h : s.stop ≤ xs.length) : (s.slice xs).length = s.length := by
  rw [slice, List.length_take, List.length_drop, length]
  omega

theorem slice_replicate {s : Span} {n : Nat} (h : s.stop ≤ n) (x : α) :
    s.slice (List.replicate n x) = List.replicate s.length x := by
  rw [slice, List.drop_replicate, List.take_replicate, length]
  congr 1
  omega

/-- A slice does not depend on what lies behind the span. -/
theorem slice_eq_drop (s : Span) (xs : List α) : s.slice xs = (xs.take s.stop).drop s.start :=
  List.drop_take.symm

/-- An operation on each element can be done slice by slice. -/
theorem slice_zipWith (s : Span) (f : α → β → γ) (xs : List α) (ys : List β) :
    s.slice (List.zipWith f xs ys) = List.zipWith f (s.slice xs) (s.slice ys) := by
  rw [slice, slice, slice, List.drop_zipWith, List.take_zipWith]

end Span

/-! ## Overwriting -/

variable {α : Type}

theorem overwrite_eq {start : Nat} {part xs : List α} (h : start + part.length ≤ xs.length) :
    overwrite start part xs = xs.take start ++ (part ++ xs.drop (start + part.length)) := by
  induction xs generalizing start part with
  | nil =>
    obtain ⟨rfl, hp⟩ : start = 0 ∧ part.length = 0 := by simpa using h
    rw [List.length_eq_zero_iff.1 hp]
    rfl
  | cons x xs ih =>
    rw [List.length_cons] at h
    cases start with
    | succ start =>
      have hadd : start + 1 + part.length = start + part.length + 1 := by omega
      rw [overwrite, ih (by omega), hadd]
      rfl
    | zero =>
      cases part with
      | nil => rfl
      | cons p part =>
        rw [List.length_cons] at h
        have hadd : 0 + (p :: part).length = 0 + part.length + 1 := by rw [List.length_cons]; omega
        rw [overwrite, ih (by omega), hadd]
        rfl

/-- What lies before the place of a part is not overwritten. -/
theorem take_overwrite {start : Nat} {part xs : List α} (h : start + part.length ≤ xs.length) :
    (overwrite start part xs).take start = xs.take start := by
  rw [overwrite_eq h, List.take_left' (by rw [List.length_take]; omega)]

/-- The part is found in its place. -/
theorem slice_overwrite {span : Span} {part xs : List α} (hpart : part.length = span.length)
    (h : span.start ≤ span.stop) (hstop : span.stop ≤ xs.length) :
    span.slice (overwrite span.start part xs) = part := by
  rw [Span.length] at hpart
  rw [overwrite_eq (by omega), Span.slice, Span.length, List.drop_left' (by rw [List.length_take]; omega),
    ← hpart, List.take_left]

/-! ## Tilings -/

/-- `Tiles spans a b`: the spans lie one after another from `a` to `b`. -/
inductive Tiles : List Span → Nat → Nat → Prop
  | nil {a : Nat} : Tiles [] a a
  | cons {span : Span} {spans : List Span} {b : Nat} :
      span.start ≤ span.stop → Tiles spans span.stop b → Tiles (span :: spans) span.start b

namespace Tiles

variable {spans : List Span} {a b : Nat}

theorem le (h : Tiles spans a b) : a ≤ b := by
  induction h with
  | nil => exact le_refl _
  | cons hspan _ ih => exact le_trans hspan ih

theorem stop_le (h : Tiles spans a b) : ∀ span ∈ spans, span.stop ≤ b := by
  induction h with
  | nil => nofun
  | cons _ hrest ih =>
    intro span hmem
    rcases List.mem_cons.1 hmem with rfl | hmem
    · exact hrest.le
    · exact ih span hmem

theorem append {more : List Span} {c : Nat} (h : Tiles spans a b) (hmore : Tiles more b c) :
    Tiles (spans ++ more) a c := by
  induction h with
  | nil => exact hmore
  | cons hspan _ ih => exact .cons hspan (ih hmore)

/-- Spans without elements can be left out. -/
theorem filter (h : Tiles spans a b) : Tiles (spans.filter (!·.isEmpty)) a b := by
  induction h with
  | nil => exact .nil
  | @cons span spans b hspan _ ih =>
    by_cases hempty : span.isEmpty = true
    · have hstop : span.stop ≤ span.start := of_decide_eq_true hempty
      have heq : span.start = span.stop := by omega
      rw [List.filter_cons_of_neg (by simpa using hempty), heq]
      exact ih
    · rw [List.filter_cons_of_pos (by simpa using hempty)]
      exact .cons hspan ih

/-- The slices of a value, one after another, are what lies between the ends of the tiling. -/
theorem flatten_slices (h : Tiles spans a b) (xs : List α) :
    (spans.map (·.slice xs)).flatten = (xs.drop a).take (b - a) := by
  induction h with
  | nil => simp
  | @cons span spans b hspan hrest ih =>
    have hle := hrest.le
    have hb : b - span.start = span.length + (b - span.stop) := by rw [Span.length]; omega
    have hstop : span.start + span.length = span.stop := by rw [Span.length]; omega
    rw [List.map_cons, List.flatten_cons, ih, hb, List.take_add, Span.slice, List.drop_drop, hstop]

/-- Putting the slices of a value into a buffer, which holds the value up to the first of them,
makes it hold the value up to the end of the last. -/
theorem take_foldl_overwrite (h : Tiles spans a b) {v : List α} (hb : b ≤ v.length) :
    ∀ {xs : List α}, xs.length = v.length → xs.take a = v.take a →
      (spans.foldl (fun xs span => overwrite span.start (span.slice v) xs) xs).take b = v.take b := by
  induction h with
  | nil => exact fun _ hx => hx
  | @cons span spans b hspan hrest ih =>
    intro xs hlen hx
    have hstop := hrest.le
    have hpart : (span.slice v).length = span.length := Span.length_slice (by omega)
    have hend : span.start + span.length = span.stop := by rw [Span.length]; omega
    refine ih hb (by rw [length_overwrite, hlen]) ?_
    show (overwrite span.start (span.slice v) xs).take span.stop = v.take span.stop
    rw [overwrite_eq (by rw [hpart]; omega), hx, hpart, hend, ← List.append_assoc, Span.slice,
      ← List.take_add, hend, List.take_left' (by rw [List.length_take]; omega)]

end Tiles

theorem length_foldl_overwrite (part : Span → List α) (spans : List Span) (xs : List α) :
    (spans.foldl (fun xs span => overwrite span.start (part span) xs) xs).length = xs.length := by
  induction spans generalizing xs with
  | nil => rfl
  | cons span spans ih => rw [List.foldl_cons, ih, length_overwrite]

/-- The slices of a value make it up again, whatever was in the buffer. -/
theorem foldl_overwrite {spans : List Span} {v : List α} (h : Tiles spans 0 v.length) {xs : List α}
    (hlen : xs.length = v.length) :
    spans.foldl (fun xs span => overwrite span.start (span.slice v) xs) xs = v := by
  have htake := h.take_foldl_overwrite (le_refl _) hlen rfl
  rwa [List.take_length, List.take_of_length_le (by rw [length_foldl_overwrite, hlen])] at htake

/-- Parts that have the lengths of spans which lie one after another make up what is between the ends of
the tiling. -/
theorem Tiles.foldl_overwrite_parts {spans : List Span} {a b : Nat} (h : Tiles spans a b) {part : Span → List α}
    (hpart : ∀ span ∈ spans, (part span).length = span.length) {xs : List α} (hb : b ≤ xs.length) :
    spans.foldl (fun xs span => overwrite span.start (part span) xs) xs =
      xs.take a ++ ((spans.map part).flatten ++ xs.drop b) := by
  induction h generalizing xs with
  | nil => simp
  | @cons span spans b hspan hrest ih =>
    obtain ⟨hfirst, hpart⟩ := List.forall_mem_cons.1 hpart
    have hstop := hrest.le
    have hend : span.start + (part span).length = span.stop := by rw [hfirst, Span.length]; omega
    have hover : overwrite span.start (part span) xs = xs.take span.start ++ part span ++ xs.drop span.stop := by
      rw [overwrite_eq (by omega), hend, List.append_assoc]
    have hfront : (xs.take span.start ++ part span).length = span.stop := by
      rw [List.length_append, List.length_take]
      omega
    have hback : (xs.take span.start ++ part span ++ xs.drop span.stop).drop b = xs.drop b := by
      rw [List.drop_append, hfront, List.drop_eq_nil_of_le (hfront ▸ hstop), List.nil_append, List.drop_drop,
        Nat.add_sub_cancel' hstop]
    rw [List.foldl_cons, ih hpart (by rwa [length_overwrite]), hover, List.take_left' hfront, hback, List.map_cons,
      List.flatten_cons, List.append_assoc, List.append_assoc]

/-! ## Routes -/

namespace Spread

variable {spread : Spread}

theorem bound_servers (hn : 0 < spread.servers) (length : Nat) :
    spread.bound length spread.servers = length :=
  Nat.mul_div_cancel length hn

theorem tiles_range (spread : Spread) (length k : Nat) :
    Tiles ((List.range k).map (spread.span length)) 0 (spread.bound length k) := by
  induction k with
  | zero =>
    rw [bound, Nat.mul_zero, Nat.zero_div]
    exact .nil
  | succ k ih =>
    rw [List.range_succ, List.map_append]
    have hmono : spread.bound length k ≤ spread.bound length (k + 1) :=
      Nat.div_le_div_right (Nat.mul_le_mul_left length (Nat.le_succ k))
    exact ih.append (.cons hmono .nil)

/-- The spans of a route lie one after another and cover the parameter. -/
theorem tiles_route (hn : 0 < spread.servers) (key : Key) (length : Nat) :
    Tiles (spread.route key length) 0 length := by
  unfold route
  rw [if_neg (by omega)]
  split
  · exact .cons (Nat.zero_le length) .nil
  · have htiles := (tiles_range spread length spread.servers).filter
    rwa [bound_servers hn] at htiles

theorem server_lt_of_mem_route {key : Key} {length : Nat} {span : Span}
    (h : span ∈ spread.route key length) : span.server < spread.servers := by
  unfold route at h
  split at h
  · cases h
  · split at h
    · rw [List.mem_singleton] at h
      rw [h]
      exact Nat.mod_lt _ (by omega)
    · obtain ⟨i, hi, rfl⟩ := List.mem_map.1 (List.mem_of_mem_filter h)
      exact List.mem_range.1 hi

/-- The spans of a route are in the order of their servers. -/
theorem pairwise_servers_route (spread : Spread) (key : Key) (length : Nat) :
    ((spread.route key length).map (·.server)).Pairwise (· < ·) := by
  unfold route
  split
  · exact .nil
  · split
    · exact List.pairwise_singleton _ _
    · have hall : (((List.range spread.servers).map (spread.span length)).map (·.server)).Pairwise (· < ·) := by
        rw [List.map_map]
        show ((List.range spread.servers).map id).Pairwise (· < ·)
        rw [List.map_id]
        exact List.pairwise_lt_range
      exact hall.sublist (List.filter_sublist.map _)

/-- No server has two spans of a parameter. -/
theorem nodup_servers_route (spread : Spread) (key : Key) (length : Nat) :
    ((spread.route key length).map (·.server)).Nodup :=
  (pairwise_servers_route spread key length).imp fun h => Nat.ne_of_lt h

/-- There is a span on some server, even of a parameter without elements. -/
theorem route_ne_nil (hn : 0 < spread.servers) (hm : 0 < spread.minSlice) (key : Key) (length : Nat) :
    spread.route key length ≠ [] := by
  intro hnil
  have htiles := tiles_route hn key length
  rw [hnil] at htiles
  have hzero : length = 0 := by cases htiles; rfl
  unfold route at hnil
  rw [if_neg (by omega), if_pos (by omega)] at hnil
  cases hnil

end Spread

end ParamExchange.Network
