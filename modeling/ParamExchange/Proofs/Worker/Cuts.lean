/-
Steps that are cut into blocks. A block ends after every step whose number, counted from the first
step of the worker, is a multiple of the cycle, and the last block ends where the steps do. Steps
come one at a time; those after the end of the last block are its rest.
-/
import Mathlib.Tactic

namespace ParamExchange

variable {β : Type}

/-- One of the blocks ends after `k` elements. -/
def EndsAt (blocks : List (List β)) (k : Nat) : Prop :=
  ∃ front back, blocks = front ++ back ∧ front ≠ [] ∧ front.flatten.length = k

theorem not_endsAt_nil (k : Nat) : ¬ EndsAt ([] : List (List β)) k := by
  rintro ⟨front, back, heq, hfront, -⟩
  exact hfront (List.append_eq_nil_iff.1 heq.symm).1

theorem endsAt_append {blocks : List (List β)} {block : List β} {k : Nat} :
    EndsAt (blocks ++ [block]) k ↔ EndsAt blocks k ∨ k = blocks.flatten.length + block.length := by
  constructor
  · rintro ⟨front, back, heq, hfront, rfl⟩
    rcases List.eq_nil_or_concat back with rfl | ⟨back, last, rfl⟩
    · rw [List.append_nil] at heq
      refine .inr ?_
      rw [← heq, List.flatten_append, List.length_append, List.flatten_singleton]
    · rw [List.concat_eq_append, ← List.append_assoc] at heq
      exact .inl ⟨front, back, (List.append_inj' heq rfl).1, hfront, rfl⟩
  · rintro (⟨front, back, rfl, hfront, rfl⟩ | rfl)
    · exact ⟨front, back ++ [block], List.append_assoc .., hfront, rfl⟩
    · refine ⟨blocks ++ [block], [], (List.append_nil _).symm, ?_, ?_⟩
      · exact List.append_ne_nil_of_right_ne_nil _ (List.cons_ne_nil block [])
      · rw [List.flatten_append, List.length_append, List.flatten_singleton]

/-- Among as many numbers in a row as the cycle is long there is a multiple of it. -/
theorem lt_of_forall_not_dvd {cycle a n : Nat} (hcycle : 0 < cycle)
    (h : ∀ k, a < k → k ≤ a + n → ¬ cycle ∣ k) : n < cycle := by
  by_contra hle
  have hmod := Nat.mod_lt a hcycle
  refine h (a + (cycle - a % cycle)) (by omega) (by omega) ⟨a / cycle + 1, ?_⟩
  have hdiv := Nat.div_add_mod a cycle
  rw [Nat.mul_succ]
  omega

/-- The elements are cut into blocks and a rest; `start` elements came before them. -/
structure IsCut (cycle start : Nat) (blocks : List (List β)) (rest : List β) : Prop where
  ends : ∀ k, EndsAt blocks k ↔ 0 < k ∧ k ≤ blocks.flatten.length ∧ cycle ∣ start + k
  rest : ∀ k, blocks.flatten.length < k → k ≤ blocks.flatten.length + rest.length → ¬ cycle ∣ start + k
  short : ∀ block ∈ blocks, 0 < block.length ∧ block.length ≤ cycle

namespace IsCut

variable {cycle start : Nat} {blocks : List (List β)} {rest : List β} {x : β}

theorem empty (cycle start : Nat) : IsCut cycle start ([] : List (List β)) [] := by
  refine ⟨fun k => ⟨fun h => absurd h (not_endsAt_nil k), fun ⟨hpos, hle, _⟩ => ?_⟩, fun k hlt hle => ?_, nofun⟩
  · exact absurd hle (not_le.2 hpos)
  · exact absurd hle (not_le.2 hlt)

theorem length_rest_lt (h : IsCut cycle start blocks rest) (hcycle : 0 < cycle) : rest.length < cycle := by
  refine lt_of_forall_not_dvd hcycle (a := start + blocks.flatten.length) fun k hlt hle => ?_
  have hrest := h.rest (k - start) (by omega) (by omega)
  rwa [Nat.add_sub_cancel' (by omega)] at hrest

/-- An element whose number is no multiple goes to the rest. -/
theorem push (h : IsCut cycle start blocks rest)
    (hx : ¬ cycle ∣ start + (blocks.flatten.length + rest.length + 1)) :
    IsCut cycle start blocks (rest ++ [x]) := by
  refine ⟨h.ends, fun k hlt hle => ?_, h.short⟩
  rw [List.length_append, List.length_singleton] at hle
  rcases Nat.lt_or_ge (blocks.flatten.length + rest.length) k with hlast | hearlier
  · obtain rfl : k = blocks.flatten.length + rest.length + 1 := by omega
    exact hx
  · exact h.rest k hlt hearlier

/-- A block that ends at a multiple is closed. -/
theorem close (h : IsCut cycle start blocks rest) (hcycle : 0 < cycle)
    (hx : cycle ∣ start + (blocks.flatten.length + rest.length + 1)) :
    IsCut cycle start (blocks ++ [rest ++ [x]]) [] := by
  have hlen : (blocks ++ [rest ++ [x]]).flatten.length = blocks.flatten.length + rest.length + 1 := by
    rw [List.flatten_append, List.flatten_singleton, List.length_append, List.length_append,
      List.length_singleton]
    omega
  refine ⟨fun k => ?_, fun k hlt hle => ?_, fun block hmem => ?_⟩
  · rw [endsAt_append, h.ends, hlen, List.length_append, List.length_singleton]
    constructor
    · rintro (⟨hpos, hle, hdvd⟩ | rfl)
      · exact ⟨hpos, by omega, hdvd⟩
      · exact ⟨by omega, by omega, hx⟩
    · rintro ⟨hpos, hle, hdvd⟩
      -- there is no multiple in the rest, so it is the last one or in an earlier block
      by_contra hnot
      rw [not_or, not_and, not_and] at hnot
      exact h.rest k (by by_contra hlt; exact hnot.1 hpos (by omega) hdvd)
        (by have := hnot.2; omega) hdvd
  · rw [List.length_nil] at hle
    omega
  · rcases List.mem_append.1 hmem with hmem | hmem
    · exact h.short block hmem
    · have hrest := h.length_rest_lt hcycle
      rw [List.mem_singleton.1 hmem, List.length_append, List.length_singleton]
      omega

/-- The rest is the last block, which ends with the elements. -/
theorem finish (h : IsCut cycle start blocks rest) (hcycle : 0 < cycle) (hrest : rest ≠ []) :
    (∀ k, EndsAt (blocks ++ [rest]) k ↔ 0 < k ∧ k ≤ (blocks ++ [rest]).flatten.length ∧
      (cycle ∣ start + k ∨ k = (blocks ++ [rest]).flatten.length)) ∧
    ∀ block ∈ blocks ++ [rest], 0 < block.length ∧ block.length ≤ cycle := by
  have hpos : 0 < rest.length := List.length_pos_of_ne_nil hrest
  have hlen : (blocks ++ [rest]).flatten.length = blocks.flatten.length + rest.length := by
    rw [List.flatten_append, List.flatten_singleton, List.length_append]
  refine ⟨fun k => ?_, fun block hmem => ?_⟩
  · rw [endsAt_append, h.ends, hlen]
    constructor
    · rintro (⟨hk, hle, hdvd⟩ | rfl)
      · exact ⟨hk, by omega, .inl hdvd⟩
      · exact ⟨by omega, le_refl _, .inr rfl⟩
    · rintro ⟨hk, hle, hdvd | rfl⟩
      · rcases Nat.lt_or_ge blocks.flatten.length k with hlt | hge
        · exact absurd hdvd (h.rest k hlt hle)
        · exact .inl ⟨hk, hge, hdvd⟩
      · exact .inr rfl
  · rcases List.mem_append.1 hmem with hmem | hmem
    · exact h.short block hmem
    · rw [List.mem_singleton.1 hmem]
      exact ⟨hpos, le_of_lt (h.length_rest_lt hcycle)⟩

/-- If there is no rest, the last block ends with the elements. -/
theorem finish_nil (h : IsCut cycle start blocks []) (k : Nat) :
    EndsAt blocks k ↔ 0 < k ∧ k ≤ blocks.flatten.length ∧
      (cycle ∣ start + k ∨ k = blocks.flatten.length) := by
  constructor
  · intro hends
    obtain ⟨hk, hle, hdvd⟩ := (h.ends k).1 hends
    exact ⟨hk, hle, .inl hdvd⟩
  · rintro ⟨hk, hle, hdvd | rfl⟩
    · exact (h.ends k).2 ⟨hk, hle, hdvd⟩
    · refine ⟨blocks, [], (List.append_nil _).symm, ?_, rfl⟩
      rintro rfl
      exact Nat.lt_irrefl 0 hk

end IsCut

end ParamExchange
