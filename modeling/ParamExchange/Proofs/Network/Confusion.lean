/-
Lengths that servers can not tell apart. A server knows how many elements it was asked for, not how
long the parameter is, so two requests of different lengths are told apart only if some server is
asked for a part of both and the parts have different lengths. The parts of long parameters have:
their last server holds at least two elements of the longer one. Those of short parameters that are
cut nevertheless all have one element.
-/
import ParamExchange.Proofs.Network.Spans

namespace ParamExchange.Network.Spread

variable {s : Spread} {key : Key} {a b : Nat}

/-! ## Shares -/

/-- The server that holds a parameter that is not cut. -/
def home (s : Spread) (key : Key) : Nat := key.index.toNat % s.servers

/-- The number of elements that a server holds of a parameter that is cut. -/
def share (s : Spread) (length i : Nat) : Nat := (s.span length i).length

theorem route_whole (hn : 0 < s.servers) (h : a < s.minSlice) (key : Key) :
    s.route key a = [⟨s.home key, 0, a⟩] := by
  unfold route
  rw [if_neg (by omega), if_pos h]
  rfl

/-- A parameter that is cut has a span on every server whose share is not empty. -/
theorem mem_route_cut (hn : 0 < s.servers) (h : s.minSlice ≤ a) {key : Key} {span : Span} :
    span ∈ s.route key a ↔ ∃ i < s.servers, 0 < s.share a i ∧ span = s.span a i := by
  unfold route
  rw [if_neg (by omega), if_neg (by omega), List.mem_filter, List.mem_map]
  have hempty : ∀ i, (!(s.span a i).isEmpty) = true ↔ 0 < s.share a i := by
    intro i
    simp only [Span.isEmpty, share, Span.length, Bool.not_eq_true', decide_eq_false_iff_not]
    omega
  constructor
  · rintro ⟨⟨i, hi, rfl⟩, hshare⟩
    exact ⟨i, List.mem_range.1 hi, (hempty i).1 hshare, rfl⟩
  · rintro ⟨i, hi, hshare, rfl⟩
    exact ⟨⟨i, List.mem_range.2 hi, rfl⟩, (hempty i).2 hshare⟩

theorem bound_succ (s : Spread) (a i : Nat) : s.bound a (i + 1) = s.bound a i + s.share a i := by
  have hmono : s.bound a i ≤ s.bound a (i + 1) := Nat.div_le_div_right (Nat.mul_le_mul_left a (Nat.le_succ i))
  show s.bound a (i + 1) = s.bound a i + (s.bound a (i + 1) - s.bound a i)
  omega

/-- Parameters with the same shares have the same length. -/
theorem eq_of_share_eq (hn : 0 < s.servers) (h : ∀ i < s.servers, s.share a i = s.share b i) : a = b := by
  have hbound : ∀ k ≤ s.servers, s.bound a k = s.bound b k := by
    intro k hk
    induction k with
    | zero => rw [bound, bound, Nat.mul_zero, Nat.mul_zero]
    | succ k ih => rw [bound_succ, bound_succ, ih (by omega), h k (by omega)]
  rw [← bound_servers hn a, ← bound_servers hn b]
  exact hbound _ (le_refl _)

/-- Every server holds at least as many elements as an even cut rounded down gives it. -/
theorem floor_le_share (s : Spread) (a i : Nat) : a / s.servers ≤ s.share a i := by
  have hbound : s.bound a i + a / s.servers ≤ s.bound a (i + 1) := by
    simp only [bound, Nat.mul_succ]
    exact Nat.div_add_div_le_add_div
  rw [bound_succ] at hbound
  omega

/-- No server holds more elements than an even cut rounded up gives it. -/
theorem share_le_ceil (hn : 0 < s.servers) (a i : Nat) : s.share a i ≤ (a + s.servers - 1) / s.servers := by
  have hcover : a ≤ s.servers * ((a + s.servers - 1) / s.servers) := by
    have hdiv := Nat.div_add_mod (a + s.servers - 1) s.servers
    have hmod := Nat.mod_lt (a + s.servers - 1) hn
    omega
  have hbound : s.bound a (i + 1) ≤ s.bound a i + (a + s.servers - 1) / s.servers := by
    simp only [bound, Nat.mul_succ]
    calc (a * i + a) / s.servers
        ≤ (a * i + s.servers * ((a + s.servers - 1) / s.servers)) / s.servers :=
          Nat.div_le_div_right (Nat.add_le_add_left hcover _)
      _ = a * i / s.servers + (a + s.servers - 1) / s.servers := Nat.add_mul_div_left _ _ hn
  rw [bound_succ] at hbound
  omega

theorem share_le_one (hn : 0 < s.servers) (h : a ≤ s.servers) (i : Nat) : s.share a i ≤ 1 := by
  have hceil := share_le_ceil hn a i
  have hone : (a + s.servers - 1) / s.servers < 2 := (Nat.div_lt_iff_lt_mul hn).2 (by omega)
  omega

theorem share_pos (hn : 0 < s.servers) (h : s.servers ≤ a) (i : Nat) : 0 < s.share a i :=
  lt_of_lt_of_le (Nat.div_pos h hn) (floor_le_share s a i)

/-- The last server holds more than `k` elements if the first elements, `k` for each server, are not
all. -/
theorem lt_share_last {k n : Nat} (hn : s.servers = n + 1) (h : k * s.servers < a) : k < s.share a n := by
  have hall : s.bound a n + s.share a n = a := by
    rw [← bound_succ, ← hn]
    exact bound_servers (by omega) a
  have hrest : s.bound a n < a - k := by
    have hk : k < a := lt_of_le_of_lt (Nat.le_mul_of_pos_right k (by omega)) h
    rw [bound, Nat.div_lt_iff_lt_mul (by omega)]
    obtain ⟨d, rfl⟩ := Nat.exists_eq_add_of_lt hk
    rw [hn] at h ⊢
    have hd : k + d + 1 - k = d + 1 := by omega
    rw [hd]
    nlinarith
  omega

/-! ## Lengths that are confused -/

/-- A parameter of `a` elements is not cut, but one of `b` elements is, of which its server holds as
many or none. -/
def Hides (s : Spread) (key : Key) (a b : Nat) : Prop :=
  a < s.minSlice ∧ s.minSlice ≤ b ∧ (s.share b (s.home key) = 0 ∨ s.share b (s.home key) = a)

/-- No server can tell a request for `a` elements from one for `b`: the lengths are the same, both
are cut and there is a server for every element, or one hides the other. -/
def Confuses (s : Spread) (key : Key) (a b : Nat) : Prop :=
  a = b ∨ (s.minSlice ≤ a ∧ a ≤ s.servers ∧ s.minSlice ≤ b ∧ b ≤ s.servers) ∨ s.Hides key a b ∨ s.Hides key b a

instance : Decidable (s.Confuses key a b) := by
  unfold Confuses Hides
  infer_instance

/-- Every server that is asked for a part of both is asked for as many elements. -/
def Agree (s : Spread) (key : Key) (a b : Nat) : Prop :=
  ∀ p ∈ s.route key a, ∀ q ∈ s.route key b, p.server = q.server → p.length = q.length

theorem Agree.symm (h : s.Agree key a b) : s.Agree key b a :=
  fun p hp q hq heq => (h q hq p hp heq.symm).symm

theorem agree_cut (hn : 0 < s.servers) (ha : s.minSlice ≤ a) (hb : s.minSlice ≤ b) :
    s.Agree key a b ↔ ∀ i < s.servers, 0 < s.share a i → 0 < s.share b i → s.share a i = s.share b i := by
  constructor
  · intro h i hi hpos hpos'
    exact h _ ((mem_route_cut hn ha).2 ⟨i, hi, hpos, rfl⟩) _ ((mem_route_cut hn hb).2 ⟨i, hi, hpos', rfl⟩) rfl
  · intro h p hp q hq heq
    obtain ⟨i, hi, hpos, rfl⟩ := (mem_route_cut hn ha).1 hp
    obtain ⟨j, hj, hpos', rfl⟩ := (mem_route_cut hn hb).1 hq
    obtain rfl : i = j := heq
    exact h i hi hpos hpos'

/-- Two long parameters that are cut are told apart, by their last server or by all together. -/
theorem eq_of_agree_of_lt (hn : 0 < s.servers) (ha : s.minSlice ≤ a) (hb : s.minSlice ≤ b) (hpos : 0 < a)
    (hlong : s.servers < b) (h : s.Agree key a b) : a = b := by
  rw [agree_cut hn ha hb] at h
  obtain ⟨n, hservers⟩ := Nat.exists_eq_add_of_lt hn
  rw [Nat.zero_add] at hservers
  have hlast : s.share a n = s.share b n :=
    h n (by omega) (lt_share_last hservers (by omega)) (lt_trans one_pos (lt_share_last hservers (by omega)))
  have htwo : 1 < s.share b n := lt_share_last hservers (by omega)
  -- so the other one is long as well, and every server has a part of both
  have hother : s.servers < a := by
    by_contra hle
    have := share_le_one hn (not_lt.1 hle) n
    omega
  exact eq_of_share_eq hn fun i hi => h i hi (share_pos hn (by omega) i) (share_pos hn (by omega) i)

theorem agree_hides (hn : 0 < s.servers) (ha : a < s.minSlice) (hb : s.minSlice ≤ b) :
    s.Agree key a b ↔ s.Hides key a b := by
  unfold Agree Hides
  rw [route_whole hn ha]
  have hhome : s.home key < s.servers := Nat.mod_lt _ hn
  constructor
  · intro h
    refine ⟨ha, hb, ?_⟩
    rcases Nat.eq_zero_or_pos (s.share b (s.home key)) with hzero | hpos
    · exact .inl hzero
    · exact .inr (h _ (List.mem_singleton_self _) _ ((mem_route_cut hn hb).2 ⟨_, hhome, hpos, rfl⟩) rfl).symm
  · rintro ⟨-, -, hshare⟩ p hp q hq heq
    rw [List.mem_singleton.1 hp] at heq ⊢
    obtain ⟨i, hi, hpos, rfl⟩ := (mem_route_cut hn hb).1 hq
    obtain rfl : s.home key = i := heq
    rcases hshare with hzero | hsame
    · omega
    · exact hsame.symm

/-- The servers agree exactly about the lengths that they can not tell apart. -/
theorem agree_iff (hn : 0 < s.servers) (hm : 0 < s.minSlice) : s.Agree key a b ↔ s.Confuses key a b := by
  constructor
  · intro h
    rcases Nat.lt_or_ge a s.minSlice with ha | ha <;> rcases Nat.lt_or_ge b s.minSlice with hb | hb
    · -- both are held whole by the same server
      unfold Agree at h
      rw [route_whole hn ha, route_whole hn hb] at h
      exact .inl (h _ (List.mem_singleton_self _) _ (List.mem_singleton_self _) rfl)
    · exact .inr (.inr (.inl ((agree_hides hn ha hb).1 h)))
    · exact .inr (.inr (.inr ((agree_hides hn hb ha).1 h.symm)))
    · by_cases hshort : a ≤ s.servers ∧ b ≤ s.servers
      · exact .inr (.inl ⟨ha, hshort.1, hb, hshort.2⟩)
      · rcases Nat.lt_or_ge s.servers b with hlong | hle
        · exact .inl (eq_of_agree_of_lt hn ha hb (by omega) hlong h)
        · exact .inl (eq_of_agree_of_lt hn hb ha (by omega) (by omega) h.symm).symm
  · rintro (rfl | ⟨ha, haservers, hb, hbservers⟩ | hhides | hhides)
    · intro p hp q hq heq
      rw [List.inj_on_of_nodup_map (nodup_servers_route s key a) hp hq heq]
    · rw [agree_cut hn ha hb]
      intro i _ hpos hpos'
      have hone := share_le_one hn haservers i
      have hone' := share_le_one hn hbservers i
      omega
    · exact (agree_hides hn hhides.1 hhides.2.1).2 hhides
    · exact ((agree_hides hn hhides.1 hhides.2.1).2 hhides).symm

end ParamExchange.Network.Spread
