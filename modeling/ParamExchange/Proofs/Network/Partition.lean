/-
Routes are partitions. The places of the spans of a route, one span after another, are the places of the
parameter, each of them once and in order; the servers come in order as well. A short parameter is whole,
and of one that is cut every server holds an even share, rounded down or up, that words are enough to find.
-/
import ParamExchange.Proofs.Network.Confusion

namespace ParamExchange.Network

/-! ## Places -/

/-- The places of the elements of a span in the parameter. -/
def Span.places (s : Span) : List Nat := List.range' s.start s.length

/-- The places of spans that lie one after another are those between the ends of the tiling. -/
theorem Tiles.places {spans : List Span} {a b : Nat} (h : Tiles spans a b) :
    spans.flatMap Span.places = List.range' a (b - a) := by
  induction h with
  | nil => simp
  | @cons span spans b hspan hrest ih =>
    have hle := hrest.le
    have hstop : span.start + span.length = span.stop := by rw [Span.length]; omega
    have hlength : span.length + (b - span.stop) = b - span.start := by rw [Span.length]; omega
    rw [List.flatMap_cons, ih, Span.places, ← hstop, List.range'_append_1, hstop, hlength]

namespace Spread

variable {s : Spread} {key : Key} {length : Nat}

/-! ## Servers -/

/-- The number of elements that a server holds on a route; none if the route passes it by. -/
def heldBy (spans : List Span) (server : Nat) : Nat :=
  ((spans.filter (·.server == server)).map Span.length).sum

theorem heldBy_of_mem {spans : List Span} (hnodup : (spans.map (·.server)).Nodup) {span : Span}
    (h : span ∈ spans) : heldBy spans span.server = span.length := by
  induction spans with
  | nil => cases h
  | cons first spans ih =>
    rw [List.map_cons, List.nodup_cons, List.mem_map] at hnodup
    rcases List.mem_cons.1 h with rfl | h
    · -- no span after it is on its server
      have hnone : spans.filter (·.server == span.server) = [] := by
        simp only [List.filter_eq_nil_iff, beq_iff_eq]
        exact fun other hother heq => hnodup.1 ⟨other, hother, heq⟩
      simp [heldBy, hnone]
    · have hne : first.server ≠ span.server := fun heq => hnodup.1 ⟨span, h, heq.symm⟩
      simpa [heldBy, hne] using ih hnodup.2 h

theorem heldBy_of_forall_ne {spans : List Span} {i : Nat} (h : ∀ span ∈ spans, span.server ≠ i) :
    heldBy spans i = 0 := by
  have hnone : spans.filter (·.server == i) = [] := by
    simp only [List.filter_eq_nil_iff, beq_iff_eq]
    exact h
  simp [heldBy, hnone]

/-- Of a parameter that is cut every server holds its share, which may be nothing. -/
theorem heldBy_route_cut (hn : 0 < s.servers) (h : s.minSlice ≤ length) {i : Nat} (hi : i < s.servers) :
    heldBy (s.route key length) i = s.share length i := by
  by_cases hpos : 0 < s.share length i
  · exact heldBy_of_mem (nodup_servers_route s key length) ((mem_route_cut hn h).2 ⟨i, hi, hpos, rfl⟩)
  · -- a server without elements is left out
    rw [heldBy_of_forall_ne, Nat.eq_zero_of_not_pos hpos]
    rintro span hspan rfl
    obtain ⟨j, -, hshare, rfl⟩ := (mem_route_cut hn h).1 hspan
    exact hpos hshare

/-- A share is the even one, rounded down or up. -/
theorem share_cases (hn : 0 < s.servers) (length i : Nat) :
    s.share length i = length / s.servers ∨ s.share length i = (length + s.servers - 1) / s.servers := by
  have hfloor := floor_le_share s length i
  have hceil := share_le_ceil hn length i
  have hclose : (length + s.servers - 1) / s.servers ≤ length / s.servers + 1 := by
    rw [← Nat.add_div_right _ hn]
    exact Nat.div_le_div_right (by omega)
  omega

/-! ## Words -/

/-- If the length times the number of servers is a word, words are enough to tell where the spans begin. -/
theorem toNat_bound (hn : 0 < s.servers) (h : length * s.servers < UInt64.size) {i : Nat} (hi : i ≤ s.servers) :
    (UInt64.ofNat length * UInt64.ofNat i / UInt64.ofNat s.servers).toNat = s.bound length i := by
  rcases Nat.eq_zero_or_pos length with rfl | hlength
  · simp [bound]
  · have hservers : s.servers < UInt64.size := lt_of_le_of_lt (Nat.le_mul_of_pos_left _ hlength) h
    have hword : length < UInt64.size := lt_of_le_of_lt (Nat.le_mul_of_pos_right _ hn) h
    have hproduct : length * i < UInt64.size := lt_of_le_of_lt (Nat.mul_le_mul_left _ hi) h
    rw [UInt64.toNat_div, UInt64.toNat_mul, UInt64.toNat_ofNat_of_lt' hword,
      UInt64.toNat_ofNat_of_lt' (lt_of_le_of_lt hi hservers), UInt64.toNat_ofNat_of_lt' hservers,
      Nat.mod_eq_of_lt hproduct, bound]

/-! ## Partition -/

/-- The route of a parameter is a partition of its places. There is none exactly if there are no servers.
Otherwise its servers are in order and below their number, and its spans laid end to end are the places of
the parameter, each of them once. A parameter below the least slice is whole on the server that its index
chooses; of a longer one no span is empty, and every server holds the even share rounded down or up. The
bounds of the spans are words throughout. The partner of a key has the same route. -/
theorem route_partition (servers minSlice : Nat) (key : Key) {length : Nat}
    (h : length * servers < UInt64.size) :
    let s := ofMinSlice servers minSlice
    let spans := s.route key length
    s.isRoutable length = true ∧ (spans = [] ↔ servers = 0) ∧
    (0 < servers →
      (∀ i ≤ servers, (UInt64.ofNat length * UInt64.ofNat i / UInt64.ofNat servers).toNat = s.bound length i) ∧
      (spans.map (·.server)).Pairwise (· < ·) ∧ (∀ span ∈ spans, span.server < servers) ∧
      Tiles spans 0 length ∧ spans.flatMap Span.places = List.range length ∧
      (length < max minSlice 1 → spans = [⟨key.index.toNat % servers, 0, length⟩]) ∧
      (max minSlice 1 ≤ length → (∀ span ∈ spans, span.start < span.stop) ∧
        ∀ i < servers, heldBy spans i = length / servers ∨ heldBy spans i = (length + servers - 1) / servers)) ∧
    s.route key.partner length = spans := by
  intro s spans
  have hroutable : s.isRoutable length = true := by
    simp only [isRoutable, Bool.or_eq_true, decide_eq_true_eq]
    exact .inr h
  refine ⟨hroutable, ⟨fun hnil => ?_, fun hzero => if_pos hzero⟩, fun hn => ?_, rfl⟩
  · by_contra hne
    exact route_ne_nil (show 0 < s.servers from Nat.pos_of_ne_zero hne) (Nat.le_max_right _ _) key length hnil
  · have htiles : Tiles spans 0 length := tiles_route hn key length
    refine ⟨fun i hi => toNat_bound (s := s) hn h hi, pairwise_servers_route s key length,
      fun span hspan => server_lt_of_mem_route hspan, htiles, ?_, fun hwhole => route_whole hn hwhole key,
      fun hcut => ⟨?_, ?_⟩⟩
    · rw [htiles.places, Nat.sub_zero, List.range_eq_range']
    · intro span hspan
      obtain ⟨i, -, hpos, rfl⟩ := (mem_route_cut hn hcut).1 hspan
      exact Nat.lt_of_sub_pos hpos
    · intro i hi
      rw [heldBy_route_cut hn hcut hi]
      exact share_cases hn length i

/-- Two elements on five servers: three of them hold nothing, and no place is lost. -/
theorem route_partition_sparse :
    let spans := (ofMinSlice 5 0).route ⟨"w_3", .weight, 3⟩ 2
    2 * 5 < UInt64.size ∧ spans = [⟨2, 0, 1⟩, ⟨4, 1, 2⟩] ∧ spans.flatMap Span.places = [0, 1] ∧
      ∀ i < 5, heldBy spans i = 0 ∨ heldBy spans i = 1 := by
  intro spans
  have hword : 2 * 5 < UInt64.size := by decide
  obtain ⟨-, -, hpartition, -⟩ := route_partition 5 0 ⟨"w_3", .weight, 3⟩ hword
  obtain ⟨-, -, -, -, hplaces, -, hcut⟩ := hpartition (by decide)
  exact ⟨hword, by decide, hplaces, (hcut (by decide)).2⟩

end Spread

end ParamExchange.Network
