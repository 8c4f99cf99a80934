/-
Numbers and octets are the same thing twice: what is written with a width is read back from the
front of any octets, every run of octets is the written form of the number in it, and numbers of
single precision keep their bits.
-/
import Mathlib.Tactic
import ParamExchange.Wire.Octets

namespace ParamExchange.Wire

/-! ## Natural numbers -/

@[simp] theorem big_zero (n : Nat) : big 0 n = [] := rfl

theorem big_succ (width n : Nat) : big (width + 1) n = UInt8.ofNat (n / 256 ^ width) :: big width n := rfl

@[simp] theorem length_big (width n : Nat) : (big width n).length = width := by
  induction width with
  | zero => rfl
  | succ width ih => simp [big_succ, ih]

theorem ofBig_nil : ofBig [] = 0 := rfl

/-- Octets that are read after a number has been read count as its lower digits. -/
theorem foldl_octets (bs : List UInt8) (a : Nat) :
    bs.foldl (fun n b => 256 * n + b.toNat) a = a * 256 ^ bs.length + ofBig bs := by
  induction bs generalizing a with
  | nil => simp [ofBig_nil]
  | cons b bs ih =>
    have hb : ofBig (b :: bs) = b.toNat * 256 ^ bs.length + ofBig bs := by
      show (b :: bs).foldl (fun n b => 256 * n + b.toNat) 0 = _
      rw [List.foldl_cons, ih, Nat.mul_zero, Nat.zero_add]
    rw [List.foldl_cons, ih, hb, List.length_cons, Nat.pow_succ]
    ring

theorem ofBig_cons (b : UInt8) (bs : List UInt8) :
    ofBig (b :: bs) = b.toNat * 256 ^ bs.length + ofBig bs := by
  show (b :: bs).foldl (fun n b => 256 * n + b.toNat) 0 = _
  rw [List.foldl_cons, foldl_octets, Nat.mul_zero, Nat.zero_add]

theorem ofBig_lt (bs : List UInt8) : ofBig bs < 256 ^ bs.length := by
  induction bs with
  | nil => simp [ofBig_nil]
  | cons b bs ih =>
    rw [ofBig_cons, List.length_cons, Nat.pow_succ]
    have hb : b.toNat < 256 := b.toNat_lt
    have hm : b.toNat * 256 ^ bs.length ≤ 255 * 256 ^ bs.length := Nat.mul_le_mul_right _ (by omega)
    omega

/-- A number in so many octets loses what does not fit. -/
theorem ofBig_big (width n : Nat) : ofBig (big width n) = n % 256 ^ width := by
  induction width with
  | zero => simp [ofBig_nil, Nat.mod_one]
  | succ width ih =>
    have hb : (UInt8.ofNat (n / 256 ^ width)).toNat = n / 256 ^ width % 256 := by simp
    rw [big_succ, ofBig_cons, length_big, ih, hb, Nat.pow_succ, Nat.mod_mul]
    ring

theorem ofBig_big_of_lt {width n : Nat} (h : n < 256 ^ width) : ofBig (big width n) = n := by
  rw [ofBig_big, Nat.mod_eq_of_lt h]

theorem big_mod (width n : Nat) : ∀ k, big width (n + k * 256 ^ width) = big width n := by
  induction width generalizing n with
  | zero => intro k; rfl
  | succ width ih =>
    intro k
    have hp : 0 < 256 ^ width := Nat.pow_pos (by decide)
    have hs : n + k * 256 ^ (width + 1) = n + 256 * k * 256 ^ width := by rw [Nat.pow_succ]; ring
    have hd : (n + 256 * k * 256 ^ width) / 256 ^ width = n / 256 ^ width + 256 * k :=
      Nat.add_mul_div_right n _ hp
    rw [big_succ, big_succ, hs, ih, hd]
    congr 1
    apply UInt8.toNat_inj.1
    simp

/-- Octets are the written form of the number in them. -/
theorem big_ofBig (bs : List UInt8) : big bs.length (ofBig bs) = bs := by
  induction bs with
  | nil => rfl
  | cons b bs ih =>
    have hp : 0 < 256 ^ bs.length := Nat.pow_pos (by decide)
    have hd : (ofBig bs + b.toNat * 256 ^ bs.length) / 256 ^ bs.length = b.toNat := by
      rw [Nat.add_mul_div_right _ _ hp, Nat.div_eq_of_lt (ofBig_lt bs), Nat.zero_add]
    rw [ofBig_cons, Nat.add_comm, List.length_cons, big_succ, big_mod, ih, hd]
    simp

/-! ## The front of some octets -/

theorem takeBig?_append {width n : Nat} (h : n < 256 ^ width) (rest : List UInt8) :
    takeBig? width (big width n ++ rest) = some (n, rest) := by
  unfold takeBig?
  have hl : ¬ (big width n ++ rest).length < width := by simp
  rw [if_neg hl, List.take_left' (length_big width n), List.drop_left' (length_big width n),
    ofBig_big_of_lt h]

theorem takeBig?_eq_some_iff {width n : Nat} {bs rest : List UInt8} :
    takeBig? width bs = some (n, rest) ↔ n < 256 ^ width ∧ bs = big width n ++ rest := by
  constructor
  · intro h
    unfold takeBig? at h
    split at h
    · cases h
    · rename_i hl
      simp only [Option.some.injEq, Prod.mk.injEq] at h
      obtain ⟨rfl, rfl⟩ := h
      have ht : (bs.take width).length = width := by rw [List.length_take]; omega
      have hlt := ofBig_lt (bs.take width)
      have hbig := big_ofBig (bs.take width)
      rw [ht] at hlt hbig
      exact ⟨hlt, by rw [hbig, List.take_append_drop]⟩
  · rintro ⟨h, rfl⟩
    exact takeBig?_append h rest

theorem takeBig?_eq_none_iff {width : Nat} {bs : List UInt8} :
    takeBig? width bs = none ↔ bs.length < width := by
  unfold takeBig?
  split
  · simpa
  · simpa using Nat.le_of_not_lt ‹_›

/-! ## Padding -/

theorem padding_add {a : Nat} (h : a % 4 = 0) (n : Nat) : padding (a + n) = padding n := by
  unfold padding; omega

theorem cast_padding (n : Nat) : (padding n : ℤ) = -(n : ℤ) % 4 := by
  unfold padding; omega

/-- What is filled up with its padding ends at a multiple of four. -/
theorem add_padding_mod (n : Nat) : (n + padding n) % 4 = 0 := by
  unfold padding; omega

/-! ## Numbers of single precision -/

theorem length_little (x : Single) : (little x).length = 4 := by simp [little]

theorem length_littles (xs : List Single) : (littles xs).length = 4 * xs.length := by
  induction xs with
  | nil => rfl
  | cons x xs ih =>
    rw [littles, List.flatMap_cons, List.length_append, length_little, List.length_cons]
    rw [littles] at ih
    omega

theorem ofLittles?_little (x : Single) (rest : List UInt8) :
    ofLittles? (little x ++ rest) = (ofLittles? rest).map (x :: ·) := by
  have hx : x.bits.toNat < 256 ^ 4 := x.bits.toNat_lt
  have hback := ofBig_big_of_lt hx
  simp only [little, big_succ, big_zero, List.reverse_cons, List.reverse_nil, List.nil_append,
    List.cons_append]
  simp only [big_succ, big_zero] at hback
  rw [ofLittles?, ofLittle, hback, UInt32.ofNat_toNat]

/-- Numbers are read back with all their bits. -/
theorem ofLittles?_littles (xs : List Single) : ofLittles? (littles xs) = some xs := by
  induction xs with
  | nil => rfl
  | cons x xs ih =>
    rw [littles, List.flatMap_cons, ofLittles?_little]
    rw [littles] at ih
    rw [ih, Option.map_some]

/-- Four octets are those of the number in them. -/
theorem little_ofLittle (a b c d : UInt8) : little (ofLittle a b c d) = [a, b, c, d] := by
  have hlt : ofBig [d, c, b, a] < 2 ^ 32 := by simpa using ofBig_lt [d, c, b, a]
  have hbits : (ofLittle a b c d).bits.toNat = ofBig [d, c, b, a] := by
    rw [ofLittle, UInt32.toNat_ofNat']
    exact Nat.mod_eq_of_lt hlt
  rw [little, hbits, show 4 = [d, c, b, a].length from rfl, big_ofBig]
  rfl

/-- Numbers are read from their own octets only. -/
theorem ofLittles?_eq_some_iff {bs : List UInt8} {xs : List Single} :
    ofLittles? bs = some xs ↔ bs = littles xs := by
  constructor
  · intro h
    induction bs using ofLittles?.induct generalizing xs with
    | case1 => cases h; rfl
    | case2 a b c d rest ih =>
      obtain ⟨ys, hys, rfl⟩ := Option.map_eq_some_iff.1 h
      rw [littles, List.flatMap_cons, little_ofLittle, ih hys]
      rfl
    | case3 bs hnil hfour =>
      unfold ofLittles? at h
      split at h
      · exact absurd rfl hnil
      · exact absurd rfl (hfour _ _ _ _ _)
      · cases h
  · rintro rfl
    exact ofLittles?_littles xs

end ParamExchange.Wire
