/-
Plain names. Pairing spells an index anew: the name of a partner has the numeral without a plus sign and
without zeros in front. Twice the partner of a key has thus the usual spelling, which is that of the key only
if its name is plain; and keys that are spelled differently, but have the same role and index and both have
an underscore or both have none, share their partner.
-/
import ParamExchange.Proofs.Key.Grammar

namespace ParamExchange

open Text

/-! ## Numerals without zeros in front -/

namespace Text.Decimal

variable {cs : List Char} {n : Nat}

theorem digitChar_eq_zero_iff {d : Nat} (hd : d < 10) : Nat.digitChar d = '0' ↔ d = 0 := by
  constructor
  · intro h
    have hval := Nat.toNat_digitChar_of_lt_ten hd
    rw [h] at hval
    have hzero : '0'.toNat = 48 := rfl
    omega
  · rintro rfl
    rfl

/-- The numerals of zero are zeros. -/
theorem Numeral.head?_of_zero (h : Numeral cs n) (hn : n = 0) : cs.head? = some '0' := by
  induction h with
  | digit hd => rw [hn]; rfl
  | @more cs m d hcs _ ih =>
    obtain ⟨c, rest, rfl⟩ := List.exists_cons_of_ne_nil hcs.ne_nil
    exact ih (by omega)

/-- The digits of a number are its only numeral without zeros in front. -/
theorem Numeral.eq_digits_iff (h : Numeral cs n) : cs = digits n ↔ cs = ['0'] ∨ cs.head? ≠ some '0' := by
  have hdigit : ∀ d < 10, digits d = [Nat.digitChar d] := fun d hd => Nat.toDigits_of_lt_base hd
  induction h with
  | @digit d hd =>
    rw [hdigit d hd]
    simp [digitChar_eq_zero_iff hd, em]
  | @more cs m d hcs hd ih =>
    obtain ⟨c, rest, rfl⟩ := List.exists_cons_of_ne_nil hcs.ne_nil
    rcases Nat.eq_zero_or_pos m with rfl | hm
    · -- a zero in front of another digit
      obtain rfl : c = '0' := Option.some.inj (hcs.head?_of_zero rfl)
      rw [Nat.mul_zero, Nat.zero_add, hdigit d hd]
      simp
    · have happend : digits (10 * m + d) = digits m ++ [Nat.digitChar d] := by
        rw [← hdigit d hd]
        exact (Nat.toDigits_append_toDigits (by decide) hm hd).symm
      have hne : c :: rest ≠ ['0'] := by
        intro heq
        have hvalue := hcs.ofDigitChars
        rw [heq] at hvalue
        exact absurd hvalue.symm hm.ne'
      rw [happend, List.append_cancel_right_eq]
      refine ih.trans ?_
      simp [hne]

end Text.Decimal

namespace Key

open Decimal

/-! ## Partners that are shared -/

/-- Two keys have the same role and index, and both names have an underscore or none of them has. -/
structure Respells (a b : Key) : Prop where
  role : a.role = b.role
  index : a.index = b.index
  underscore : '_' ∈ a.name.toList ↔ '_' ∈ b.name.toList

theorem partner_partner_role (role : Role) : role.partner.partner = role := by cases role <;> rfl

variable {a b : Key} {name : String}

theorem partner_eq_of_name_eq (h : a.partner.name = b.partner.name) : a.partner = b.partner :=
  Except.ok.inj ((ofName_partner a).symm.trans ((congrArg ofName h).trans (ofName_partner b)))

/-- Keys share their partner if and only if one respells the other. -/
theorem name_partner_eq_iff : a.partner.name = b.partner.name ↔ a.Respells b := by
  constructor
  · intro h
    have hsame := partner_eq_of_name_eq h
    have hrole : a.role.partner = b.role.partner := congrArg Key.role hsame
    constructor
    · rw [← partner_partner_role a.role, hrole, partner_partner_role]
    · exact (congrArg Key.index hsame : a.partner.index = b.partner.index)
    · rw [← underscore_mem_partner a, h, underscore_mem_partner]
  · rintro ⟨hrole, hindex, hunderscore⟩
    have hcontains : a.name.toList.contains '_' = b.name.toList.contains '_' := by
      rw [Bool.eq_iff_iff, List.contains_iff_mem, List.contains_iff_mem, hunderscore]
    simp only [partner, hrole, hindex, hcontains]

/-! ## Usual spellings -/

/-- A name is plain: it has no plus sign, and its numeral has no zeros in front. -/
def IsPlain (name : String) : Prop :=
  '+' ∉ name.toList ∧
    (name.toList.dropWhile (!·.isDigit) = ['0'] ∨ (name.toList.dropWhile (!·.isDigit)).head? ≠ some '0')

instance : DecidablePred IsPlain := fun _ => inferInstanceAs (Decidable (_ ∧ _))

/-- The key in its usual spelling. -/
def usual (key : Key) : Key :=
  ⟨key.role.token ++ (if key.name.toList.contains '_' then "_" else "") ++ Decimal.text key.index.toNat,
    key.role, key.index⟩

/-- Twice the partner is the usual spelling. -/
theorem partner_partner (key : Key) : key.partner.partner = key.usual := by
  have hcontains : key.partner.name.toList.contains '_' = key.name.toList.contains '_' := by
    rw [Bool.eq_iff_iff, List.contains_iff_mem, List.contains_iff_mem, underscore_mem_partner]
  have hrole : key.partner.role.partner = key.role := partner_partner_role key.role
  have hindex : key.partner.index = key.index := rfl
  rw [partner, hcontains, hrole, hindex, usual]

theorem Token.eq_token {token : List Char} {role : Role} (h : Token token role) : role.token.toList = token := by
  cases h <;> rfl

theorem plus_not_mem_numeral {cs : List Char} {n : Nat} (h : Numeral cs n) : '+' ∉ cs :=
  fun hmem => absurd (h.isDigit _ hmem) (by decide)

theorem plus_not_mem_token {token : List Char} {role : Role} (h : Token token role) : '+' ∉ token := by
  cases h <;> simp

/-- What stands from the first digit of a spelled name on is its numeral. -/
theorem dropWhile_numeral {front cs : List Char} {n : Nat} (hfront : ∀ c ∈ front, c.isDigit = false)
    (h : Numeral cs n) : (front ++ cs).dropWhile (!·.isDigit) = cs := by
  obtain ⟨c, rest, rfl⟩ := List.exists_cons_of_ne_nil h.ne_nil
  exact (span_append (by simpa using hfront) (by simp [h.isDigit c]) rest).2

theorem toList_usual (key : Key) : key.usual.name.toList =
    key.role.token.toList ++ (if '_' ∈ key.name.toList then ['_'] else []) ++ digits key.index.toNat := by
  by_cases h : '_' ∈ key.name.toList <;> simp [usual, Decimal.text, h]

theorem usual_eq_iff_toList (key : Key) : key.usual = key ↔ key.usual.name.toList = key.name.toList := by
  constructor
  · intro h
    rw [h]
  · intro h
    show Key.mk key.usual.name key.role key.index = Key.mk key.name key.role key.index
    rw [String.toList_inj.1 h]

/-- A parsed key has its usual spelling if and only if its name is plain. -/
theorem usual_eq_iff {key : Key} (h : ofName name = .ok key) : key.usual = key ↔ IsPlain name := by
  obtain ⟨role, n, hspells, hn, rfl⟩ := ofName_eq_ok_iff.1 h
  have hindex : (UInt64.ofNat n).toNat = n := UInt64.toNat_ofNat_of_lt' hn
  rw [usual_eq_iff_toList, toList_usual, IsPlain]
  simp only [hindex]
  generalize name.toList = cs at hspells
  cases hspells with
  | @separated token sign numeral _ _ htoken hsign hnumeral =>
    have hfront : ∀ c ∈ token ++ '_' :: sign, c.isDigit = false := by
      intro c hc
      rw [List.mem_append, List.mem_cons] at hc
      rcases hc with hc | rfl | hc
      · exact (htoken.chars c hc).2
      · rfl
      · rcases hsign with rfl | rfl
        · cases hc
        · obtain rfl := List.mem_singleton.1 hc
          rfl
    have hdrop : (token ++ '_' :: (sign ++ numeral)).dropWhile (!·.isDigit) = numeral := by
      simpa using dropWhile_numeral hfront hnumeral
    have hplus : '+' ∉ token ++ '_' :: (sign ++ numeral) ↔ sign = [] := by
      rcases hsign with rfl | rfl <;> simp [plus_not_mem_token htoken, plus_not_mem_numeral hnumeral]
    rw [hdrop, hplus, ← hnumeral.eq_digits_iff, if_pos (by simp), htoken.eq_token, List.append_assoc,
      List.append_cancel_left_eq, List.singleton_append, List.cons_inj_right]
    constructor
    · intro heq
      rcases hsign with rfl | rfl
      · exact ⟨rfl, heq.symm⟩
      · -- the digits of a number have no sign
        have hmem : '+' ∈ digits n := by simp [heq]
        exact absurd (isDigit_of_mem_digits hmem) (by decide)
    · rintro ⟨rfl, rfl⟩
      rfl
  | @flat token numeral _ _ htoken hnumeral =>
    have hdrop := dropWhile_numeral (fun c hc => (htoken.chars c hc).2) hnumeral
    have hplus : '+' ∉ token ++ numeral := by simp [plus_not_mem_token htoken, plus_not_mem_numeral hnumeral]
    have hunderscore := underscore_not_mem_flat htoken hnumeral
    rw [hdrop, and_iff_right hplus, ← hnumeral.eq_digits_iff, if_neg hunderscore, htoken.eq_token, List.append_nil,
      List.append_cancel_left_eq, eq_comm]

/-- Keys with plain names that share their partner are the same. -/
theorem eq_of_name_partner_eq {other : String} (ha : ofName name = .ok a) (hb : ofName other = .ok b)
    (hname : IsPlain name) (hother : IsPlain other) (h : a.partner.name = b.partner.name) : a = b := by
  calc a = a.partner.partner := ((partner_partner a).trans ((usual_eq_iff ha).2 hname)).symm
    _ = b.partner.partner := by rw [partner_eq_of_name_eq h]
    _ = b := (partner_partner b).trans ((usual_eq_iff hb).2 hother)

end Key

end ParamExchange
