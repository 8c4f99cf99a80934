/-
Partners. The name of a role and an index is read back, with an underscore or without one; so the
accumulator of a trained parameter is a parameter of its own, with a name of its own.
-/
import Mathlib.Data.Nat.Digits.Defs
import Mathlib.Tactic
import ParamExchange.Key.Basic
import ParamExchange.Proofs.Text.Utf8

namespace ParamExchange

open Text

/-! ## Numerals -/

namespace Text.Decimal

theorem isDigit_of_mem_digits {n : Nat} {c : Char} (h : c ∈ digits n) : c.isDigit = true :=
  Nat.isDigit_of_mem_toDigits (by decide) (by decide) h

/-- A word is read back from its digits. -/
theorem readWord?_digits (n : UInt64) : readWord? (digits n.toNat) = some n := by
  have hne : digits n.toNat ≠ [] := Nat.toDigits_ne_nil
  have hread : read? (digits n.toNat) = some n.toNat := by
    have hall : (digits n.toNat).all Char.isDigit = true := List.all_eq_true.2 fun c hc => isDigit_of_mem_digits hc
    have hempty : (digits n.toNat).isEmpty = false := by simpa using hne
    simp only [read?, hempty, hall, Bool.not_true, Bool.or_self, Bool.false_eq_true, if_false]
    exact congrArg some (Nat.ofDigitChars_toDigits (by decide) (by decide))
  have hplus : ∀ cs, digits n.toNat ≠ '+' :: cs := by
    intro cs heq
    have hdigit : Char.isDigit '+' = true := isDigit_of_mem_digits (heq ▸ List.mem_cons_self ..)
    exact absurd hdigit (by decide)
  unfold readWord?
  split
  · rename_i heq
    exact absurd heq (hplus _)
  · rw [hread, Option.bind_some, toWord?, if_pos n.toNat_lt_size, UInt64.ofNat_toNat]

end Text.Decimal

/-! ## Names -/

namespace Key

/-- What stands before the first character that does not fit, and what stands from it on. -/
theorem span_append {p : Char → Bool} {token : List Char} {c : Char} (h : ∀ x ∈ token, p x = true)
    (hc : p c = false) (rest : List Char) :
    (token ++ c :: rest).takeWhile p = token ∧ (token ++ c :: rest).dropWhile p = c :: rest := by
  constructor
  · rw [List.takeWhile_append_of_pos h, List.takeWhile_cons_of_neg (by simp [hc]), List.append_nil]
  · rw [List.dropWhile_append_of_pos h, List.dropWhile_cons_of_neg (by simp [hc])]

theorem parts_underscore {token digits : List Char} (h : ∀ c ∈ token, c ≠ '_') :
    parts (token ++ '_' :: digits) = (token, digits) := by
  obtain ⟨htake, hdrop⟩ := span_append (p := (· != '_')) (c := '_')
    (fun c hc => bne_iff_ne.2 (h c hc)) (by decide) digits
  unfold parts
  rw [if_pos (by simp), htake, hdrop, List.drop_one, List.tail_cons]

theorem parts_digit {token digits : List Char} {first : Char} (h : ∀ c ∈ token, c ≠ '_' ∧ c.isDigit = false)
    (hdigits : ∀ c ∈ first :: digits, c.isDigit = true) :
    parts (token ++ first :: digits) = (token, first :: digits) := by
  have hnone : '_' ∉ token ++ first :: digits := by
    rw [List.mem_append]
    rintro (hmem | hmem)
    · exact (h _ hmem).1 rfl
    · exact absurd (hdigits _ hmem) (by decide)
  obtain ⟨htake, hdrop⟩ := span_append (p := (!·.isDigit)) (c := first)
    (fun c hc => by simp [(h c hc).2]) (by simp [hdigits first (List.mem_cons_self ..)]) digits
  unfold parts
  rw [if_neg (by simpa using hnone), htake, hdrop]

theorem token_chars (role : Role) : ∀ c ∈ role.token.toList, c ≠ '_' ∧ c.isDigit = false := by
  cases role <;> simp [Role.token]

theorem ofToken?_token (role : Role) : Role.ofToken? (String.ofList role.token.toList) = some role := by
  cases role <;> decide

/-- A key is read from its own name. -/
theorem name_of_ofName {name : String} {key : Key} (h : ofName name = .ok key) : key.name = name := by
  unfold ofName at h
  dsimp only at h
  split at h
  · cases h
  · split at h
    · cases h
    · cases h
      rfl

/-- The name of a role and an index is read back in both spellings. -/
theorem ofName_spelled (role : Role) (index : UInt64) {separator : String} (h : separator = "_" ∨ separator = "") :
    ofName (role.token ++ separator ++ Decimal.text index.toNat) =
      .ok ⟨role.token ++ separator ++ Decimal.text index.toNat, role, index⟩ := by
  have hparts : parts (role.token ++ separator ++ Decimal.text index.toNat).toList =
      (role.token.toList, Decimal.digits index.toNat) := by
    rw [String.toList_append, String.toList_append, Decimal.text, String.toList_ofList, List.append_assoc]
    rcases h with rfl | rfl
    · exact parts_underscore fun c hc => (token_chars role c hc).1
    · obtain ⟨first, digits, hcons⟩ := List.exists_cons_of_ne_nil (Nat.toDigits_ne_nil (n := index.toNat) (b := 10))
      have hdigits : Decimal.digits index.toNat = first :: digits := hcons
      rw [hdigits]
      exact parts_digit (token_chars role) fun c hc => Decimal.isDigit_of_mem_digits (hdigits ▸ hc)
  unfold ofName
  simp only [hparts, ofToken?_token, Decimal.readWord?_digits]

theorem ofName_ofRole (role : Role) (index : UInt64) : ofName (ofRole role index).name = .ok (ofRole role index) :=
  ofName_spelled role index (.inl rfl)

theorem ofName_partner (key : Key) : ofName key.partner.name = .ok key.partner := by
  apply ofName_spelled
  split
  · exact .inl rfl
  · exact .inr rfl

theorem isMomentum_partner (role : Role) : role.partner.isMomentum = !role.isMomentum := by cases role <;> rfl

/-- A parsed key of a trained parameter does not have the name of an accumulator of one. -/
theorem name_ne_partner_name {a b : Key} (ha : a.role.isMomentum = false) (hb : b.role.isMomentum = false)
    (hparsed : ofName b.name = .ok b) : b.name ≠ a.partner.name := by
  intro heq
  have hsame : b = a.partner := Except.ok.inj (hparsed.symm.trans (heq ▸ ofName_partner a))
  rw [hsame, show a.partner.role = a.role.partner from rfl, isMomentum_partner, ha] at hb
  cases hb

/-- The name of a partner is short, whatever the name of the key is. -/
theorem length_encode_partner_le (key : Key) : (Utf8.encode key.partner.name).length ≤ 92 := by
  have htoken : key.role.partner.token.toList.length ≤ 2 := by cases key.role <;> decide
  have hdigits : (Decimal.digits key.index.toNat).length ≤ 20 :=
    Nat.toDigits_length 10 _ 20 (by decide) (lt_trans key.index.toNat_lt (by decide))
  have hseparator : (if key.name.toList.contains '_' then "_" else "").toList.length ≤ 1 := by split <;> decide
  have hname : key.partner.name.toList.length ≤ 23 := by
    show (key.role.partner.token ++ (if key.name.toList.contains '_' then "_" else "") ++
      Decimal.text key.index.toNat).toList.length ≤ 23
    rw [String.toList_append, String.toList_append, Decimal.text, String.toList_ofList, List.length_append,
      List.length_append]
    omega
  have hle := Utf8.length_encode_le key.partner.name
  omega

/-- The partner of a parsed key has another name. -/
theorem name_partner_ne {key : Key} (h : ofName key.name = .ok key) : key.partner.name ≠ key.name := by
  intro heq
  have hsame : key.partner = key := Except.ok.inj ((ofName_partner key).symm.trans (heq ▸ h))
  have hrole := isMomentum_partner key.role
  rw [show key.role.partner = key.role from congrArg role hsame] at hrole
  simp at hrole

end Key

end ParamExchange
