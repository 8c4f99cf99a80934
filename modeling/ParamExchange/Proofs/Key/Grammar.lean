/-
The grammar of parameter names. A name is a role token with an index: after an underscore a decimal
numeral, in front of which one plus sign may stand, or without an underscore a numeral at once. What is
read from a name is what the grammar says. A name that it does not have is refused for the token in front
of the index if this is no role token, and for the index otherwise. Every name that is written has it.
-/
import Mathlib.Data.List.TakeWhile
import ParamExchange.Proofs.Key.Partners

namespace ParamExchange

open Text

/-! ## Numerals -/

namespace Text.Decimal

/-- `Numeral cs n`: some decimal digits, the most significant one first, and the number that they denote. -/
inductive Numeral : List Char → Nat → Prop
  | digit {d : Nat} : d < 10 → Numeral [Nat.digitChar d] d
  | more {cs : List Char} {n d : Nat} : Numeral cs n → d < 10 → Numeral (cs ++ [Nat.digitChar d]) (10 * n + d)

theorem exists_digitChar {c : Char} (h : c.isDigit = true) : ∃ d < 10, Nat.digitChar d = c := by
  obtain ⟨hlow, hhigh⟩ := Char.isDigit_iff_toNat.1 h
  have hzero : '0'.toNat = 48 := rfl
  have hnine : '9'.toNat = 57 := rfl
  have hlt : c.toNat - 48 < 10 := by omega
  refine ⟨c.toNat - 48, hlt, Char.toNat_inj.1 ?_⟩
  rw [Nat.toNat_digitChar_of_lt_ten hlt]
  omega

variable {cs : List Char} {n : Nat}

theorem Numeral.ne_nil (h : Numeral cs n) : cs ≠ [] := by
  cases h <;> simp

theorem Numeral.isDigit (h : Numeral cs n) : ∀ c ∈ cs, c.isDigit = true := by
  induction h with
  | digit hd => simpa [Nat.isDigit_digitChar] using hd
  | more _ hd ih =>
    intro c hc
    rcases List.mem_append.1 hc with hc | hc
    · exact ih c hc
    · obtain rfl := List.mem_singleton.1 hc
      simpa [Nat.isDigit_digitChar] using hd

theorem Numeral.ofDigitChars (h : Numeral cs n) : Nat.ofDigitChars 10 cs 0 = n := by
  induction h with
  | digit hd => simp [Nat.ofDigitChars_cons_digitChar_of_lt_ten hd]
  | more _ hd ih => simp [Nat.ofDigitChars_append, ih, Nat.ofDigitChars_cons_digitChar_of_lt_ten hd]

/-- Some digits denote a number. -/
theorem numeral_ofDigitChars (hne : cs ≠ []) (h : ∀ c ∈ cs, c.isDigit = true) :
    Numeral cs (Nat.ofDigitChars 10 cs 0) := by
  induction cs using List.reverseRecOn with
  | nil => exact absurd rfl hne
  | append_singleton cs c ih =>
    obtain ⟨d, hd, rfl⟩ := exists_digitChar (h c (by simp))
    rcases eq_or_ne cs [] with rfl | hcs
    · simpa [Nat.ofDigitChars_cons_digitChar_of_lt_ten hd] using Numeral.digit hd
    · have hfirst := ih hcs fun x hx => h x (List.mem_append_left _ hx)
      simpa [Nat.ofDigitChars_append, Nat.ofDigitChars_cons_digitChar_of_lt_ten hd] using hfirst.more hd

/-- What is read as a number are its numerals. -/
theorem read?_eq_some_iff : read? cs = some n ↔ Numeral cs n := by
  unfold read?
  constructor
  · intro h
    split at h
    · cases h
    · rename_i hread
      simp only [Bool.or_eq_true, not_or, List.isEmpty_iff, Bool.not_eq_true', Bool.not_eq_false,
        List.all_eq_true] at hread
      cases h
      exact numeral_ofDigitChars hread.1 hread.2
  · intro h
    have hempty : cs.isEmpty = false := by simpa using h.ne_nil
    have hall : cs.all Char.isDigit = true := List.all_eq_true.2 h.isDigit
    simp [hempty, hall, h.ofDigitChars]

/-- What is read as a word is a numeral below its size, or one with a plus sign. -/
theorem readWord?_eq_some_iff {i : UInt64} :
    readWord? cs = some i ↔ ∃ sign digits n, (sign = [] ∨ sign = ['+']) ∧ cs = sign ++ digits ∧
      Numeral digits n ∧ n < 2 ^ 64 ∧ i = UInt64.ofNat n := by
  have hword : ∀ digits : List Char, (read? digits).bind toWord? = some i ↔
      ∃ n, Numeral digits n ∧ n < 2 ^ 64 ∧ i = UInt64.ofNat n := by
    intro digits
    have hsize : UInt64.size = 2 ^ 64 := rfl
    simp only [Option.bind_eq_some_iff, read?_eq_some_iff, toWord?, Option.ite_none_right_eq_some, Option.some.injEq,
      hsize, @eq_comm _ i]
  unfold readWord?
  split
  · rename_i digits
    rw [hword]
    constructor
    · rintro ⟨n, hn⟩
      exact ⟨['+'], digits, n, .inr rfl, rfl, hn⟩
    · rintro ⟨sign, other, n, rfl | rfl, hcs, hn⟩
      · -- a plus sign is no digit
        obtain rfl : '+' :: digits = other := hcs
        exact absurd (hn.1.isDigit '+' (by simp)) (by decide)
      · obtain rfl : digits = other := (List.cons.inj hcs).2
        exact ⟨n, hn⟩
  · rename_i hplus
    rw [hword]
    constructor
    · rintro ⟨n, hn⟩
      exact ⟨[], cs, n, .inl rfl, rfl, hn⟩
    · rintro ⟨sign, other, n, rfl | rfl, rfl, hn⟩
      · exact ⟨n, hn⟩
      · exact absurd rfl (hplus other)

end Text.Decimal

/-! ## Names -/

namespace Key

open Decimal

/-- The tokens of the roles. -/
inductive Token : List Char → Role → Prop
  | weight : Token ['w'] .weight
  | bias : Token ['b'] .bias
  | weightMomentum : Token ['w', 'd'] .weightMomentum
  | biasMomentum : Token ['b', 'd'] .biasMomentum

/-- `Spells name role n`: the name is a token of the role, followed by an underscore and a numeral of `n`,
which may have a plus sign, or by a numeral at once. -/
inductive Spells : List Char → Role → Nat → Prop
  | separated {token sign digits : List Char} {role : Role} {n : Nat} :
      Token token role → (sign = [] ∨ sign = ['+']) → Numeral digits n →
      Spells (token ++ '_' :: (sign ++ digits)) role n
  | flat {token digits : List Char} {role : Role} {n : Nat} :
      Token token role → Numeral digits n → Spells (token ++ digits) role n

/-- `Heads token name`: the token is what stands in front of the first underscore or, in a name without
one, in front of the first digit or the end. -/
inductive Heads : List Char → List Char → Prop
  | underscore {token rest : List Char} : '_' ∉ token → Heads token (token ++ '_' :: rest)
  | digit {token rest : List Char} {c : Char} : '_' ∉ token ++ c :: rest → (∀ x ∈ token, x.isDigit = false) →
      c.isDigit = true → Heads token (token ++ c :: rest)
  | whole {token : List Char} : '_' ∉ token → (∀ x ∈ token, x.isDigit = false) → Heads token token

variable {name token : List Char} {role : Role}

theorem Token.chars (h : Token token role) : ∀ c ∈ token, c ≠ '_' ∧ c.isDigit = false := by
  cases h <;> simp

theorem token_toList (role : Role) : Token role.token.toList role := by
  cases role
  · exact .weight
  · exact .bias
  · exact .weightMomentum
  · exact .biasMomentum

theorem ofToken?_eq_some_iff : Role.ofToken? (String.ofList token) = some role ↔ Token token role := by
  constructor
  · intro h
    have hname : role.token = String.ofList token := by simpa using List.find?_some h
    have htoken : role.token.toList = token := by rw [hname, String.toList_ofList]
    exact htoken ▸ token_toList role
  · intro h
    cases h <;> decide

/-! ## Parts -/

/-- A list up to the first element that does not fit. -/
theorem all_or_first (p : Char → Bool) (cs : List Char) :
    (∀ x ∈ cs, p x = true) ∨
      ∃ before c rest, cs = before ++ c :: rest ∧ (∀ x ∈ before, p x = true) ∧ p c = false := by
  induction cs with
  | nil => exact .inl nofun
  | cons c cs ih =>
    rcases hc : p c with _ | _
    · exact .inr ⟨[], c, cs, rfl, nofun, hc⟩
    · obtain hall | ⟨before, d, rest, rfl, hbefore, hd⟩ := ih
      · exact .inl (List.forall_mem_cons.2 ⟨hc, hall⟩)
      · exact .inr ⟨c :: before, d, rest, rfl, List.forall_mem_cons.2 ⟨hc, hbefore⟩, hd⟩

/-- Every name has a token. -/
theorem exists_heads (name : List Char) : ∃ token, Heads token name := by
  obtain hunder | ⟨token, c, rest, rfl, htoken, hc⟩ := all_or_first (· != '_') name
  · have hnone : '_' ∉ name := fun hmem => absurd (hunder '_' hmem) (by decide)
    obtain hdigit | ⟨token, c, rest, rfl, htoken, hc⟩ := all_or_first (!·.isDigit) name
    · exact ⟨name, .whole hnone (by simpa using hdigit)⟩
    · exact ⟨token, .digit hnone (by simpa using htoken) (by simpa using hc)⟩
  · obtain rfl : c = '_' := by simpa using hc
    exact ⟨token, .underscore fun hmem => absurd (htoken '_' hmem) (by decide)⟩

theorem parts_whole (h : '_' ∉ token) (htoken : ∀ x ∈ token, x.isDigit = false) : parts token = (token, []) := by
  have hall : ∀ x ∈ token, (!x.isDigit) = true := by simpa using htoken
  have htake : token.takeWhile (!·.isDigit) = token := List.takeWhile_eq_self_iff.2 hall
  have hdrop : token.dropWhile (!·.isDigit) = [] := List.dropWhile_eq_nil_iff.2 hall
  unfold parts
  rw [if_neg (by simpa using h), htake, hdrop]

theorem parts_first_digit {rest : List Char} {c : Char} (h : '_' ∉ token ++ c :: rest)
    (htoken : ∀ x ∈ token, x.isDigit = false) (hc : c.isDigit = true) :
    parts (token ++ c :: rest) = (token, c :: rest) := by
  obtain ⟨htake, hdrop⟩ := span_append (p := (!·.isDigit)) (c := c) (by simpa using htoken) (by simpa using hc) rest
  unfold parts
  rw [if_neg (by simpa using h), htake, hdrop]

/-- The token of a name is its first part. -/
theorem Heads.parts_fst (h : Heads token name) : (parts name).1 = token := by
  cases h with
  | underscore h => rw [parts_underscore fun x hx heq => h (heq ▸ hx)]
  | digit h htoken hc => rw [parts_first_digit h htoken hc]
  | whole h htoken => rw [parts_whole h htoken]

theorem Heads.unique {other : List Char} (h : Heads token name) (hother : Heads other name) : token = other :=
  h.parts_fst.symm.trans hother.parts_fst

/-- What a name spells is what follows its token, and the underscore if there is one. -/
theorem spells_iff {n : Nat} {index : List Char} (hparts : parts name = (token, index)) (htoken : Token token role) :
    Spells name role n ↔ ∃ sign digits, (sign = [] ∨ sign = ['+']) ∧ index = sign ++ digits ∧ Numeral digits n := by
  constructor
  · intro h
    cases h with
    | @separated first sign digits _ _ hfirst hsign hdigits =>
      rw [parts_underscore fun x hx => (hfirst.chars x hx).1, Prod.mk.injEq] at hparts
      exact ⟨sign, digits, hsign, hparts.2.symm, hdigits⟩
    | @flat first digits _ _ hfirst hdigits =>
      obtain ⟨c, rest, rfl⟩ := List.exists_cons_of_ne_nil hdigits.ne_nil
      rw [parts_digit hfirst.chars hdigits.isDigit, Prod.mk.injEq] at hparts
      exact ⟨[], c :: rest, .inl rfl, hparts.2.symm, hdigits⟩
  · rintro ⟨sign, digits, hsign, rfl, hdigits⟩
    obtain ⟨first, hheads⟩ := exists_heads name
    cases hheads with
    | underscore hfirst =>
      rw [parts_underscore fun x hx heq => hfirst (heq ▸ hx), Prod.mk.injEq] at hparts
      obtain ⟨rfl, rfl⟩ := hparts
      exact .separated htoken hsign hdigits
    | digit hnone hfirst hc =>
      rw [parts_first_digit hnone hfirst hc, Prod.mk.injEq] at hparts
      obtain ⟨rfl, hindex⟩ := hparts
      rcases hsign with rfl | rfl
      · rw [hindex]
        exact .flat htoken hdigits
      · -- without an underscore the index begins with a digit
        obtain rfl := (List.cons.inj hindex).1
        exact absurd hc (by decide)
    | whole hnone hfirst =>
      rw [parts_whole hnone hfirst, Prod.mk.injEq] at hparts
      exact absurd (List.append_eq_nil_iff.1 hparts.2.symm).2 hdigits.ne_nil

theorem underscore_not_mem_flat {digits : List Char} {n : Nat} (htoken : Token token role)
    (hdigits : Numeral digits n) : '_' ∉ token ++ digits := by
  rw [List.mem_append]
  rintro (hmem | hmem)
  · exact (htoken.chars _ hmem).1 rfl
  · exact absurd (hdigits.isDigit _ hmem) (by decide)

/-- A name that spells an index has a role token. -/
theorem Spells.heads {n : Nat} (h : Spells name role n) : ∃ token, Heads token name ∧ Token token role := by
  cases h with
  | @separated token _ _ _ _ htoken => exact ⟨token, .underscore fun hmem => (htoken.chars _ hmem).1 rfl, htoken⟩
  | @flat token digits _ _ htoken hdigits =>
    have hnone := underscore_not_mem_flat htoken hdigits
    obtain ⟨c, rest, rfl⟩ := List.exists_cons_of_ne_nil hdigits.ne_nil
    exact ⟨token, .digit hnone (fun x hx => (htoken.chars x hx).2) (hdigits.isDigit c (by simp)), htoken⟩

/-! ## Readings -/

section Readings

variable {name : String} {token index : List Char} {role : Role}

theorem ofName_unknown (hparts : parts name.toList = (token, index)) (h : ∀ role, ¬ Token token role) :
    ofName name = .error (.unknownRole name (String.ofList token)) := by
  have hnone : Role.ofToken? (String.ofList token) = none :=
    Option.eq_none_iff_forall_ne_some.2 fun role hrole => h role (ofToken?_eq_some_iff.1 hrole)
  simp only [ofName, hparts, hnone]

theorem ofName_known (hparts : parts name.toList = (token, index)) (h : Token token role) :
    ofName name = match readWord? index with
      | none => .error (.malformedIndex name)
      | some i => .ok ⟨name, role, i⟩ := by
  rcases hword : readWord? index with _ | i <;> simp only [ofName, hparts, ofToken?_eq_some_iff.2 h, hword]

/-- A name is read as what it spells, if this is a word. -/
theorem ofName_of_spells {n : Nat} (h : Spells name.toList role n) (hn : n < 2 ^ 64) :
    ofName name = .ok ⟨name, role, UInt64.ofNat n⟩ := by
  obtain ⟨token, hheads, htoken⟩ := h.heads
  have hparts : parts name.toList = (token, (parts name.toList).2) := Prod.ext hheads.parts_fst rfl
  obtain ⟨sign, digits, hsign, hindex, hdigits⟩ := (spells_iff hparts htoken).1 h
  have hword : readWord? (parts name.toList).2 = some (UInt64.ofNat n) :=
    readWord?_eq_some_iff.2 ⟨sign, digits, n, hsign, hindex, hdigits, hn, rfl⟩
  rw [ofName_known hparts htoken, hword]

/-- A name is read as what it spells, or refused for its token, or refused for its index. -/
theorem ofName_cases (name : String) :
    (∃ role n, Spells name.toList role n ∧ n < 2 ^ 64 ∧ ofName name = .ok ⟨name, role, UInt64.ofNat n⟩) ∨
    ∃ token, Heads token name.toList ∧
      ((∀ role, ¬ Token token role) ∧ ofName name = .error (.unknownRole name (String.ofList token)) ∨
        (∃ role, Token token role) ∧ ofName name = .error (.malformedIndex name)) := by
  obtain ⟨token, hheads⟩ := exists_heads name.toList
  have hparts : parts name.toList = (token, (parts name.toList).2) := Prod.ext hheads.parts_fst rfl
  by_cases htoken : ∃ role, Token token role
  · obtain ⟨role, htoken⟩ := htoken
    rcases hword : readWord? (parts name.toList).2 with _ | i
    · exact .inr ⟨token, hheads, .inr ⟨⟨role, htoken⟩, by rw [ofName_known hparts htoken, hword]⟩⟩
    · obtain ⟨sign, digits, n, hsign, hindex, hdigits, hn, rfl⟩ := readWord?_eq_some_iff.1 hword
      have hspells := (spells_iff hparts htoken).2 ⟨sign, digits, hsign, hindex, hdigits⟩
      exact .inl ⟨role, n, hspells, hn, ofName_of_spells hspells hn⟩
  · have hnone : ∀ role, ¬ Token token role := fun role hrole => htoken ⟨role, hrole⟩
    exact .inr ⟨token, hheads, .inl ⟨hnone, ofName_unknown hparts hnone⟩⟩

/-- What is read from a name. -/
theorem ofName_eq_ok_iff {key : Key} : ofName name = .ok key ↔
    ∃ role n, Spells name.toList role n ∧ n < 2 ^ 64 ∧ key = ⟨name, role, UInt64.ofNat n⟩ := by
  constructor
  · intro h
    obtain ⟨role, n, hspells, hn, hok⟩ | ⟨token, -, ⟨-, herror⟩ | ⟨-, herror⟩⟩ := ofName_cases name
    · rw [hok] at h
      exact ⟨role, n, hspells, hn, (Except.ok.inj h).symm⟩
    · rw [herror] at h
      cases h
    · rw [herror] at h
      cases h
  · rintro ⟨role, n, hspells, hn, rfl⟩
    exact ofName_of_spells hspells hn

/-- Why a name is refused. -/
theorem ofName_eq_error_iff (hheads : Heads token name.toList) {e : KeyError} : ofName name = .error e ↔
    (¬ ∃ role n, Spells name.toList role n ∧ n < 2 ^ 64) ∧
      ((∀ role, ¬ Token token role) ∧ e = .unknownRole name (String.ofList token) ∨
        (∃ role, Token token role) ∧ e = .malformedIndex name) := by
  obtain ⟨role, n, hspells, hn, hok⟩ | ⟨other, hother, hrefused⟩ := ofName_cases name
  · rw [hok]
    exact iff_of_false nofun fun h => h.1 ⟨role, n, hspells, hn⟩
  · obtain rfl := hother.unique hheads
    have hnone : ¬ ∃ role n, Spells name.toList role n ∧ n < 2 ^ 64 := by
      rintro ⟨role, n, hspells, hn⟩
      have hok := ofName_of_spells hspells hn
      rcases hrefused with ⟨-, herror⟩ | ⟨-, herror⟩ <;> rw [herror] at hok <;> cases hok
    rw [and_iff_right hnone]
    rcases hrefused with ⟨hunknown, herror⟩ | ⟨⟨role, htoken⟩, herror⟩ <;> rw [herror, Except.error.injEq]
    · constructor
      · rintro rfl
        exact .inl ⟨hunknown, rfl⟩
      · rintro (⟨-, rfl⟩ | ⟨⟨role, htoken⟩, -⟩)
        · rfl
        · exact absurd htoken (hunknown role)
    · constructor
      · rintro rfl
        exact .inr ⟨⟨role, htoken⟩, rfl⟩
      · rintro (⟨hunknown, -⟩ | ⟨-, rfl⟩)
        · exact absurd htoken (hunknown role)
        · rfl

end Readings

/-! ## Partners -/

/-- The token of a partner is that of the key with a `d`, or without the `d` that it has. -/
theorem token_partner (key : Key) :
    ∃ token, Token token key.role ∧ Token (token ++ ['d']) key.partner.role ∨
      Token token key.partner.role ∧ Token (token ++ ['d']) key.role := by
  have hpartner : key.partner.role = key.role.partner := rfl
  rw [hpartner]
  cases key.role with
  | weight => exact ⟨['w'], .inl ⟨.weight, .weightMomentum⟩⟩
  | bias => exact ⟨['b'], .inl ⟨.bias, .biasMomentum⟩⟩
  | weightMomentum => exact ⟨['w'], .inr ⟨.weight, .weightMomentum⟩⟩
  | biasMomentum => exact ⟨['b'], .inr ⟨.bias, .biasMomentum⟩⟩

/-- The name of a partner has an underscore if and only if the name of the key has one. -/
theorem underscore_mem_partner (key : Key) : '_' ∈ key.partner.name.toList ↔ '_' ∈ key.name.toList := by
  have htoken : '_' ∉ key.role.partner.token.toList := fun hmem => (token_chars _ _ hmem).1 rfl
  have hdigits : '_' ∉ Decimal.digits key.index.toNat := fun hmem => absurd (isDigit_of_mem_digits hmem) (by decide)
  by_cases h : '_' ∈ key.name.toList <;> simp [partner, Decimal.text, h, htoken, hdigits]

/-- The grammar of names. A name is read exactly if it spells a role and an index below `2 ^ 64`, and the key
has the name, the role and the index. Any other name is refused: for its token, if this is no role token, and
for its index otherwise. The usual name of a role and an index is read back, and so is the name of a partner,
which has the token with or without a `d`, the same index, and an underscore if and only if the name of the
key has one. -/
theorem ofName_grammar :
    (∀ name : String,
      (∀ key, ofName name = .ok key ↔
        ∃ role n, Spells name.toList role n ∧ n < 2 ^ 64 ∧ key = ⟨name, role, UInt64.ofNat n⟩) ∧
      ∃ token, (∀ other, Heads other name.toList ↔ other = token) ∧
        ∀ e, ofName name = .error e ↔
          (¬ ∃ role n, Spells name.toList role n ∧ n < 2 ^ 64) ∧
            ((∀ role, ¬ Token token role) ∧ e = .unknownRole name (String.ofList token) ∨
              (∃ role, Token token role) ∧ e = .malformedIndex name)) ∧
    (∀ role index, ofName (ofRole role index).name = .ok (ofRole role index)) ∧
    ∀ key : Key, ofName key.partner.name = .ok key.partner ∧
      (∃ token, Token token key.role ∧ Token (token ++ ['d']) key.partner.role ∨
        Token token key.partner.role ∧ Token (token ++ ['d']) key.role) ∧
      key.partner.index = key.index ∧
      ('_' ∈ key.partner.name.toList ↔ '_' ∈ key.name.toList) := by
  refine ⟨fun name => ⟨fun key => ofName_eq_ok_iff, ?_⟩, ofName_ofRole, fun key => ?_⟩
  · obtain ⟨token, hheads⟩ := exists_heads name.toList
    refine ⟨token, fun other => ?_, fun e => ofName_eq_error_iff hheads⟩
    constructor
    · exact fun h => h.unique hheads
    · rintro rfl
      exact hheads
  · exact ⟨ofName_partner key, token_partner key, rfl, underscore_mem_partner key⟩

/-- A sign and zeros in front of the largest word; the same sign without an underscore belongs to the token. -/
example : ofName "w_+0018446744073709551615" = .ok ⟨"w_+0018446744073709551615", .weight, 18446744073709551615⟩ ∧
    ofName "w_18446744073709551616" = .error (.malformedIndex "w_18446744073709551616") ∧
    ofName "w+3" = .error (.unknownRole "w+3" "w+") := by decide +kernel

end Key

end ParamExchange
