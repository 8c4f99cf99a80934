/-
Values without parts are read back from their written form: a string whatever its characters are,
as reading an escape undoes writing it octet by octet, and a word with all its digits. What stands
after the value stays in the document.
-/
import Mathlib.Tactic
import ParamExchange.Config.Reader
import ParamExchange.Json.Writer
import ParamExchange.Proofs.Text.Utf8

namespace ParamExchange.Json

open Text

/-! ## Steps of a reader -/

/-- A reader goes on where its first part stopped. -/
theorem bind_ok {α β : Type} {r : Reader α} {f : α → Reader β} {s t : List UInt8} {a : α}
    (h : r s = .ok (a, t)) : (r >>= f) s = f a t := by
  show Except.bind (r s) (fun p => f p.1 p.2) = f a t
  rw [h]; rfl

theorem bind_error {α β : Type} {r : Reader α} {f : α → Reader β} {s : List UInt8} {fault : Fault}
    (h : r s = .error fault) : (r >>= f) s = .error fault := by
  show Except.bind (r s) (fun p => f p.1 p.2) = .error fault
  rw [h]; rfl

theorem bind_eq_ok {α β : Type} {r : Reader α} {f : α → Reader β} {s : List UInt8} {p : β × List UInt8}
    (h : (r >>= f) s = .ok p) : ∃ a t, r s = .ok (a, t) ∧ f a t = .ok p := by
  rcases hr : r s with fault | ⟨a, t⟩
  · rw [bind_error hr] at h
    cases h
  · rw [bind_ok hr] at h
    exact ⟨a, t, rfl, h⟩

theorem next_cons (b : UInt8) (s : List UInt8) : next (b :: s) = .ok (b, s) := rfl

theorem expect_ascii (c : Char) (s : List UInt8) : expect c (ascii c :: s) = .ok ((), s) := by
  unfold expect
  rw [bind_ok (next_cons _ _)]
  simp only [beq_self_eq_true, if_true]
  rfl

theorem upcoming_cons {b : UInt8} (h : isSpace b = false) (s : List UInt8) :
    upcoming (b :: s) = .ok (b, b :: s) := by
  unfold upcoming
  simp [h]

theorem symbol_ascii {c : Char} (h : isSpace (ascii c) = false) (s : List UInt8) :
    symbol c (ascii c :: s) = .ok ((), s) := by
  unfold symbol
  rw [bind_ok (upcoming_cons h s)]
  exact expect_ascii c s

/-! ## Strings -/

theorem hexDigit?_hexOctet : ∀ k < 16, hexDigit? (hexOctet k) = some k := by decide

theorem utf8EncodeChar_of_lt : ∀ n < 32, String.utf8EncodeChar (Char.ofNat n) = [UInt8.ofNat n] := by
  decide

/-- The numeric escape of a control character. -/
theorem codePoint_hex {b : UInt8} (hb : b < 0x20) (s : List UInt8) :
    codePoint (0x30 :: 0x30 :: hexOctet (b.toNat / 16) :: hexOctet (b.toNat % 16) :: s) =
      .ok ([b], s) := by
  have hn : b.toNat < 32 := hb
  have hhi := hexDigit?_hexOctet (b.toNat / 16) (by omega)
  have hlo := hexDigit?_hexOctet (b.toNat % 16) (by omega)
  have hzero : hexDigit? 0x30 = some 0 := by decide
  have hfour : fourDigits (0x30 :: 0x30 :: hexOctet (b.toNat / 16) :: hexOctet (b.toNat % 16) :: s) =
      .ok (b.toNat, s) := by
    simp only [fourDigits, hzero, hhi, hlo]
    rw [show 0 * 4096 + 0 * 256 + b.toNat / 16 * 16 + b.toNat % 16 = b.toNat by omega]
  unfold codePoint
  rw [bind_ok hfour]
  have h1 : ¬ (0xDC00 ≤ b.toNat && b.toNat ≤ 0xDFFF) = true := by simp; omega
  have h2 : (b.toNat < 0xD800 || 0xDBFF < b.toNat) = true := by simp; omega
  simp only [if_neg h1, if_pos h2, utf8EncodeChar_of_lt _ hn, UInt8.ofNat_toNat]
  rfl

/-- The reader of a string takes an escape as the octet that it stands for. -/
theorem stringOctets_escape {b : UInt8} (front : List UInt8) {s : List UInt8} (fuel : Nat)
    (h : escape (front ++ s) = .ok ([b], s)) :
    stringOctets (fuel + 1) (0x5C :: (front ++ s)) =
      (do let back ← stringOctets fuel; pure (b :: back)) s := by
  rw [stringOctets, bind_ok (next_cons _ _)]
  have h1 : ((0x5C : UInt8) == ascii '"') = false := by decide
  have h2 : ((0x5C : UInt8) == ascii '\\') = true := by decide
  simp only [h1, h2, if_true, Bool.false_eq_true, if_false]
  rw [bind_ok h]
  rfl

/-- Reading one octet of a string undoes writing it. -/
theorem stringOctets_writeOctet (b : UInt8) (fuel : Nat) (s : List UInt8) :
    stringOctets (fuel + 1) (writeOctet b ++ s) =
      (do let back ← stringOctets fuel; pure (b :: back)) s := by
  unfold writeOctet
  split
  · rename_i h; subst h; exact stringOctets_escape [0x22] fuel rfl
  split
  · rename_i h; subst h; exact stringOctets_escape [0x5C] fuel rfl
  split
  · rename_i h; subst h; exact stringOctets_escape [0x62] fuel rfl
  split
  · rename_i h; subst h; exact stringOctets_escape [0x74] fuel rfl
  split
  · rename_i h; subst h; exact stringOctets_escape [0x6E] fuel rfl
  split
  · rename_i h; subst h; exact stringOctets_escape [0x66] fuel rfl
  split
  · rename_i h; subst h; exact stringOctets_escape [0x72] fuel rfl
  split
  · -- a control character without a letter of its own
    rename_i h
    have hu : octets "\\u00" = [0x5C, 0x75, 0x30, 0x30] := by decide
    rw [hu]
    refine stringOctets_escape
      [0x75, 0x30, 0x30, hexOctet (b.toNat / 16), hexOctet (b.toNat % 16)] fuel ?_
    unfold escape
    rw [List.cons_append, bind_ok (next_cons _ _)]
    exact codePoint_hex h s
  · -- any other octet stands for itself
    rename_i hq hs _ _ _ _ _ hc
    have h1 : (b == ascii '"') = false := beq_eq_false_iff_ne.2 hq
    have h2 : (b == ascii '\\') = false := beq_eq_false_iff_ne.2 hs
    rw [List.singleton_append, stringOctets, bind_ok (next_cons _ _)]
    simp only [h1, h2, if_neg hc, Bool.false_eq_true, if_false]

theorem stringOctets_write (bs : List UInt8) : ∀ (fuel : Nat) (s : List UInt8), bs.length < fuel →
    stringOctets fuel (bs.flatMap writeOctet ++ ascii '"' :: s) = .ok (bs, s) := by
  induction bs with
  | nil =>
    intro fuel s hf
    obtain ⟨fuel, rfl⟩ := Nat.exists_eq_add_of_lt hf
    rfl
  | cons b bs ih =>
    intro fuel s hf
    obtain ⟨fuel, rfl⟩ : ∃ k, fuel = k + 1 := ⟨fuel - 1, by omega⟩
    rw [List.flatMap_cons, List.append_assoc, stringOctets_writeOctet]
    rw [List.length_cons] at hf
    rw [bind_ok (ih fuel s (by omega))]
    rfl

theorem writeOctet_ne_nil (b : UInt8) : writeOctet b ≠ [] := by
  have h1 : octets "\\\"" ≠ [] := by decide
  have h2 : octets "\\\\" ≠ [] := by decide
  have h3 : octets "\\b" ≠ [] := by decide
  have h4 : octets "\\t" ≠ [] := by decide
  have h5 : octets "\\n" ≠ [] := by decide
  have h6 : octets "\\f" ≠ [] := by decide
  have h7 : octets "\\r" ≠ [] := by decide
  unfold writeOctet
  split_ifs <;> simp [*]

theorem length_le_flatMap_writeOctet (bs : List UInt8) :
    bs.length ≤ (bs.flatMap writeOctet).length := by
  induction bs with
  | nil => simp
  | cons b bs ih =>
    have hb := List.length_pos_of_ne_nil (writeOctet_ne_nil b)
    rw [List.flatMap_cons, List.length_append, List.length_cons]
    omega

/-- A string is read back after its opening quote. -/
theorem stringBody_write (text : String) (s : List UInt8) :
    stringBody ((Utf8.encode text).flatMap writeOctet ++ ascii '"' :: s) = .ok (text, s) := by
  have hl := length_le_flatMap_writeOctet (Utf8.encode text)
  unfold stringBody
  rw [bind_ok (show remaining _ = .ok (_, _) from rfl)]
  rw [bind_ok (stringOctets_write (Utf8.encode text) _ s (by rw [List.length_append]; omega))]
  rw [Utf8.decode_encode]
  rfl

theorem writeString_append (text : String) (s : List UInt8) :
    writeString text ++ s =
      ascii '"' :: ((Utf8.encode text).flatMap writeOctet ++ ascii '"' :: s) := by
  simp [writeString]

/-- A string is read back. -/
theorem string_write (text : String) (s : List UInt8) :
    string (writeString text ++ s) = .ok (text, s) := by
  have hs : isSpace (ascii '"') = false := by decide
  rw [writeString_append]
  unfold string
  rw [bind_ok (upcoming_cons hs _)]
  simp only [beq_self_eq_true, if_true]
  rw [bind_ok (next_cons _ _)]
  exact stringBody_write text s

/-! ## Words -/

theorem isDigit_ascii {c : Char} (h : c.isDigit = true) :
    isDigit (ascii c) = true ∧ (ascii c).toNat = c.toNat := by
  simp only [Char.isDigit, Bool.and_eq_true, decide_eq_true_eq, ge_iff_le, UInt32.le_iff_toNat_le] at h
  have hlo : 48 ≤ c.toNat := h.1
  have hhi : c.toNat ≤ 57 := h.2
  have hn : (ascii c).toNat = c.toNat := by
    show (UInt8.ofNat c.toNat).toNat = c.toNat
    rw [UInt8.toNat_ofNat', Nat.mod_eq_of_lt (by omega)]
  refine ⟨?_, hn⟩
  simp only [isDigit, Bool.and_eq_true, decide_eq_true_eq, UInt8.le_iff_toNat_le, hn]
  exact ⟨hlo, hhi⟩

/-- Digits are appended to a number up to the last one if the whole number is a word. -/
theorem absorb_ascii (cs : List Char) : ∀ n : Nat, (∀ c ∈ cs, c.isDigit = true) →
    Nat.ofDigitChars 10 cs n < UInt64.size →
    absorb n (cs.map ascii) = (Nat.ofDigitChars 10 cs n, cs.length) := by
  induction cs with
  | nil => intro n _ _; simp [absorb]
  | cons c cs ih =>
    intro n hd hw
    obtain ⟨-, hc⟩ := isDigit_ascii (hd c (List.mem_cons_self ..))
    rw [Nat.ofDigitChars_cons] at hw ⊢
    have hzero : ('0' : Char).toNat = 0x30 := rfl
    rw [hzero] at hw ⊢
    -- the number so far is a word, as appending the other digits does not make it smaller
    have hle : 10 * n + (c.toNat - 0x30) ≤ Nat.ofDigitChars 10 cs (10 * n + (c.toNat - 0x30)) := by
      rw [Nat.ofDigitChars_eq_ofDigitChars_zero]
      have hp : 0 < 10 ^ cs.length := Nat.pow_pos (by decide)
      have := Nat.le_mul_of_pos_left (10 * n + (c.toNat - 0x30)) hp
      omega
    have hlt : 10 * n + (c.toNat - 0x30) < UInt64.size := by omega
    have := ih _ (fun x hx => hd x (List.mem_cons_of_mem _ hx)) hw
    rw [List.map_cons, absorb, hc]
    simp only [hlt, if_true, this, List.length_cons]

/-- A numeral of more than one digit does not begin with zero. -/
theorem head?_digits {n : Nat} : 10 ≤ n → (Decimal.digits n).head? ≠ some '0' := by
  induction n using Nat.strong_induction_on with
  | _ n ih =>
    intro h
    have hs : Decimal.digits n = Decimal.digits (n / 10) ++ [(n % 10).digitChar] :=
      Nat.toDigits_of_base_le (by decide) h
    have hne : Decimal.digits (n / 10) ≠ [] := Nat.toDigits_ne_nil
    rw [hs, List.head?_append_of_ne_nil _ hne]
    by_cases h10 : 10 ≤ n / 10
    · exact ih (n / 10) (by omega) h10
    · have hd : Decimal.digits (n / 10) = [(n / 10).digitChar] := Nat.toDigits_of_lt_base (by omega)
      rw [hd]
      have hpos : 0 < n / 10 := by omega
      generalize n / 10 = k at h10 hpos
      interval_cases k <;> decide

/-- What may not come after a word, as it would belong to the number. -/
def continuesNumber (b : UInt8) : Bool :=
  isDigit b || b == ascii '.' || b == ascii 'e' || b == ascii 'E'

/-- What may stand after a word: nothing, or what does not continue a number. -/
def Delimits (s : List UInt8) : Prop := ∀ b ∈ s.head?, continuesNumber b = false

theorem head?_of_delimits {s : List UInt8} (hs : Delimits s) :
    (∀ b ∈ s.head?, isDigit b = false) ∧ (s.head? == some (ascii '.')) = false ∧
      (s.head? == some (ascii 'e') || s.head? == some (ascii 'E')) = false := by
  rcases hh : s.head? with _ | b
  · exact ⟨nofun, rfl, rfl⟩
  · have h := hs b hh
    simp only [continuesNumber, Bool.or_eq_false_iff] at h
    obtain ⟨⟨⟨hd, hp⟩, he⟩, hE⟩ := h
    refine ⟨fun c hc => by cases hc; exact hd, hp, ?_⟩
    show (b == ascii 'e' || b == ascii 'E') = false
    rw [he, hE]; rfl

theorem takeWhile_digits {ds s : List UInt8} (hd : ∀ b ∈ ds, isDigit b = true)
    (hs : ∀ b ∈ s.head?, isDigit b = false) : takeWhile isDigit (ds ++ s) = .ok (ds, s) := by
  have hstop : s.takeWhile isDigit = [] ∧ s.dropWhile isDigit = s := by
    cases s with
    | nil => exact ⟨rfl, rfl⟩
    | cons b s => simp [hs b rfl]
  unfold takeWhile
  rw [List.takeWhile_append_of_pos hd, List.dropWhile_append_of_pos hd, hstop.1, hstop.2, List.append_nil]

/-- A word is read back if nothing after it continues the number. -/
theorem unsignedNumber_write {n : Nat} (h : n < UInt64.size) {s : List UInt8} (hs : Delimits s) :
    unsignedNumber false (writeNat n ++ s) = .ok (.natural (UInt64.ofNat n), s) := by
  have hdig : ∀ c ∈ Decimal.digits n, c.isDigit = true :=
    fun c hc => Nat.isDigit_of_mem_toDigits (by decide) (by decide) hc
  have hval : Nat.ofDigitChars 10 (Decimal.digits n) 0 = n :=
    Nat.ofDigitChars_toDigits (by decide) (by decide)
  have habs := absorb_ascii (Decimal.digits n) 0 hdig (by rw [hval]; exact h)
  rw [hval] at habs
  obtain ⟨first, others, hfo⟩ := List.exists_cons_of_ne_nil (Nat.toDigits_ne_nil (n := n) (b := 10))
  have hfo' : Decimal.digits n = first :: others := hfo
  -- the first digit is a zero only if it is the only one
  have hzero : (ascii first == ascii '0' && !(others.map ascii).isEmpty) = false := by
    by_contra hz
    simp only [Bool.not_eq_false, Bool.and_eq_true, beq_iff_eq, Bool.not_eq_true', List.isEmpty_eq_false_iff,
      ne_eq, List.map_eq_nil_iff] at hz
    have hf : first = '0' := by
      have h1 := (isDigit_ascii (hdig first (by rw [hfo']; exact List.mem_cons_self ..))).2
      rw [hz.1] at h1
      exact Char.toNat_inj.1 h1.symm
    have h10 : 10 ≤ n := by
      by_contra hlt
      have h1 : Decimal.digits n = [n.digitChar] := Nat.toDigits_of_lt_base (by omega)
      rw [hfo'] at h1
      exact hz.2 (List.cons.inj h1).2
    exact head?_digits h10 (by rw [hfo', hf]; rfl)
  have hfirst : isDigit (ascii first) = true :=
    (isDigit_ascii (hdig first (by rw [hfo']; exact List.mem_cons_self ..))).1
  have hothers : ∀ b ∈ others.map ascii, isDigit b = true := by
    intro b hb
    obtain ⟨c, hc, rfl⟩ := List.mem_map.1 hb
    exact (isDigit_ascii (hdig c (by rw [hfo']; exact List.mem_cons_of_mem _ hc))).1
  obtain ⟨hstop, hpoint, hexp⟩ := head?_of_delimits hs
  rw [hfo'] at habs
  rw [List.map_cons] at habs
  unfold unsignedNumber writeNat
  rw [hfo', List.map_cons, List.cons_append, bind_ok (next_cons _ _)]
  simp only [hfirst, Bool.not_true, Bool.false_eq_true, if_false]
  rw [bind_ok (takeWhile_digits hothers hstop)]
  simp only [hzero, Bool.false_eq_true, if_false, habs]
  rw [bind_ok (show remaining s = .ok (s, s) from rfl)]
  simp only [hpoint, hexp, Bool.false_eq_true, if_false, List.length_map, List.length_cons, Nat.sub_self,
    if_true]
  rfl

theorem writeNat_cons (n : Nat) : ∃ b bs, writeNat n = b :: bs ∧ isDigit b = true := by
  obtain ⟨c, cs, hc⟩ := List.exists_cons_of_ne_nil (Nat.toDigits_ne_nil (n := n) (b := 10))
  have hd : c.isDigit = true :=
    Nat.isDigit_of_mem_toDigits (b := 10) (n := n) (by decide) (by decide)
      (by rw [hc]; exact List.mem_cons_self ..)
  refine ⟨ascii c, cs.map ascii, ?_, (isDigit_ascii hd).1⟩
  unfold writeNat Decimal.digits
  rw [hc, List.map_cons]

/-- A word is read back. -/
theorem word_write {n : Nat} (h : n < UInt64.size) {s : List UInt8} (hs : Delimits s) :
    Config.word (writeNat n ++ s) = .ok (UInt64.ofNat n, s) := by
  obtain ⟨b, bs, hb, hd⟩ := writeNat_cons n
  have hspace : isSpace b = false := by
    simp only [isDigit, Bool.and_eq_true, decide_eq_true_eq, UInt8.le_iff_toNat_le] at hd
    simp only [isSpace, Bool.or_eq_false_iff, beq_eq_false_iff_ne, ne_eq, ← UInt8.toNat_inj]
    have hlo : 48 ≤ b.toNat := hd.1
    refine ⟨⟨⟨?_, ?_⟩, ?_⟩, ?_⟩ <;> simp <;> omega
  have hminus : (b == ascii '-') = false := by
    rw [beq_eq_false_iff_ne]; rintro rfl; exact absurd hd (by decide)
  have hnum : number (writeNat n ++ s) = .ok (.natural (UInt64.ofNat n), s) := by
    have hu := unsignedNumber_write h hs
    rw [hb, List.cons_append] at hu ⊢
    unfold number
    rw [bind_ok (upcoming_cons hspace _)]
    simp only [hminus, hd, Bool.false_eq_true, if_false, if_true]
    exact hu
  unfold Config.word
  rw [bind_ok hnum]
  rfl

end ParamExchange.Json
