/-
Documents that are cut off. A written value that lacks its last octets is no malformed value: its
reader takes all that is there and misses the rest, be it inside of an escape, of a name or between
two members. Only a number may be cut off and still be one, and then what follows it is missed.
-/
import Mathlib.Tactic
import ParamExchange.Proofs.Json.Records

namespace ParamExchange.Json

open Text

/-! ## Fronts -/

/-- A front of a list that lacks something at its end. -/
def Cut {α : Type} (front whole : List α) : Prop := ∃ missing, missing ≠ [] ∧ whole = front ++ missing

section Cut

variable {α : Type} {front whole u v : List α} {a : α}

theorem Cut.cons (h : Cut front (a :: v)) : front = [] ∨ ∃ rest, front = a :: rest ∧ Cut rest v := by
  obtain ⟨missing, hm, hw⟩ := h
  cases front with
  | nil => exact .inl rfl
  | cons b rest =>
    obtain ⟨rfl, rfl⟩ := List.cons.inj hw
    exact .inr ⟨rest, rfl, missing, hm, rfl⟩

/-- The front ends inside of the first part, or holds it and ends inside of the second. -/
theorem Cut.append (h : Cut front (u ++ v)) : Cut front u ∨ ∃ rest, front = u ++ rest ∧ Cut rest v := by
  obtain ⟨missing, hm, hw⟩ := h
  obtain ⟨rest, rfl, hv⟩ | ⟨lost, rfl, hl⟩ := List.append_eq_append_iff.1 hw
  · exact .inr ⟨rest, rfl, missing, hm, hv⟩
  · cases lost with
    | nil => exact .inr ⟨[], by simp, missing, hm, by simpa using hl.symm⟩
    | cons b lost => exact .inl ⟨b :: lost, by simp, rfl⟩

theorem Cut.map {β : Type} {f : β → α} {whole : List β} (h : Cut front (whole.map f)) :
    ∃ rest, front = rest.map f ∧ Cut rest whole := by
  obtain ⟨missing, hm, hw⟩ := h
  obtain ⟨rest, lost, rfl, rfl, rfl⟩ := List.map_eq_append_iff.1 hw
  exact ⟨rest, rfl, lost, fun hl => hm (by rw [hl, List.map_nil]), rfl⟩

end Cut

/-! ## Readers at the end -/

/-- A reader takes all octets there are: it misses more of them, or it is done with the last one. -/
def Exhausts {α : Type} (r : Reader α) (s : List UInt8) : Prop :=
  r s = .error .truncated ∨ ∃ a, r s = .ok (a, [])

/-- A reader that goes on where none are left misses some. -/
theorem Exhausts.bind {α β : Type} {r : Reader α} {f : α → Reader β} {s : List UInt8}
    (h : Exhausts r s) (hf : ∀ a, f a [] = .error .truncated) : (r >>= f) s = .error .truncated := by
  obtain missed | ⟨a, done⟩ := h
  · exact bind_error missed
  · rw [bind_ok done, hf]

theorem Exhausts.map {α β : Type} {r : Reader α} {f : α → β} {s : List UInt8} (h : Exhausts r s) :
    Exhausts (do let a ← r; pure (f a)) s := by
  obtain missed | ⟨a, done⟩ := h
  · exact .inl (bind_error missed)
  · exact .inr ⟨f a, bind_ok done⟩

/-- Some written members lead from one draft to another: each is a field that is not set yet, its
value is read back, and is exhausted where it is cut off. -/
inductive Leads {δ : Type} (fields : List (Field δ)) : δ → List (String × List UInt8) → Prop
  | nil {d : δ} : Leads fields d []
  | cons {d d' : δ} {field : Field δ} {name : String} {value : List UInt8}
      {ms : List (String × List UInt8)} :
      fields.find? (fun f => f.name == name) = some field → field.isSet d = false →
      (∀ s, Delimits s → field.read d (value ++ s) = .ok (d', s)) →
      (∀ s, Cut s value → Exhausts (field.read d) s) →
      Leads fields d' ms → Leads fields d ((name, value) :: ms)

section Members

variable {δ : Type} {fields : List (Field δ)}

end Members

/-! ## Variants -/

end ParamExchange.Json

namespace ParamExchange.Wire.Control

open Json

/-! ## Identities and control messages -/

end ParamExchange.Wire.Control
