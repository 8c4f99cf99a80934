/-
Requests to a store. What a request does to the store and whether it succeeds depends on the
length of the buffer only, and after a request that succeeded the buffer holds the value that the
store has under the name.
-/
import Mathlib.Tactic
import ParamExchange.Store.Basic

namespace ParamExchange

/-! ## Tables -/

namespace Table

variable {κ β : Type} [BEq κ] [LawfulBEq κ] [DecidableEq κ]

theorem get?_cons (key k : κ) (value : β) (rows : List (κ × β)) :
    get? key ((k, value) :: rows) = if key = k then some value else get? key rows := by
  unfold get?
  rw [List.lookup_cons]
  by_cases h : key = k
  · rw [if_pos h, beq_iff_eq.2 h]
  · rw [if_neg h, beq_eq_false_iff_ne.2 h]

/-- A table has what was put in it last, and under other keys what it had before. -/
theorem get?_put (key other : κ) (value : β) (rows : List (κ × β)) :
    get? other (put key value rows) = if other = key then some value else get? other rows := by
  induction rows with
  | nil => exact get?_cons other key value []
  | cons row rows ih =>
    obtain ⟨k, held⟩ := row
    by_cases hk : k = key
    · -- the row of the key is replaced
      subst hk
      have hput : put k value ((k, held) :: rows) = (k, value) :: rows := if_pos (beq_self_eq_true k)
      rw [hput, get?_cons, get?_cons]
      split <;> rfl
    · have hput : put key value ((k, held) :: rows) = (k, held) :: put key value rows :=
        if_neg (by simpa using hk)
      rw [hput, get?_cons, get?_cons, ih]
      by_cases ho : other = k
      · rw [if_pos ho, if_pos ho, if_neg (fun h => hk (ho.symm.trans h))]
      · rw [if_neg ho, if_neg ho]

end Table

variable {α : Type} [Scalar α]

/-! ## Entries -/

namespace Entry

omit [Scalar α] in
theorem result_read {entry : Entry α} {buffer other : List α} (h : buffer.length = other.length) :
    (entry.read buffer).result = (entry.read other).result := by
  unfold read
  rw [h]
  split <;> rfl

omit [Scalar α] in
theorem buffer_read {entry : Entry α} {buffer : List α} (h : (entry.read buffer).result = .ok ()) :
    (entry.read buffer).buffer = entry.values := by
  unfold read at h ⊢
  split at h
  · cases h
  · rfl

theorem pushed_congr (entry : Entry α) (gradient : List α) {buffer other : List α}
    (h : buffer.length = other.length) : entry.pushed gradient buffer = entry.pushed gradient other := by
  unfold pushed
  rw [h]

theorem write_ok {entry after : Entry α} {gradient buffer : List α}
    (h : entry.pushed gradient buffer = .ok after) :
    entry.write gradient buffer = ⟨.ok (), after.values, after⟩ := by
  unfold write; rw [h]

theorem write_error {entry : Entry α} {gradient buffer : List α} {e : StoreError}
    (h : entry.pushed gradient buffer = .error e) : entry.write gradient buffer = ⟨.error e, buffer, entry⟩ := by
  unfold write; rw [h]

end Entry

namespace Store

/-- The value that a store holds under a name. -/
def value? (store : Store α) (name : String) : Option (List α) := (store.get? name).map (·.values)

/-! ## Touching -/

omit [Scalar α] in
theorem get?_put (store : Store α) (name other : String) (entry : Entry α) :
    (store.put name entry).get? other = if other = name then some entry else store.get? other :=
  Table.get?_put name other entry store.entries

omit [Scalar α] in
theorem get?_put_self (store : Store α) (name : String) (entry : Entry α) :
    (store.put name entry).get? name = some entry := by
  rw [get?_put, if_pos rfl]

theorem touch_held {store : Store α} {name : String} {entry : Entry α} (h : store.get? name = some entry)
    (length : Nat) : store.touch name length = .ok (entry, store) := by
  unfold touch; rw [h]

theorem touch_new {store : Store α} {name : String} {key : Key} (h : store.get? name = none)
    (hk : Key.ofName name = .ok key) (length : Nat) :
    store.touch name length = .ok (store.fresh key length, store.put name (store.fresh key length)) := by
  unfold touch; rw [h, hk]

/-- A touch finds the entry of a name, makes one if the name parses, or refuses the name. -/
theorem touch_cases (store : Store α) (name : String) (length : Nat) :
    (∃ entry, store.get? name = some entry ∧ store.touch name length = .ok (entry, store)) ∨
    (∃ key, store.get? name = none ∧ Key.ofName name = .ok key ∧
      store.touch name length = .ok (store.fresh key length, store.put name (store.fresh key length))) ∨
    ∃ e, store.get? name = none ∧ Key.ofName name = .error e ∧ store.touch name length = .error (.key e) := by
  rcases hheld : store.get? name with _ | entry
  · rcases hkey : Key.ofName name with e | key
    · refine .inr (.inr ⟨e, rfl, rfl, ?_⟩)
      unfold touch
      rw [hheld, hkey]
    · exact .inr (.inl ⟨key, rfl, rfl, touch_new hheld hkey length⟩)
  · exact .inl ⟨entry, rfl, touch_held hheld length⟩

/-- A store that was touched has the entry that the request goes on with. -/
theorem get?_of_touch {store after : Store α} {name : String} {length : Nat} {entry : Entry α}
    (h : store.touch name length = .ok (entry, after)) : after.get? name = some entry := by
  rcases store.touch_cases name length with ⟨held, hheld, ht⟩ | ⟨key, -, -, ht⟩ | ⟨e, -, -, ht⟩ <;>
    rw [ht] at h <;> cases h
  · exact hheld
  · exact get?_put_self store name _

/-! ## Pulls -/

/-- What became of a touch decides a pull. -/
theorem pull_touched {store after : Store α} {name : String} {buffer : List α} {entry : Entry α}
    (h : store.touch name buffer.length = .ok (entry, after)) :
    store.pull name buffer = ⟨(entry.read buffer).result, (entry.read buffer).buffer, after⟩ := by
  unfold pull; rw [h]

theorem pull_untouched {store : Store α} {name : String} {buffer : List α} {e : StoreError}
    (h : store.touch name buffer.length = .error e) : store.pull name buffer = ⟨.error e, buffer, store⟩ := by
  unfold pull; rw [h]

/-- What a buffer holds does not decide whether a pull succeeds, nor what it does to the store. -/
theorem pull_congr (store : Store α) (name : String) {buffer other : List α}
    (h : buffer.length = other.length) :
    (store.pull name buffer).result = (store.pull name other).result ∧
      (store.pull name buffer).state = (store.pull name other).state := by
  rcases ht : store.touch name buffer.length with e | ⟨entry, after⟩
  · rw [pull_untouched ht, pull_untouched (h ▸ ht)]
    exact ⟨rfl, rfl⟩
  · rw [pull_touched ht, pull_touched (h ▸ ht)]
    exact ⟨Entry.result_read h, rfl⟩

/-- A pull that succeeded gives the value of the store. -/
theorem value?_pull {store : Store α} {name : String} {buffer : List α}
    (h : (store.pull name buffer).result = .ok ()) :
    (store.pull name buffer).state.value? name = some (store.pull name buffer).buffer := by
  rcases ht : store.touch name buffer.length with e | ⟨entry, after⟩
  · rw [pull_untouched ht] at h
    cases h
  · rw [pull_touched ht] at h ⊢
    show (after.get? name).map (·.values) = _
    rw [get?_of_touch ht, Entry.buffer_read h]
    rfl

/-! ## Pushes -/

theorem push_touched {store after : Store α} {name : String} {gradient buffer : List α} {entry : Entry α}
    (h : store.touch name gradient.length = .ok (entry, after)) :
    store.push name gradient buffer = ⟨(entry.write gradient buffer).result,
      (entry.write gradient buffer).buffer, after.put name (entry.write gradient buffer).state⟩ := by
  unfold push; rw [h]

theorem push_untouched {store : Store α} {name : String} {gradient buffer : List α} {e : StoreError}
    (h : store.touch name gradient.length = .error e) :
    store.push name gradient buffer = ⟨.error e, buffer, store⟩ := by
  unfold push; rw [h]

/-- What a buffer holds does not decide whether a push succeeds, nor what it does to the store. -/
theorem push_congr (store : Store α) (name : String) (gradient : List α) {buffer other : List α}
    (h : buffer.length = other.length) :
    (store.push name gradient buffer).result = (store.push name gradient other).result ∧
      (store.push name gradient buffer).state = (store.push name gradient other).state := by
  rcases ht : store.touch name gradient.length with e | ⟨entry, after⟩
  · rw [push_untouched ht, push_untouched ht]
    exact ⟨rfl, rfl⟩
  · rw [push_touched ht, push_touched ht]
    -- whether the entry takes the gradient depends on the length of the buffer only
    rcases hw : entry.pushed gradient buffer with e | next
    · rw [Entry.write_error hw, Entry.write_error ((Entry.pushed_congr entry gradient h).symm.trans hw)]
      exact ⟨rfl, rfl⟩
    · rw [Entry.write_ok hw, Entry.write_ok ((Entry.pushed_congr entry gradient h).symm.trans hw)]
      exact ⟨rfl, rfl⟩

/-- A push that succeeded gives the value that the store has after it. -/
theorem value?_push {store : Store α} {name : String} {gradient buffer : List α}
    (h : (store.push name gradient buffer).result = .ok ()) :
    (store.push name gradient buffer).state.value? name = some (store.push name gradient buffer).buffer := by
  rcases ht : store.touch name gradient.length with e | ⟨entry, after⟩
  · rw [push_untouched ht] at h
    cases h
  · rw [push_touched ht] at h ⊢
    rcases hw : entry.pushed gradient buffer with e | next
    · rw [Entry.write_error hw] at h
      cases h
    · rw [Entry.write_ok hw]
      show ((after.put name next).get? name).map (·.values) = _
      rw [get?_put_self]
      rfl

end Store

end ParamExchange
