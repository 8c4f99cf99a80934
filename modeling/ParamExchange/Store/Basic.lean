/-
The parameter store: a table of entries by name. An entry is made when its name is first asked
for, with the length of that request, and from then on every request must have that length.
-/
import ParamExchange.Store.Rule
import ParamExchange.Store.Table

namespace ParamExchange

/-! ## Errors -/

/-- Why a request to the store failed. -/
inductive StoreError
  | key (e : KeyError)
  | sizeMismatch (name : String) (expected got : Nat)
  deriving DecidableEq, Repr

namespace StoreError

/-- The diagnostic of the cause. -/
def source? : StoreError → Option String
  | key e => some e.message
  | sizeMismatch _ _ _ => none

/-- The diagnostic of a store error. -/
def message : StoreError → String
  | key e => e.message
  | sizeMismatch name expected got =>
    s!"size mismatch for parameter `{name}`: expected {expected} elements, got {got}"

end StoreError

/-- What an operation that fills a caller's buffer leaves behind: its result, the buffer, and the
state after it. -/
structure Filled (ε α σ : Type) where
  result : Except ε Unit
  buffer : List α
  state : σ

/-- The same with another error. -/
def Filled.mapError {ε δ α σ : Type} (f : ε → δ) (filled : Filled ε α σ) : Filled δ α σ :=
  ⟨filled.result.mapError f, filled.buffer, filled.state⟩

/-! ## Entries -/

/-- A parameter: its key, its values and its rule. -/
structure Entry (α : Type) where
  key : Key
  values : List α
  rule : Rule α
  deriving DecidableEq, Repr

namespace Entry

variable {α : Type} [Scalar α]

/-- The error of a length. -/
def mismatch (entry : Entry α) (e : SizeMismatch) : StoreError :=
  .sizeMismatch entry.key.name e.expected e.got

/-- Refuses a length other than that of the values. -/
def check (entry : Entry α) (length : Nat) : Except StoreError Unit :=
  (SizeMismatch.check entry.values.length length).mapError entry.mismatch

/-- Copies the values to a buffer. -/
def read (entry : Entry α) (buffer : List α) : Filled StoreError α (Entry α) :=
  match entry.check buffer.length with
  | .error e => ⟨.error e, buffer, entry⟩
  | .ok () => ⟨.ok (), entry.values, entry⟩

/-- The entry after a push, if the gradient and the buffer have its length. -/
def pushed (entry : Entry α) (gradient buffer : List α) : Except StoreError (Entry α) := do
  entry.check gradient.length
  entry.check buffer.length
  match entry.rule.push gradient entry.values with
  | .error e => .error (entry.mismatch e)
  | .ok (values, rule) => .ok { entry with values := values, rule := rule }

/-- Applies a gradient and copies the new values to a buffer. -/
def write (entry : Entry α) (gradient buffer : List α) : Filled StoreError α (Entry α) :=
  match entry.pushed gradient buffer with
  | .error e => ⟨.error e, buffer, entry⟩
  | .ok entry => ⟨.ok (), entry.values, entry⟩

omit [Scalar α] in
theorem length_of_check {entry : Entry α} {n : Nat} (h : entry.check n = .ok ()) :
    entry.values.length = n := by
  unfold check SizeMismatch.check at h
  split at h
  · assumption
  · cases h

omit [Scalar α] in
theorem length_read (entry : Entry α) (buffer : List α) :
    (entry.read buffer).buffer.length = buffer.length := by
  unfold read
  split
  · rfl
  · next h => exact length_of_check h

theorem length_of_pushed {entry after : Entry α} {gradient buffer : List α}
    (h : entry.pushed gradient buffer = .ok after) : after.values.length = buffer.length := by
  unfold pushed at h
  rcases h1 : entry.check gradient.length with e | ⟨⟩
  · simp [h1, bind, Except.bind] at h
  rcases h2 : entry.check buffer.length with e | ⟨⟩
  · simp [h1, h2, bind, Except.bind] at h
  rcases h3 : entry.rule.push gradient entry.values with e | ⟨values, rule⟩
  · simp [h1, h2, h3, bind, Except.bind] at h
  · simp [h1, h2, h3, bind, Except.bind] at h
    rw [← h]
    exact (Rule.length_push h3).trans (length_of_check h2)

theorem length_write (entry : Entry α) (gradient buffer : List α) :
    (entry.write gradient buffer).buffer.length = buffer.length := by
  unfold write
  split
  · rfl
  · next h => exact length_of_pushed h

end Entry

/-! ## The store -/

/-- What new entries are made of: their values, the update of weights and biases, and the
momentum of accumulators. -/
structure Plan (α : Type) where
  initial : Key → Nat → List α
  update : Update α
  momentum : α

/-- A store: the plan of its entries, and those that were made, each under its name. -/
structure Store (α : Type) where
  plan : Plan α
  entries : List (String × Entry α)

namespace Store

variable {α : Type} [Scalar α]

/-- The store without entries. -/
def empty (plan : Plan α) : Store α := ⟨plan, []⟩

/-- The number of entries. -/
def size (store : Store α) : Nat := store.entries.length

/-- The entry of a name. -/
def get? (store : Store α) (name : String) : Option (Entry α) := Table.get? name store.entries

/-- Puts an entry under a name, in the place of the one that is there. -/
def put (store : Store α) (name : String) (entry : Entry α) : Store α :=
  { store with entries := Table.put name entry store.entries }

/-- A new entry of a key. -/
def fresh (store : Store α) (key : Key) (length : Nat) : Entry α where
  key := key
  values := store.plan.initial key length
  rule := Rule.ofRole key.role store.plan.update store.plan.momentum length

/-- The entry of a name, which is made if there is none. -/
def touch (store : Store α) (name : String) (length : Nat) :
    Except StoreError (Entry α × Store α) :=
  match store.get? name with
  | some entry => .ok (entry, store)
  | none =>
    match Key.ofName name with
    | .error e => .error (.key e)
    | .ok key =>
      let entry := store.fresh key length
      .ok (entry, store.put name entry)

/-- Copies the values of a parameter to a buffer. -/
def pull (store : Store α) (name : String) (buffer : List α) :
    Filled StoreError α (Store α) :=
  match store.touch name buffer.length with
  | .error e => ⟨.error e, buffer, store⟩
  | .ok (entry, store) =>
    let filled := entry.read buffer
    ⟨filled.result, filled.buffer, store⟩

/-- Applies a gradient to a parameter and copies its new values to a buffer. -/
def push (store : Store α) (name : String) (gradient buffer : List α) :
    Filled StoreError α (Store α) :=
  match store.touch name gradient.length with
  | .error e => ⟨.error e, buffer, store⟩
  | .ok (entry, store) =>
    let filled := entry.write gradient buffer
    ⟨filled.result, filled.buffer, store.put name filled.state⟩

/-! ## Lengths of buffers -/

theorem length_pull (store : Store α) (name : String) (buffer : List α) :
    (store.pull name buffer).buffer.length = buffer.length := by
  unfold pull
  split
  · rfl
  · exact Entry.length_read _ _

theorem length_push (store : Store α) (name : String) (gradient buffer : List α) :
    (store.push name gradient buffer).buffer.length = buffer.length := by
  unfold push
  split
  · rfl
  · exact Entry.length_write _ _ _

end Store

end ParamExchange
