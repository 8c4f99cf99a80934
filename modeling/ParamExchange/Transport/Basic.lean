/-
Transports: what stands between a worker and the parameters. A transport pulls the value of a
parameter into a buffer, pushes a gradient and pulls the new value, and lets go of the servers.
Whatever it does, a buffer keeps its length.
-/
import ParamExchange.Store.Basic
import ParamExchange.Wire.Frame

namespace ParamExchange

/-! ## Errors -/

/-- Why a request failed. -/
inductive TransportError
  | link (e : Wire.LinkError)
  | store (e : StoreError)
  | noServers
  | gradientLength (key : String) (gradient buffer : Nat)
  | foreignKey (server : Nat) (got expected : String)
  | foreignLength (server : Nat) (key : String) (expected got : Nat)
  | rejected (server : Nat) (key detail : String)
  | unexpected (server : Nat) (got : Wire.Message)
  deriving DecidableEq

namespace TransportError

/-- The kind of a failed request. -/
def kind : TransportError → Kind
  | link e => e.kind
  | noServers => .notConnected
  | gradientLength _ _ _ => .invalidInput
  | store _ => .invalidData
  | foreignKey _ _ _ => .invalidData
  | foreignLength _ _ _ _ => .invalidData
  | rejected _ _ _ => .invalidData
  | unexpected _ _ => .invalidData

/-- The diagnostic of a failed request; there is none for a malformed control message. -/
def message? : TransportError → Option String
  | link e => e.message?
  | store e => some e.message
  | noServers => some "there are no parameter servers"
  | gradientLength key gradient buffer =>
    some s!"the gradient for {key} has {gradient} elements, the buffer {buffer}"
  | foreignKey server got expected =>
    some s!"server {server} replied for key {got}, expected {expected}"
  | foreignLength server key expected got =>
    some (s!"the length of the received params for {key} from server {server} is invalid, " ++
      s!"expected {expected}, got {got}")
  | rejected server key detail => some s!"server {server} rejected {key}: {detail}"
  | unexpected server got => some s!"expected params from server {server}, got: {got.text}"

/-- The diagnostic of the cause. -/
def source? : TransportError → Option String
  | store e => e.source?
  | _ => none

end TransportError

/-! ## Transports -/

/-- A transport over a state, for parameters made of `α`. -/
structure Transport (σ α : Type) where
  pull : Key → List α → σ → Filled TransportError α σ
  push : Key → List α → List α → σ → Filled TransportError α σ
  disconnect : σ → Except TransportError Unit × σ
  length_pull : ∀ key buffer s, (pull key buffer s).buffer.length = buffer.length
  length_push : ∀ key gradient buffer s, (push key gradient buffer s).buffer.length = buffer.length

namespace Transport

variable {σ α : Type}

/-- A request that fails before anything else happens. -/
def refuse (e : TransportError) (buffer : List α) (s : σ) : Filled TransportError α σ :=
  ⟨.error e, buffer, s⟩

/-- A transport whose calls are counted from zero, and whose calls of the given numbers fail
before they reach anything. -/
def interrupted (t : Transport σ α) (failures : List Nat) (e : TransportError) :
    Transport (Nat × σ) α where
  pull key buffer s :=
    if failures.contains s.1 then refuse e buffer (s.1 + 1, s.2)
    else
      let filled := t.pull key buffer s.2
      ⟨filled.result, filled.buffer, s.1 + 1, filled.state⟩
  push key gradient buffer s :=
    if failures.contains s.1 then refuse e buffer (s.1 + 1, s.2)
    else
      let filled := t.push key gradient buffer s.2
      ⟨filled.result, filled.buffer, s.1 + 1, filled.state⟩
  disconnect s :=
    if failures.contains s.1 then (.error e, s.1 + 1, s.2)
    else
      let (result, after) := t.disconnect s.2
      (result, s.1 + 1, after)
  length_pull key buffer s := by
    split
    · rfl
    · exact t.length_pull key buffer s.2
  length_push key gradient buffer s := by
    split
    · rfl
    · exact t.length_push key gradient buffer s.2

/-- The transport to a store at hand. -/
def ofStore [Scalar α] : Transport (Store α) α where
  pull key buffer store := (store.pull key.name buffer).mapError .store
  push key gradient buffer store := (store.push key.name gradient buffer).mapError .store
  disconnect store := (.ok (), store)
  length_pull key buffer store := store.length_pull key.name buffer
  length_push key gradient buffer store := store.length_push key.name gradient buffer

end Transport

end ParamExchange
