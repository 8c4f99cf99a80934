/-
Why the work of a worker stops: an error that is reported, or a step that has no result at all.
-/
import ParamExchange.Transport.Basic

namespace ParamExchange

open Text

/-- What a worker reports. -/
inductive WorkerError
  | transport (e : TransportError)
  | key (e : KeyError)
  | identity (e : IdentityError)
  | shapeMismatch (name : String) (expected got : List Nat)
  | incompatibleShapes (expected got : List Nat)
  | invalidLayer (name : String)
  | missingGradients (shard expected got : Nat)
  | emptyReduction
  | backendUnavailable
  deriving DecidableEq

namespace WorkerError

/-- A shape in a diagnostic. -/
def shapeText (shape : List Nat) : String := Quoted.list (shape.map Decimal.text)

/-- The diagnostic of a worker error; there is none for a malformed control message. -/
def message? : WorkerError → Option String
  | transport e => e.message?.map ("io error: " ++ ·)
  | key e => some ("configuration error: " ++ e.message)
  | identity e => some ("invalid identity: " ++ e.message)
  | shapeMismatch name expected got =>
    some (s!"shape mismatch for `{name}`: expected " ++ shapeText expected ++ ", got " ++ shapeText got)
  | incompatibleShapes expected got =>
    some ("can't combine tensors of shapes " ++ shapeText expected ++ " and " ++ shapeText got)
  | invalidLayer name =>
    some (s!"layer `{name}` is a momentum accumulator, only weights and biases can be trained")
  | missingGradients shard expected got =>
    some s!"the trainer returned {got} gradients for shard {shard}, expected {expected}"
  | emptyReduction => some "there are no gradients to reduce"
  | backendUnavailable => some "the tensor backend is unavailable"

/-- The diagnostic of the cause. -/
def source? : WorkerError → Option String
  | transport e => e.message?
  | key e => some e.message
  | identity e => some e.message
  | _ => none

end WorkerError

/-- Why work stops: an error that is reported, a layer without a local copy, a tensor that can not
be repeated to a shape, an element outside of what is reduced, or no room for a tensor or for the
gradients of all devices. -/
inductive Stop
  | error (e : WorkerError)
  | noCopy (layer : Nat)
  | cannotBroadcast (shape target : List Nat)
  | outsideReduction
  | tooLarge (shape : List Nat)
  | tooManyDevices (count : Nat)
  deriving DecidableEq

end ParamExchange
