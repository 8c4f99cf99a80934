/-
Calls: what a worker asks of a transport, one request after another. Over a network a call is one
message to each server on the route of its parameter.
-/
import ParamExchange.Network.Transport

namespace ParamExchange

open Wire Network

/-! ## Calls -/

/-- A call of a worker: a pull into the buffer, or a push if there is a gradient. -/
structure Call where
  key : Key
  gradient? : Option (List Single)
  buffer : List Single

/-- What is sent for a span of the call. -/
def Call.message (call : Call) (span : Span) : Message :=
  match call.gradient? with
  | none => pullMessage call.key span
  | some gradient => pushMessage call.key gradient span

namespace Transport

variable {σ : Type}

/-- Makes a call. -/
def call (t : Transport σ Single) (call : Call) (s : σ) : Filled TransportError Single σ :=
  match call.gradient? with
  | none => t.pull call.key call.buffer s
  | some gradient => t.push call.key gradient call.buffer s

/-- Makes calls one after another: the result and the buffer of each, and the state after them. -/
def callAll (t : Transport σ Single) : List Call → σ → List (Except TransportError Unit × List Single) × σ
  | [], s => ([], s)
  | call :: rest, s =>
    let filled := t.call call s
    let (outcomes, after) := t.callAll rest filled.state
    ((filled.result, filled.buffer) :: outcomes, after)

end Transport

theorem call_transport {σ : Type} (links : Links σ) (spread : Spread) {call : Call}
    (hgradient : ∀ gradient ∈ call.gradient?, gradient.length = call.buffer.length) (s : σ) :
    (Network.transport links spread).call call s =
      Network.request links call.key (spread.route call.key call.buffer.length) call.message call.buffer s := by
  obtain ⟨key, gradient?, buffer⟩ := call
  cases gradient? with
  | none => rfl
  | some gradient => exact if_neg (not_not_intro (hgradient gradient rfl))

/-- A push whose gradient has not the length of the buffer reaches no server. -/
theorem call_transport_mismatch {σ : Type} (links : Links σ) (spread : Spread) {call : Call}
    {gradient : List Single} (hcall : call.gradient? = some gradient)
    (hgradient : gradient.length ≠ call.buffer.length) (s : σ) :
    (Network.transport links spread).call call s =
      ⟨.error (.gradientLength call.key.name gradient.length call.buffer.length), call.buffer, s⟩ := by
  obtain ⟨key, gradient?, buffer⟩ := call
  obtain rfl : gradient? = some gradient := hcall
  exact if_pos hgradient

/-- The gradient of a call that succeeds has the length of the buffer. -/
theorem length_gradient_of_call_ok {σ : Type} {links : Links σ} {spread : Spread} {call : Call} {s : σ}
    (hok : ((Network.transport links spread).call call s).result = .ok ()) :
    ∀ gradient ∈ call.gradient?, gradient.length = call.buffer.length := by
  refine fun gradient hgradient => Decidable.of_not_not fun hne => ?_
  rw [call_transport_mismatch links spread hgradient hne] at hok
  cases hok

/-! ## Accepted answers -/

theorem Network.accepted_ok {key : Key} {span : Span} {answer : Message} {values : List Single}
    (h : accepted key span answer = .ok values) :
    answer = .params key.name values ∧ values.length = span.length := by
  cases answer with
  | params got sent =>
    simp only [accepted] at h
    split at h
    · cases h
    · rename_i hkey
      split at h
      · cases h
      · rename_i hlen
        cases h
        exact ⟨by rw [Decidable.of_not_not hkey], Decidable.of_not_not hlen⟩
  | _ => cases h

end ParamExchange
