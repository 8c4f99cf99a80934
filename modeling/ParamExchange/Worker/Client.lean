/-
The client of a worker: it exchanges tensors over a transport. What is sent are the elements in
row-major order, taken from the memory of a tensor where they lie in that order and copied
otherwise; what comes back is a tensor in row-major order.
-/
import ParamExchange.Tensor.Basic
import ParamExchange.Worker.Error

namespace ParamExchange

/-- A client: the state of its transport, and the numbers that were copied last. -/
structure Client (σ α : Type) where
  link : σ
  scratch : List α

/-- An exchange over a client. What happened before a failure stays. -/
abbrev Exchange (σ α β : Type) := ExceptT Stop (StateM (Client σ α)) β

namespace Client

variable {σ α : Type}

/-- The client of a transport in a state. -/
def ofLink (link : σ) : Client σ α := ⟨link, []⟩

/-- The tensor in a filled buffer, or the failure of the request. -/
def received (shape : List Nat) (filled : Filled TransportError α σ)
    (h : filled.buffer.length = Shape.size shape) : Except Stop (Tensor α) :=
  match filled.result with
  | .error e => .error (.error (.transport e))
  | .ok () => .ok (Tensor.ofList shape filled.buffer h)

variable [Scalar α]

/-- The value of a parameter. Nothing is asked for if there is no room for it. -/
def pull (t : Transport σ α) (key : Key) (shape : List Nat) : Exchange σ α (Tensor α) :=
  fun client =>
    if Shape.isAddressable shape then
      let filled := t.pull key (List.replicate (Shape.size shape) 0) client.link
      (received shape filled ((t.length_pull _ _ _).trans List.length_replicate),
        { client with link := filled.state })
    else (.error (.tooLarge shape), client)

/-- The elements of a tensor in row-major order: its memory, or a copy. -/
def staged (client : Client σ α) (delta : Tensor α) : List α × Client σ α :=
  match delta.slice? with
  | some xs => (xs, client)
  | none => (delta.elements, { client with scratch := delta.elements })

/-- Pushes a tensor, and gives the value of the parameter after it. -/
def pushAndPull (t : Transport σ α) (key : Key) (delta : Tensor α) : Exchange σ α (Tensor α) :=
  fun client =>
    let (gradient, client) := client.staged delta
    let filled := t.push key gradient (List.replicate (Shape.size delta.shape) 0) client.link
    (received delta.shape filled ((t.length_push _ _ _ _).trans List.length_replicate),
      { client with link := filled.state })

/-- Lets go of the servers. -/
def disconnect (t : Transport σ α) : Exchange σ α Unit :=
  fun client =>
    let (result, link) := t.disconnect client.link
    (result.mapError fun e => .error (.transport e), { client with link := link })

end Client

end ParamExchange
