/-
The transport over a network. A request is cut into the spans of its route: a message goes to each
server before the first answer is read, and then the answers are put into the buffer in order. An
answer is accepted if it is for the same parameter and has the length of its span.
-/
import ParamExchange.Network.Links
import ParamExchange.Network.Route
import ParamExchange.Transport.Basic

namespace ParamExchange.Network

open Wire

variable {σ : Type}

/-! ## Requests -/

/-- The values in the answer of a server, if it is the one that its span calls for. -/
def accepted (key : Key) (span : Span) (answer : Message) :
    Except TransportError (List Single) :=
  match answer with
  | .params got values =>
    if got ≠ key.name then .error (.foreignKey span.server got key.name)
    else if values.length ≠ span.length then
      .error (.foreignLength span.server key.name span.length values.length)
    else .ok values
  | .error detail => .error (.rejected span.server key.name detail)
  | .control _ => .error (.unexpected span.server answer)
  | .pull _ _ => .error (.unexpected span.server answer)
  | .push _ _ => .error (.unexpected span.server answer)

/-- Reads the answers of some spans into a buffer, up to the first failure. -/
def gather (links : Links σ) (key : Key) :
    List Span → List Single → σ → Filled TransportError Single σ
  | [], buffer, s => ⟨.ok (), buffer, s⟩
  | span :: rest, buffer, s =>
    match links.receive span.server s with
    | (.error e, s) => ⟨.error (.link e), buffer, s⟩
    | (.ok answer, s) =>
      match accepted key span answer with
      | .error e => ⟨.error e, buffer, s⟩
      | .ok values => gather links key rest (overwrite span.start values buffer) s

/-- Sends the message of each span of a route, and reads the answers into a buffer. -/
def request (links : Links σ) (key : Key) (route : List Span) (message : Span → Message)
    (buffer : List Single) (s : σ) : Filled TransportError Single σ :=
  if route.isEmpty then Transport.refuse .noServers buffer s
  else
    match links.sendAll (route.map fun span => (span.server, message span)) s with
    | (.error e, s) => ⟨.error (.link e), buffer, s⟩
    | (.ok (), s) => gather links key route buffer s

/-- The request for the elements of a span. -/
def pullMessage (key : Key) (span : Span) : Message := .pull key.name (UInt64.ofNat span.length)

/-- The request that submits the elements of a span. -/
def pushMessage (key : Key) (gradient : List Single) (span : Span) : Message :=
  .push key.name (span.slice gradient)

/-! ## Connecting -/

/-- Says hello to every server. -/
def connect (links : Links σ) (spread : Spread) (identity : Identity) (s : σ) :
    Except TransportError Unit × σ :=
  if spread.servers = 0 then (.error .noServers, s)
  else
    let hello := Message.control (.hello identity)
    let (result, s) := links.sendAll ((List.range spread.servers).map fun i => (i, hello)) s
    (result.mapError .link, s)

/-! ## The transport -/

theorem length_gather (links : Links σ) (key : Key) (route : List Span) (buffer : List Single)
    (s : σ) : (gather links key route buffer s).buffer.length = buffer.length := by
  fun_induction gather links key route buffer s with
  | case4 _ _ _ _ _ _ _ _ _ ih => rw [ih, length_overwrite]
  | _ => rfl

theorem length_request (links : Links σ) (key : Key) (route : List Span)
    (message : Span → Message) (buffer : List Single) (s : σ) :
    (request links key route message buffer s).buffer.length = buffer.length := by
  unfold request
  split
  · rfl
  · split
    · rfl
    · exact length_gather _ _ _ _ _

/-- The transport to the servers of some links. -/
def transport (links : Links σ) (spread : Spread) : Transport σ Single where
  pull key buffer s :=
    request links key (spread.route key buffer.length) (pullMessage key) buffer s
  push key gradient buffer s :=
    if gradient.length ≠ buffer.length then
      Transport.refuse (.gradientLength key.name gradient.length buffer.length) buffer s
    else request links key (spread.route key buffer.length) (pushMessage key gradient) buffer s
  disconnect s :=
    let (result, s) := links.leaveAll (List.range spread.servers) s
    (result.mapError .link, s)
  length_pull _ _ _ := length_request _ _ _ _ _ _
  length_push _ _ _ _ := by
    split
    · rfl
    · exact length_request _ _ _ _ _ _

end ParamExchange.Network
