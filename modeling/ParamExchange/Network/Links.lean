/-
Links: the connections of a worker to its servers, each under the number of its server. A link
takes messages, and has octets that came from the server and were not read yet.
-/
import ParamExchange.Wire.Frame

namespace ParamExchange.Network

open Wire

/-- Connections over a state. -/
structure Links (σ : Type) where
  send : Nat → Message → σ → Except LinkError Unit × σ
  unread : Nat → σ → List UInt8
  setUnread : Nat → List UInt8 → σ → σ

namespace Links

variable {σ : Type}

/-- Takes the next message of a server. -/
def receive (links : Links σ) (i : Nat) (s : σ) : Except LinkError Message × σ :=
  let (result, rest) := Wire.receive (links.unread i s)
  (result, links.setUnread i rest s)

/-- Takes the messages of a server until it says goodbye. -/
def drain (links : Links σ) (i : Nat) (s : σ) : Except LinkError Unit × σ :=
  let (result, rest) := Wire.drain (links.unread i s)
  (result, links.setUnread i rest s)

/-- Sends messages, each to its server, up to the first failure. -/
def sendAll (links : Links σ) : List (Nat × Message) → σ → Except LinkError Unit × σ
  | [], s => (.ok (), s)
  | (i, m) :: rest, s =>
    match links.send i m s with
    | (.error e, s) => (.error e, s)
    | (.ok (), s) => links.sendAll rest s

/-- Says goodbye to some servers and waits for each to answer, up to the first failure. -/
def leaveAll (links : Links σ) : List Nat → σ → Except LinkError Unit × σ
  | [], s => (.ok (), s)
  | i :: rest, s =>
    match links.send i (.control .disconnect) s with
    | (.error e, s) => (.error e, s)
    | (.ok (), s) =>
      match links.drain i s with
      | (.error e, s) => (.error e, s)
      | (.ok (), s) => links.leaveAll rest s

end Links

/-! ## Recorded links -/

/-- A server whose answers are there from the start: the octets that were not read yet, what was
sent to it, and why nothing can be sent. -/
structure Peer where
  unread : List UInt8
  sent : List Message
  fault? : Option LinkError

/-- Connections to such servers. What is sent is only recorded. -/
def recorded : Links (List Peer) where
  send i m peers :=
    match peers[i]? with
    | none => (.error .endOfStream, peers)
    | some peer =>
      match peer.fault? with
      | some e => (.error e, peers)
      | none => (.ok (), peers.set i { peer with sent := peer.sent ++ [m] })
  unread i peers := (peers[i]?.map (·.unread)).getD []
  setUnread i octets peers := peers.modify i fun peer => { peer with unread := octets }

end ParamExchange.Network
