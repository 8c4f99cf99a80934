/-
Services: a server with its connections. A connection that fails ends, and the service has failed
from then on. The other connections go on until the service is settled, which ends them too.
-/
import ParamExchange.Server.Session

namespace ParamExchange

open Wire

/-- A connection: the octets that came and are no complete message yet, the octets that went and
were not read yet, its buffer, why nothing can be sent on it, and whether it is open. -/
structure Connection where
  inbox : List UInt8
  outbox : List UInt8
  scratch : List Single
  fault? : Option LinkError
  isOpen : Bool

/-- A new connection. -/
def Connection.fresh (fault? : Option LinkError) : Connection := ⟨[], [], [], fault?, true⟩

/-- The end of a connection; what it sent can still be read. -/
def Connection.close (c : Connection) : Connection := { c with isOpen := false }

/-- A service: its server, its connections, and the first failure of one of them. -/
structure Service where
  server : Server
  connections : List Connection
  failure : Option ServerError

/-- How a service stands: it failed, a connection is open, or every worker said goodbye. -/
inductive Outcome
  | failed (e : ServerError)
  | serving
  | finished

namespace Service

/-- The service of a server without connections. -/
def start (server : Server) : Service := ⟨server, [], none⟩

/-- How a service stands. -/
def outcome (service : Service) : Outcome :=
  match service.failure with
  | some e => .failed e
  | none => if service.connections.any (·.isOpen) then .serving else .finished

/-- Opens a connection. -/
def accept (service : Service) (fault? : Option LinkError) : Service :=
  { service with connections := service.connections ++ [Connection.fresh fault?] }

/-- Whether a connection is open. -/
def isOpen (service : Service) (i : Nat) : Bool := service.connections[i]?.any (·.isOpen)

/-- Hands octets to a connection, whose stream has ended if `ended`. If the connection fails, it ends
and the first failure of the service is kept. A connection that is not open takes nothing. -/
def feed (service : Service) (i : Nat) (octets : List UInt8) (ended : Bool) : Service :=
  match service.connections[i]? with
  | none => service
  | some c =>
    if c.isOpen then
      let (served, rest) := Session.serveStream c.fault? ended (c.inbox ++ octets)
        ⟨service.server, c.scratch⟩
      let after : Connection :=
        { c with
          inbox := rest
          outbox := c.outbox ++ served.replies.flatMap Message.frame
          scratch := served.session.scratch
          isOpen := served.standing = .open }
      { server := served.session.server
        connections := service.connections.set i after
        failure := service.failure <|> served.standing.failure? }
    else service

/-- Ends every connection if the service has failed. -/
def settle (service : Service) : Service :=
  if service.failure.isSome then
    { service with connections := service.connections.map Connection.close }
  else service

/-- The octets that a connection sent and that were not read yet. -/
def unread (service : Service) (i : Nat) : List UInt8 :=
  (service.connections[i]?.map (·.outbox)).getD []

/-- The same with other unread octets. -/
def setUnread (service : Service) (i : Nat) (octets : List UInt8) : Service :=
  match service.connections[i]? with
  | none => service
  | some c => { service with connections := service.connections.set i { c with outbox := octets } }

end Service

end ParamExchange
