/-
Clusters: the services of a run and the workers that have a connection to each of them. A message
is served as soon as it is sent, so its answers are there when the worker looks for them. Nobody
settles the services during the run, so a connection that fails leaves those of other workers open.
-/
import ParamExchange.Network.Transport
import ParamExchange.Server.Service

namespace ParamExchange

open Wire

/-- The services of a run, the server of rank `i` at the place `i`. -/
structure Cluster where
  services : List Service

namespace Cluster

/-- Some services of one configuration, each with its rank. -/
def ofConfig (config : ServerConfig) (count : Nat) : Except BuildError Cluster :=
  ((List.range count).mapM fun i => Server.ofConfig config (UInt64.ofNat i)).map fun servers =>
    ⟨servers.map Service.start⟩

/-- Changes a service. -/
def modify (c : Cluster) (i : Nat) (f : Service → Service) : Cluster := ⟨c.services.modify i f⟩

/-- The seat that the next worker takes: the number of its connection on every service. -/
def nextSeat (c : Cluster) : Nat := (c.services.map (·.connections.length)).foldl max 0

/-- Opens a connection to every service. -/
def join (c : Cluster) : Cluster := ⟨c.services.map (·.accept none)⟩

/-- Ends the streams of a worker. -/
def leave (c : Cluster) (seat : Nat) : Cluster := ⟨c.services.map fun s => s.feed seat [] true⟩

/-- The connections of a worker. -/
def links (seat : Nat) : Network.Links Cluster where
  send i m c :=
    if c.services[i]?.any (·.isOpen seat) then
      (.ok (), c.modify i fun s => s.feed seat m.frame false)
    else (.error (.broken "broken pipe"), c)
  unread i c := (c.services[i]?.map fun s => s.unread seat).getD []
  setUnread i octets c := c.modify i fun s => s.setUnread seat octets

end Cluster

end ParamExchange
