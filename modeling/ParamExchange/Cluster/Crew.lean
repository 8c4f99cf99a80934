/-
Crews: the workers of a run over what they share, be it one store or a cluster. A worker takes a
seat when it enters, works on its own, and leaves when it is done or when its work stops without a
result.
-/
import ParamExchange.Cluster.Basic
import ParamExchange.Worker.Epoch

namespace ParamExchange

/-! ## What is shared -/

/-- What workers share: the seat of the next worker, how a worker enters, what it reaches from its
seat, and how it leaves. The length from which on tensors are cut is the worker's own. -/
structure Host (σ : Type) where
  seat : σ → Nat
  enter : Nat → Nat → Identity → σ → Except TransportError Unit × σ
  transport : Nat → Nat → Transport σ Single
  leave : Nat → σ → σ

namespace Host

/-- One store at hand. -/
def store : Host (Store Single) where
  seat _ := 0
  enter _ _ _ s := (.ok (), s)
  transport _ _ := Transport.ofStore
  leave _ s := s

/-- A cluster of so many services. A worker that enters says hello to each. -/
def cluster (services : Nat) : Host Cluster where
  seat := Cluster.nextSeat
  enter seat minSlice identity c :=
    Network.connect (Cluster.links seat) (Network.Spread.ofMinSlice services minSlice) identity c.join
  transport seat minSlice :=
    Network.transport (Cluster.links seat) (Network.Spread.ofMinSlice services minSlice)
  leave seat c := c.leave seat

end Host

/-! ## Crews -/

/-- A worker at its seat. The calls of its transport are counted. -/
structure Member (σ τ : Type) where
  seat : Nat
  transport : Transport (Nat × σ) Single
  worker : Worker (Nat × σ) τ Single

/-- The workers of a run, with what they share; no worker stands where one left. -/
structure Crew (σ τ : Type) where
  shared : σ
  members : List (Option (Member σ τ))

/-- Why a worker can not enter: its servers can not be reached, or it can not be made. -/
inductive EntryError
  | connecting (e : TransportError)
  | worker (e : WorkerError)
  deriving DecidableEq

namespace Crew

variable {σ τ : Type}

/-- A worker enters. The calls of its transport with the numbers in `failures` fail. -/
def enter (crew : Crew σ τ) (host : Host σ) (identity : Identity) (config : WorkerConfig)
    (failures : List Nat) (e : TransportError) (trainer : τ) : Except EntryError Unit × Crew σ τ :=
  let seat := host.seat crew.shared
  match host.enter seat config.minSlice identity crew.shared with
  | (.error e, shared) => (.error (.connecting e), ⟨shared, crew.members ++ [none]⟩)
  | (.ok (), shared) =>
    match Worker.ofConfig identity config (0, shared) trainer with
    | .error e => (.error (.worker e), ⟨host.leave seat shared, crew.members ++ [none]⟩)
    | .ok worker =>
      let t := (host.transport seat config.minSlice).interrupted failures e
      (.ok (), ⟨shared, crew.members ++ [some ⟨seat, t, worker⟩]⟩)

/-- A place at which no worker stands, as none could be made for it. -/
def vacant (crew : Crew σ τ) : Crew σ τ := { crew with members := crew.members ++ [none] }

/-- The worker at a place. -/
def member? (crew : Crew σ τ) (i : Nat) : Option (Member σ τ) := (crew.members[i]?).join

/-- Whether work that stopped so can be gone on with. -/
def recovers {β : Type} : Except Stop β → Bool
  | .ok _ => true
  | .error (.error _) => true
  | .error (.noCopy _) => false
  | .error (.cannotBroadcast _ _) => false
  | .error .outsideReduction => false
  | .error (.tooLarge _) => false
  | .error (.tooManyDevices _) => false

/-- Some work of the worker at a place, on what is shared now. The worker leaves if it was its
last one, or if it can not go on. -/
def work {β : Type} (crew : Crew σ τ) (host : Host σ) (i : Nat) (member : Member σ τ) (last : Bool)
    (job : Transport (Nat × σ) Single → Work (Nat × σ) τ Single β) :
    Except Stop β × Worker (Nat × σ) τ Single × Crew σ τ :=
  let client := member.worker.client
  let current := { member.worker with
    client := { client with link := (client.link.1, crew.shared) } }
  let (result, after) := (job member.transport).run.run current
  let shared := after.client.link.2
  let next : Crew σ τ :=
    if last || !recovers result then ⟨host.leave member.seat shared, crew.members.set i none⟩
    else ⟨shared, crew.members.set i (some { member with worker := after })⟩
  (result, after, next)

/-- Every worker leaves. -/
def disband (crew : Crew σ τ) (host : Host σ) : Crew σ τ :=
  let leave (s : σ) (m : Option (Member σ τ)) := match m with
    | some m => host.leave m.seat s
    | none => s
  ⟨crew.members.foldl leave crew.shared, crew.members.map fun _ => none⟩

end Crew

end ParamExchange
