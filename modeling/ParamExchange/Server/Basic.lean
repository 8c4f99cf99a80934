/-
Parameter servers: a store, and the number of ranks of the run, which the first worker that says
hello fixes. Each message of a worker has a verdict.
-/
import ParamExchange.Store.Build
import ParamExchange.Wire.Frame

namespace ParamExchange

open Wire

/-! ## Errors -/

/-- Why a server refuses a message. -/
inductive Refusal
  | store (e : StoreError)
  | rankSizeChanged (expected got : UInt64)
  | unexpectedMessage (kind : String)
  | pullTooLarge (key : String) (length : UInt64)
  deriving DecidableEq, Repr

namespace Refusal

/-- The diagnostic of a refusal, which is also what the worker is told. -/
def message : Refusal → String
  | store e => "configuration error: " ++ e.message
  | rankSizeChanged expected got =>
    "configuration error: rank size changed mid run, " ++
      s!"expected {expected.toNat}, got {got.toNat}"
  | unexpectedMessage kind => s!"received an unexpected message kind: {kind}"
  | pullTooLarge key length =>
    s!"configuration error: pull of {length.toNat} elements for `{key}` exceeds the frame limit"

/-- The diagnostic of the cause. -/
def source? : Refusal → Option String
  | store e => some e.message
  | _ => none

end Refusal

/-- Why a server stops: a connection failed, or a message was refused. -/
inductive ServerError
  | link (e : LinkError)
  | refused (r : Refusal)
  deriving DecidableEq, Repr

namespace ServerError

/-- The diagnostic of a server error; there is none for a malformed control message. -/
def message? : ServerError → Option String
  | link e => e.message?.map ("io error: " ++ ·)
  | refused r => some r.message

/-- The diagnostic of the cause. -/
def source? : ServerError → Option String
  | link e => e.message?
  | refused r => r.source?

end ServerError

/-! ## The frame guard -/

/-- A product of words, unless it is no word. -/
def product? (a b : Nat) : Option Nat := if a * b < UInt64.size then some (a * b) else none

/-- A sum of words, unless it is no word. -/
def sum? (a b : Nat) : Option Nat := if a + b < UInt64.size then some (a + b) else none

/-- Whether the answer with `length` numbers for a key fits in a frame. -/
def fitsInFrame (key : String) (length : UInt64) : Bool :=
  let size := (Text.Utf8.encode key).length
  let head := 8 + (size + padding size)
  ((product? length.toNat 4).bind fun bytes => sum? bytes head).any (· ≤ frameLimit)

/-! ## Servers -/

/-- A server. -/
structure Server where
  store : Store Single
  rankSize : Option UInt64

namespace Server

/-- The server of a configuration with a rank; it has to wait for one worker at least. -/
def ofConfig (config : ServerConfig) (rank : UInt64) : Except BuildError Server :=
  if config.workers = 0 then .error .noWorkers
  else (Store.ofConfig config rank).map fun store => ⟨store, none⟩

/-- Checks the number of ranks of a worker; the first one is kept. -/
def hello (server : Server) (identity : Identity) : Except Refusal Unit × Server :=
  match server.rankSize with
  | none => (.ok (), { server with rankSize := some identity.rankSize })
  | some expected =>
    if expected = identity.rankSize then (.ok (), server)
    else (.error (.rankSizeChanged expected identity.rankSize), server)

end Server

/-- What a server does about a message: nothing, an answer, a last answer, or a refusal. -/
inductive Verdict
  | silent
  | reply (m : Message)
  | farewell
  | refuse (r : Refusal)
  deriving DecidableEq

end ParamExchange
