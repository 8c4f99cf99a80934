/-
Sessions: a server takes the messages of one connection in order and answers each one before it
takes the next. A session ends with a goodbye, with a message that is refused, or with an answer
that can not be sent.
-/
import ParamExchange.Server.Basic

namespace ParamExchange

open Wire

/-- A session: the server, which all sessions share, and the buffer that answers are made in. -/
structure Session where
  server : Server
  scratch : List Single

/-- How a session stands. -/
inductive Standing
  | open
  | over
  | failed (e : ServerError)
  deriving DecidableEq, Repr

/-- Why a session failed, if it did. -/
def Standing.failure? : Standing → Option ServerError
  | .open => none
  | .over => none
  | .failed e => some e

/-- What a session leaves behind: the answers, the session, and how it stands. -/
structure Served where
  replies : List Message
  session : Session
  standing : Standing

namespace Session

/-- The buffer with another length; new elements are zero. -/
def resized (s : Session) (length : Nat) : List Single :=
  s.scratch.take length ++ List.replicate (length - s.scratch.length) 0

/-- The answer with the buffer that the store filled. -/
def answer (s : Session) (key : String) (filled : Filled StoreError Single (Store Single)) :
    Verdict × Session :=
  let after : Session := ⟨{ s.server with store := filled.state }, filled.buffer⟩
  match filled.result with
  | .ok () => (.reply (.params key filled.buffer), after)
  | .error e => (.refuse (.store e), after)

/-- The verdict on a message. -/
def handle (s : Session) (m : Message) : Verdict × Session :=
  match m with
  | .control (.hello identity) =>
    let (result, server) := s.server.hello identity
    match result with
    | .ok () => (.silent, { s with server := server })
    | .error r => (.refuse r, { s with server := server })
  | .control .connect => (.silent, s)
  | .control .disconnect => (.farewell, s)
  | .pull key length =>
    if fitsInFrame key length then
      s.answer key (s.server.store.pull key (s.resized length.toNat))
    else (.refuse (.pullTooLarge key length), s)
  | .push key gradient =>
    s.answer key (s.server.store.push key gradient (s.resized gradient.length))
  | .params _ _ => (.refuse (.unexpectedMessage m.kindName), s)
  | .error _ => (.refuse (.unexpectedMessage m.kindName), s)

/-- Serves some messages. Where answers can not be sent, `fault?` says why; then the first answer
ends the session, but a refusal is not hidden by it. -/
def serve (fault? : Option LinkError) : List Message → Session → Served
  | [], s => ⟨[], s, .open⟩
  | m :: rest, s =>
    match s.handle m, fault? with
    | (.silent, s), _ => serve fault? rest s
    | (.reply _, s), some e => ⟨[], s, .failed (.link e)⟩
    | (.reply r, s), none =>
      let served := serve fault? rest s
      { served with replies := r :: served.replies }
    | (.farewell, s), some e => ⟨[], s, .failed (.link e)⟩
    | (.farewell, s), none => ⟨[.control .disconnect], s, .over⟩
    | (.refuse r, s), some _ => ⟨[], s, .failed (.refused r)⟩
    | (.refuse r, s), none => ⟨[.error r.message], s, .failed (.refused r)⟩

/-- Serves the octets of a stream, which has ended if `ended`. What remains are the octets of a
message that is not complete yet. -/
def serveStream (fault? : Option LinkError) (ended : Bool) (stream : List UInt8) (s : Session) :
    Served × List UInt8 :=
  let (messages, tail) := inbound stream
  let served := serve fault? messages s
  match served.standing, tail with
  | .open, .bad e => ({ served with standing := .failed (.link e) }, [])
  | .open, .partialFrame rest =>
    if ended then ({ served with standing := .failed (.link (cutOff rest)) }, [])
    else (served, rest)
  | _, _ => (served, [])

end Session

end ParamExchange
