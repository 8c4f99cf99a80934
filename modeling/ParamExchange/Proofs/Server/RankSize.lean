/-
One number of ranks for the whole run of a server. Its connections share it: the first hello on any of them
fixes it, a later one is accepted exactly if it announces the same number, and nothing else changes it. A
service is run here through any events on any number of connections, and the messages that its sessions take
are written down in order, each with the verdict on it. One message follows the rule, then by induction those of
a session, then those of a run. A hello that is refused ends its connection with one report, and no document is
read as a hello whose rank is out of range.
-/
import ParamExchange.Proofs.Server.Guard
import ParamExchange.Proofs.Wire.Grammar

namespace ParamExchange

open Wire

/-! ## Announcements -/

/-- The number of ranks that a message announces, if it is a hello. -/
def Wire.Message.announced? : Message → Option UInt64
  | .control (.hello identity) => some identity.rankSize
  | _ => none

/-- The verdict on a hello of `n` ranks where the number of ranks is fixed already or not. -/
def Verdict.ofRanks (fixed? : Option UInt64) (n : UInt64) : Verdict :=
  match fixed? with
  | none => .silent
  | some fixed => if fixed = n then .silent else .refuse (.rankSizeChanged fixed n)

namespace Session

theorem verdict_hello (s : Session) (identity : Identity) :
    (s.handle (.control (.hello identity))).1 = .ofRanks s.server.rankSize identity.rankSize := by
  rcases hfixed : s.server.rankSize with _ | fixed
  · simp only [handle, Server.hello, hfixed, Verdict.ofRanks]
  · by_cases heq : fixed = identity.rankSize <;> simp [handle, Server.hello, hfixed, Verdict.ofRanks, heq]

theorem rankSize_answer (s : Session) (key : String) (filled : Filled StoreError Single (Store Single)) :
    (s.answer key filled).2.server.rankSize = s.server.rankSize := by
  unfold answer
  split <;> rfl

/-- One message fixes the number of ranks if it is a hello and none is fixed yet, and leaves it otherwise. -/
theorem rankSize_handle (s : Session) (m : Message) :
    (s.handle m).2.server.rankSize = s.server.rankSize.or m.announced? := by
  have hkept : s.server.rankSize = s.server.rankSize.or none := Option.or_none.symm
  cases m with
  | error text => exact hkept
  | params key values => exact hkept
  | control command =>
    cases command with
    | connect => exact hkept
    | disconnect => exact hkept
    | hello identity =>
      rcases hfixed : s.server.rankSize with _ | fixed
      · simp [handle, Server.hello, hfixed, Message.announced?]
      · by_cases heq : fixed = identity.rankSize <;> simp [handle, Server.hello, hfixed, heq]
  | pull key length =>
    simp only [handle]
    split
    · exact (rankSize_answer ..).trans hkept
    · exact hkept
  | push key gradient => exact (rankSize_answer ..).trans hkept

end Session

/-! ## Messages that a session takes -/

namespace Verdict

/-- How a session stands after a verdict; `fault?` says why answers can not be sent. -/
def standing (fault? : Option LinkError) : Verdict → Standing
  | silent => .open
  | reply _ => fault?.elim .open fun e => .failed (.link e)
  | farewell => fault?.elim .over fun e => .failed (.link e)
  | refuse r => .failed (.refused r)

/-- What is sent for a verdict, if anything can be. -/
def sent (fault? : Option LinkError) (verdict : Verdict) : List Message :=
  if fault?.isSome then []
  else
    match verdict with
    | silent => []
    | reply m => [m]
    | farewell => [.control .disconnect]
    | refuse r => [.error r.message]

theorem eq_silent_or_reply {fault? : Option LinkError} {verdict : Verdict} (h : verdict.standing fault? = .open) :
    verdict = .silent ∨ ∃ m, verdict = .reply m := by
  cases verdict with
  | silent => exact .inl rfl
  | reply m => exact .inr ⟨m, rfl⟩
  | farewell => cases fault? <;> simp [standing] at h
  | refuse r => simp [standing] at h

end Verdict

/-- A message that was taken from a connection, and the verdict on it. -/
structure Taken where
  connection : Nat
  message : Message
  verdict : Verdict
  deriving DecidableEq

/-- The number of ranks that was announced first. -/
def announcedFirst? (log : List Taken) : Option UInt64 := log.findSome? (·.message.announced?)

theorem announcedFirst?_cons (entry : Taken) (log : List Taken) :
    announcedFirst? (entry :: log) = entry.message.announced?.or (announcedFirst? log) := by
  unfold announcedFirst?
  rw [List.findSome?_cons]
  cases entry.message.announced? <;> rfl

theorem announcedFirst?_append (log later : List Taken) :
    announcedFirst? (log ++ later) = (announcedFirst? log).or (announcedFirst? later) :=
  List.findSome?_append

/-- Each hello of a log has the verdict that the number of ranks calls for which was fixed before the log, or
else announced first in it. -/
inductive Ruled : Option UInt64 → List Taken → Prop
  | nil {fixed? : Option UInt64} : Ruled fixed? []
  | cons {fixed? : Option UInt64} {entry : Taken} {log : List Taken} :
      (∀ identity, entry.message = .control (.hello identity) →
        entry.verdict = .ofRanks fixed? identity.rankSize) →
      Ruled (fixed?.or entry.message.announced?) log → Ruled fixed? (entry :: log)

namespace Ruled

theorem append {fixed? : Option UInt64} {log later : List Taken} (h : Ruled fixed? log)
    (h' : Ruled (fixed?.or (announcedFirst? log)) later) : Ruled fixed? (log ++ later) := by
  induction h with
  | nil => simpa [announcedFirst?] using h'
  | cons hentry _ ih =>
    rw [announcedFirst?_cons, ← Option.or_assoc] at h'
    exact .cons hentry (ih h')

theorem verdict {fixed? : Option UInt64} {earlier later : List Taken} {entry : Taken} {identity : Identity}
    (h : Ruled fixed? (earlier ++ entry :: later)) (hentry : entry.message = .control (.hello identity)) :
    entry.verdict = .ofRanks (fixed?.or (announcedFirst? earlier)) identity.rankSize := by
  induction earlier generalizing fixed? with
  | nil =>
    cases h with
    | cons hruled _ => simpa [announcedFirst?] using hruled identity hentry
  | cons first earlier ih =>
    cases h with
    | cons _ hrest =>
      rw [announcedFirst?_cons, ← Option.or_assoc]
      exact ih hrest

end Ruled

namespace Session

/-- The messages that the session of a connection takes: all of them up to one that ends it. -/
def taken (connection : Nat) (fault? : Option LinkError) : List Message → Session → List Taken
  | [], _ => []
  | m :: rest, s =>
    let verdict := (s.handle m).1
    ⟨connection, m, verdict⟩ ::
      if verdict.standing fault? = .open then taken connection fault? rest (s.handle m).2 else []

/-- A session serves its first message as the verdict says, and goes on if it is still open then. -/
theorem serve_cons (fault? : Option LinkError) (m : Message) (rest : List Message) (s : Session) :
    serve fault? (m :: rest) s =
      Served.andThen ⟨(s.handle m).1.sent fault?, (s.handle m).2, (s.handle m).1.standing fault?⟩
        (serve fault? rest) := by
  rcases hm : s.handle m with ⟨_ | reply | _ | r, after⟩ <;> cases fault? <;>
    simp [serve, hm, Served.andThen, Verdict.sent, Verdict.standing]

variable {connection : Nat} {fault? : Option LinkError}

theorem exists_handle_of_mem_taken {ms : List Message} {s : Session} {entry : Taken}
    (h : entry ∈ taken connection fault? ms s) :
    entry.connection = connection ∧ ∃ now : Session, entry.verdict = (now.handle entry.message).1 := by
  induction ms generalizing s with
  | nil => cases h
  | cons m rest ih =>
    rw [taken, List.mem_cons] at h
    obtain rfl | h := h
    · exact ⟨rfl, s, rfl⟩
    · split at h
      · exact ih h
      · cases h

/-- The number of ranks after a session is the one before it, or else the first that was announced in it. -/
theorem rankSize_serve (ms : List Message) (s : Session) :
    (serve fault? ms s).session.server.rankSize =
      s.server.rankSize.or (announcedFirst? (taken connection fault? ms s)) := by
  induction ms generalizing s with
  | nil => exact Option.or_none.symm
  | cons m rest ih =>
    rw [serve_cons, taken, announcedFirst?_cons, ← Option.or_assoc, ← rankSize_handle]
    by_cases hopen : (s.handle m).1.standing fault? = .open
    · rw [Served.andThen_open hopen, if_pos hopen]
      exact ih (s.handle m).2
    · rw [Served.andThen_closed hopen, if_neg hopen]
      exact Option.or_none.symm

theorem ruled_taken (ms : List Message) (s : Session) :
    Ruled s.server.rankSize (taken connection fault? ms s) := by
  induction ms generalizing s with
  | nil => exact .nil
  | cons m rest ih =>
    refine .cons (fun identity hm => ?_) ?_
    · obtain rfl : m = .control (.hello identity) := hm
      exact verdict_hello s identity
    · rw [← rankSize_handle]
      split
      · exact ih _
      · exact .nil

/-- A session that does not stay open after a message takes no other. What it sent is what was sent for the
messages that it took, and it stands as the last verdict says. -/
theorem serve_of_taken {ms : List Message} {s : Session} {earlier later : List Taken} {entry : Taken}
    (h : taken connection fault? ms s = earlier ++ entry :: later) (hends : entry.verdict.standing fault? ≠ .open) :
    later = [] ∧ (∀ e ∈ earlier, e.verdict.standing fault? = .open) ∧
      (serve fault? ms s).replies = (earlier ++ [entry]).flatMap (·.verdict.sent fault?) ∧
      (serve fault? ms s).standing = entry.verdict.standing fault? := by
  induction ms generalizing s earlier with
  | nil => simp [taken] at h
  | cons m rest ih =>
    rw [taken] at h
    rw [serve_cons]
    cases earlier with
    | nil =>
      obtain ⟨rfl, hlater⟩ := List.cons.inj h
      rw [if_neg hends] at hlater
      rw [Served.andThen_closed hends]
      exact ⟨hlater.symm, nofun, by simp, rfl⟩
    | cons first earlier =>
      obtain ⟨rfl, hrest⟩ := List.cons.inj h
      split at hrest
      · rename_i hopen
        obtain ⟨hlater, hearlier, hreplies, hstanding⟩ := ih hrest
        rw [Served.andThen_open hopen]
        refine ⟨hlater, List.forall_mem_cons.2 ⟨hopen, hearlier⟩, ?_, hstanding⟩
        simp [hreplies]
      · simp at hrest

theorem session_serveStream (ended : Bool) (stream : List UInt8) (s : Session) :
    (serveStream fault? ended stream s).1.session = (serve fault? (inbound stream).1 s).session := by
  rw [serveStream_eq]
  generalize serve fault? (inbound stream).1 s = served
  obtain ⟨replies, session, standing⟩ := served
  cases standing <;> cases (inbound stream).2 <;> cases ended <;> rfl

end Session

/-! ## Runs of a service -/

namespace Service

/-- What happens to a service: a worker connects, octets come on a connection, whose stream has ended if
`ended`, octets that were sent on a connection are read up to some that are left, or the service is settled. -/
inductive Event
  | accept (fault? : Option LinkError)
  | feed (connection : Nat) (octets : List UInt8) (ended : Bool)
  | read (connection : Nat) (left : List UInt8)
  | settle

/-- The service after an event. -/
def happen (service : Service) : Event → Service
  | .accept fault? => service.accept fault?
  | .feed i octets ended => service.feed i octets ended
  | .read i left => service.setUnread i left
  | .settle => service.settle

/-- The messages that are taken at an event. -/
def taken (service : Service) : Event → List Taken
  | .feed i octets _ =>
    match service.connections[i]? with
    | none => []
    | some c =>
      if c.isOpen then
        Session.taken i c.fault? (inbound (c.inbox ++ octets)).1 ⟨service.server, c.scratch⟩
      else []
  | _ => []

/-- The messages that are taken at some events, and the service after them. -/
def run (service : Service) : List Event → List Taken × Service
  | [] => ([], service)
  | event :: rest =>
    let (log, after) := (service.happen event).run rest
    (service.taken event ++ log, after)

/-! ## One event -/

section Event

variable {service : Service} {i : Nat} {c : Connection}

theorem taken_open (hc : service.connections[i]? = some c) (hopen : c.isOpen = true) (octets : List UInt8)
    (ended : Bool) :
    service.taken (.feed i octets ended) =
      Session.taken i c.fault? (inbound (c.inbox ++ octets)).1 ⟨service.server, c.scratch⟩ := by
  simp only [taken, hc, hopen, if_true]

/-- Messages are taken only when octets come on a connection that is open. -/
theorem taken_cases (service : Service) (event : Event) :
    (service.taken event = [] ∧ (service.happen event).server = service.server) ∨
      ∃ i octets ended c, event = .feed i octets ended ∧ service.connections[i]? = some c ∧ c.isOpen = true := by
  cases event with
  | accept fault? => exact .inl ⟨rfl, rfl⟩
  | read i left =>
    refine .inl ⟨rfl, ?_⟩
    simp only [happen, setUnread]
    split <;> rfl
  | settle =>
    refine .inl ⟨rfl, ?_⟩
    simp only [happen, settle]
    split <;> rfl
  | feed i octets ended =>
    rcases hc : service.connections[i]? with _ | c
    · exact .inl ⟨by simp only [taken, hc], by simp only [happen, feed, hc]⟩
    · by_cases hopen : c.isOpen = true
      · exact .inr ⟨i, octets, ended, c, rfl, hc, hopen⟩
      · exact .inl ⟨by simp only [taken, hc, if_neg hopen], by simp only [happen, feed, hc, if_neg hopen]⟩

/-- At one event the number of ranks stays as it is fixed, or else becomes the first that is announced. -/
theorem rankSize_happen (service : Service) (event : Event) :
    (service.happen event).server.rankSize =
      service.server.rankSize.or (announcedFirst? (service.taken event)) := by
  obtain ⟨htaken, hserver⟩ | ⟨i, octets, ended, c, rfl, hc, hopen⟩ := taken_cases service event
  · rw [htaken, hserver]
    exact Option.or_none.symm
  · rw [taken_open hc hopen, happen, feed_open hc hopen]
    show (Session.serveStream _ _ _ _).1.session.server.rankSize = _
    rw [Session.session_serveStream]
    exact Session.rankSize_serve (inbound (c.inbox ++ octets)).1 ⟨service.server, c.scratch⟩

theorem ruled_taken (service : Service) (event : Event) : Ruled service.server.rankSize (service.taken event) := by
  obtain ⟨htaken, -⟩ | ⟨i, octets, ended, c, rfl, hc, hopen⟩ := taken_cases service event
  · rw [htaken]
    exact .nil
  · rw [taken_open hc hopen]
    exact Session.ruled_taken (inbound (c.inbox ++ octets)).1 ⟨service.server, c.scratch⟩

/-- A connection that is over. -/
def IsOver (service : Service) (i : Nat) : Prop := ∃ c, service.connections[i]? = some c ∧ c.isOpen = false

/-- A connection that is over stays over, whatever happens. -/
theorem IsOver.happen (h : service.IsOver i) (event : Event) : (service.happen event).IsOver i := by
  obtain ⟨c, hc, hover⟩ := h
  obtain ⟨hi, -⟩ := List.getElem?_eq_some_iff.1 hc
  cases event with
  | accept fault? => exact ⟨c, (List.getElem?_append_left hi).trans hc, hover⟩
  | feed j octets ended =>
    by_cases hji : j = i
    · subst hji
      have hsame : service.feed j octets ended = service :=
        feed_closed (fun d hd => by rw [hc] at hd; cases hd; exact hover) octets ended
      exact ⟨c, by rw [Service.happen, hsame]; exact hc, hover⟩
    · refine ⟨c, ?_, hover⟩
      simp only [Service.happen, feed]
      split
      · exact hc
      · split
        · exact (List.getElem?_set_ne hji).trans hc
        · exact hc
  | read j left =>
    by_cases hji : j = i
    · subst hji
      refine ⟨{ c with outbox := left }, ?_, hover⟩
      simp only [Service.happen, setUnread, hc]
      exact List.getElem?_set_self hi
    · refine ⟨c, ?_, hover⟩
      simp only [Service.happen, setUnread]
      split
      · exact hc
      · exact (List.getElem?_set_ne hji).trans hc
  | settle =>
    simp only [IsOver, Service.happen, settle]
    split
    · exact ⟨c.close, by simp [hc], rfl⟩
    · exact ⟨c, hc, hover⟩

/-- What a message comes on is a connection that is open, and it is one that octets come on. -/
theorem exists_open_of_mem_taken {event : Event} {entry : Taken} (h : entry ∈ service.taken event) :
    ∃ octets ended c, event = .feed entry.connection octets ended ∧
      service.connections[entry.connection]? = some c ∧ c.isOpen = true := by
  obtain ⟨htaken, -⟩ | ⟨i, octets, ended, c, rfl, hc, hopen⟩ := taken_cases service event
  · rw [htaken] at h
    cases h
  · rw [taken_open hc hopen] at h
    obtain ⟨rfl, -⟩ := Session.exists_handle_of_mem_taken h
    exact ⟨octets, ended, c, rfl, hc, hopen⟩

end Event

/-! ## Runs -/

theorem rankSize_run (service : Service) (events : List Event) :
    (service.run events).2.server.rankSize =
      service.server.rankSize.or (announcedFirst? (service.run events).1) := by
  induction events generalizing service with
  | nil => exact Option.or_none.symm
  | cons event rest ih =>
    rw [run, ih, rankSize_happen, Option.or_assoc, ← announcedFirst?_append]

theorem ruled_run (service : Service) (events : List Event) :
    Ruled service.server.rankSize (service.run events).1 := by
  induction events generalizing service with
  | nil => exact .nil
  | cons event rest ih =>
    refine (ruled_taken service event).append ?_
    rw [← rankSize_happen]
    exact ih (service.happen event)

/-- From a connection that is over nothing is taken. -/
theorem IsOver.connection_ne {service : Service} {i : Nat} (h : service.IsOver i) (events : List Event) :
    ∀ entry ∈ (service.run events).1, entry.connection ≠ i := by
  induction events generalizing service with
  | nil => nofun
  | cons event rest ih =>
    intro entry hentry
    obtain hnow | hlater := List.mem_append.1 hentry
    · rintro rfl
      obtain ⟨c, hc, hover⟩ := h
      obtain ⟨-, -, d, -, hd, hopen⟩ := exists_open_of_mem_taken hnow
      rw [hc] at hd
      cases hd
      simp [hover] at hopen
    · exact ih (h.happen event) entry hlater

/-- A refused message ends its connection and the session on it, and nothing is sent after the report. -/
theorem of_refused {service : Service} {event : Event} {earlier later : List Taken} {entry : Taken} {r : Refusal}
    (h : service.taken event = earlier ++ entry :: later) (hr : entry.verdict = .refuse r) :
    ∃ octets ended c, event = .feed entry.connection octets ended ∧
      service.connections[entry.connection]? = some c ∧ c.isOpen = true ∧ later = [] ∧
      (∀ e ∈ earlier, e.verdict = .silent ∨ ∃ key values, e.verdict = .reply (.params key values)) ∧
      (Session.serveStream c.fault? ended (c.inbox ++ octets) ⟨service.server, c.scratch⟩).1.standing =
        .failed (.refused r) ∧
      (service.happen event).unread entry.connection =
        c.outbox ++ ((earlier ++ [entry]).flatMap (·.verdict.sent c.fault?)).flatMap Message.frame ∧
      (service.happen event).failure = (service.failure <|> some (.refused r)) ∧
      (service.happen event).IsOver entry.connection := by
  have hmem : entry ∈ service.taken event := h ▸ List.mem_append_right _ List.mem_cons_self
  obtain ⟨octets, ended, c, rfl, hc, hopen⟩ := exists_open_of_mem_taken hmem
  rw [taken_open hc hopen] at h
  have hends : entry.verdict.standing c.fault? = .failed (.refused r) := by rw [hr]; rfl
  obtain ⟨hlater, hearlier, hreplies, hstanding⟩ := Session.serve_of_taken h (by rw [hends]; nofun)
  rw [hends] at hstanding
  have hstream : Session.serveStream c.fault? ended (c.inbox ++ octets) ⟨service.server, c.scratch⟩ =
      (Session.serve c.fault? (inbound (c.inbox ++ octets)).1 ⟨service.server, c.scratch⟩, []) := by
    rw [Session.serveStream_eq, Served.finish_closed (by rw [hstanding]; nofun)]
  have hnext := connections_absorb hc
    (Session.serveStream c.fault? ended (c.inbox ++ octets) ⟨service.server, c.scratch⟩)
  simp only [happen]
  rw [feed_open hc hopen]
  refine ⟨octets, ended, c, rfl, hc, hopen, hlater, fun e he => ?_, ?_, ?_, ?_, ?_⟩
  · obtain ⟨-, now, hverdict⟩ := Session.exists_handle_of_mem_taken (h ▸ List.mem_append_left _ he)
    obtain hsilent | ⟨reply, hreply⟩ := Verdict.eq_silent_or_reply (hearlier e he)
    · exact .inl hsilent
    · have hhandle : now.handle e.message = (.reply reply, (now.handle e.message).2) :=
        Prod.ext (hverdict ▸ hreply) rfl
      obtain ⟨key, values, rfl, -⟩ := Session.reply_of_handle hhandle
      exact .inr ⟨key, values, hreply⟩
  · rw [hstream]
    exact hstanding
  · unfold unread
    rw [hnext, hstream, ← hreplies]
    rfl
  · rw [hstream]
    simp only [absorb, hstanding, Standing.failure?]
  · refine ⟨_, hnext, decide_eq_false ?_⟩
    rw [hstream, hstanding]
    nofun

end Service

/-! ## The ranks of a run -/

/-- The body of a hello is read only if its rank is below its number of ranks. -/
theorem decode_writeHello (nodeId : String) (rank rankSize : UInt64) :
    Message.decode (big 4 1 ++ Control.writeHello nodeId rank rankSize) =
      if h : rank < rankSize then .ok (.control (.hello ⟨nodeId, rank, rankSize, h⟩))
      else .error (.control .malformed) := by
  have hparse := Control.parse_writeHello nodeId rank rankSize
  rw [decode_big (by decide)]
  split
  · rename_i h
    rw [dif_pos h] at hparse
    exact takeControl_eq_ok_iff.2 ⟨_, rfl, hparse⟩
  · rename_i h
    rw [dif_neg h] at hparse
    exact takeControl_eq_error_iff.2 hparse

/-- A server has one number of ranks for its whole run. Whatever happens on any number of connections, in any
order, the number is the one that the first hello announces. That hello is accepted; a later one is accepted
exactly if it announces the same number, and refused with both numbers otherwise. So the hellos that were
accepted agree, each with a rank below their number. A refusal ends its session and its connection: nothing is
taken there any more, and the one report stands after the values that were sent before it, if anything can be
sent at all. Nothing but a first hello changes the number, no event changes it once it is fixed, and what is read
from a document is an identity only if its rank is below its number of ranks, in whatever form its fields are
written. -/
theorem ranks_agree (store : Store Single) (events : List Service.Event) :
    let run := (Service.start ⟨store, none⟩).run events
    run.2.server.rankSize = announcedFirst? run.1 ∧
    (∀ earlier entry later identity, run.1 = earlier ++ entry :: later →
      entry.message = .control (.hello identity) →
      (announcedFirst? earlier = none → entry.verdict = .silent) ∧
      ∀ fixed, announcedFirst? earlier = some fixed →
        (entry.verdict = .silent ↔ identity.rankSize = fixed) ∧
        (identity.rankSize ≠ fixed → entry.verdict = .refuse (.rankSizeChanged fixed identity.rankSize))) ∧
    (∀ entry ∈ run.1, ∀ identity, entry.message = .control (.hello identity) → entry.verdict = .silent →
      run.2.server.rankSize = some identity.rankSize ∧ identity.rank < identity.rankSize) ∧
    (∀ (service : Service) (event : Service.Event) (earlier : List Taken) (entry : Taken) (later : List Taken)
      (r : Refusal), service.taken event = earlier ++ entry :: later → entry.verdict = .refuse r →
      ∃ octets ended c, event = .feed entry.connection octets ended ∧
        service.connections[entry.connection]? = some c ∧ later = [] ∧
        (∀ e ∈ earlier, e.verdict = .silent ∨ ∃ key values, e.verdict = .reply (.params key values)) ∧
        (Session.serveStream c.fault? ended (c.inbox ++ octets) ⟨service.server, c.scratch⟩).1.standing =
          .failed (.refused r) ∧
        (c.fault? = none → (service.happen event).unread entry.connection = c.outbox ++
          (earlier.flatMap (·.verdict.sent none)).flatMap Message.frame ++ (Message.error r.message).frame) ∧
        (service.happen event).failure = (service.failure <|> some (.refused r)) ∧
        (service.happen event).isOpen entry.connection = false ∧
        ∀ more, ∀ e ∈ ((service.happen event).run more).1, e.connection ≠ entry.connection) ∧
    (∀ (s : Session) (m : Message), (s.handle m).2.server.rankSize = s.server.rankSize.or m.announced?) ∧
    (∀ (service : Service) (more : List Service.Event) (fixed : UInt64),
      service.server.rankSize = some fixed → (service.run more).2.server.rankSize = some fixed) ∧
    (∀ (document rest : List UInt8) (nodeId : String) (rank rankSize : UInt64) (h : 0 < rankSize.toNat),
      Json.record Control.identityFields {} some document =
        .ok (⟨some nodeId, some rank, some ⟨rankSize.toNat, h⟩⟩, rest) →
      Config.identity document =
        if h : rank < rankSize then .ok (⟨nodeId, rank, rankSize, h⟩, rest) else .error .malformed) ∧
    ∀ (nodeId : String) (rank rankSize : UInt64),
      Message.decode (big 4 1 ++ Control.writeHello nodeId rank rankSize) =
        if h : rank < rankSize then .ok (.control (.hello ⟨nodeId, rank, rankSize, h⟩))
        else .error (.control .malformed) := by
  intro run
  have hrank : run.2.server.rankSize = announcedFirst? run.1 := Service.rankSize_run _ events
  have hruled : ∀ {earlier entry later identity}, run.1 = earlier ++ entry :: later →
      entry.message = .control (.hello identity) →
      entry.verdict = .ofRanks (announcedFirst? earlier) identity.rankSize := by
    intro earlier entry later identity hlog hentry
    have hall : Ruled none run.1 := Service.ruled_run (Service.start ⟨store, none⟩) events
    rw [hlog] at hall
    exact hall.verdict hentry
  refine ⟨hrank, fun earlier entry later identity hlog hentry => ⟨fun hfirst => ?_, fun fixed hfixed => ?_⟩,
    fun entry hmem identity hentry haccepted => ⟨?_, identity.rank_lt⟩,
    fun service event earlier entry later r hlog hr => ?_, Session.rankSize_handle,
    fun service more fixed hfixed => ?_, fun _ _ _ _ _ _ => Control.identity_of_draft, decode_writeHello⟩
  · rw [hruled hlog hentry, hfirst]
    rfl
  · have hverdict := hruled hlog hentry
    rw [hfixed] at hverdict
    by_cases heq : fixed = identity.rankSize
    · simp [hverdict, Verdict.ofRanks, heq]
    · simp [hverdict, Verdict.ofRanks, heq, Ne.symm heq]
  · -- the number is the first one announced up to and with this hello, and this hello announces it
    obtain ⟨earlier, later, hlog⟩ := List.append_of_mem hmem
    have hverdict := hruled hlog hentry
    rw [hrank, hlog, announcedFirst?_append, announcedFirst?_cons, hentry]
    rcases hfirst : announcedFirst? earlier with _ | fixed
    · rfl
    · rw [hfirst, haccepted, Verdict.ofRanks] at hverdict
      split at hverdict
      · rename_i heq
        exact congrArg some heq
      · cases hverdict
  · obtain ⟨octets, ended, c, rfl, hc, -, hlater, hearlier, hstanding, hunread, hfailure, hover⟩ :=
      Service.of_refused hlog hr
    refine ⟨octets, ended, c, rfl, hc, hlater, hearlier, hstanding, fun hsent => ?_, hfailure, ?_,
      fun more => hover.connection_ne more⟩
    · rw [hunread, hsent, List.flatMap_append, List.flatMap_append, List.append_assoc]
      simp [hr, Verdict.sent]
    · obtain ⟨d, hd, hclosed⟩ := hover
      simp [Service.isOpen, hd, hclosed]
  · rw [Service.rankSize_run, hfixed]
    rfl

/-- Of three connections the second is the first to say hello, in a run of two ranks. The hello on the first one is
refused, as it announces three, and the one on the third is accepted. -/
theorem ranks_agree_three :
    let plan : Plan Single := ⟨fun _ n => List.replicate n ⟨0x3F800000⟩, .additive, 0⟩
    let first := Taken.mk 1 (.control (.hello ⟨"b", 0, 2, by decide⟩)) .silent
    let second := Taken.mk 0 (.control (.hello ⟨"a", 1, 3, by decide⟩)) (.refuse (.rankSizeChanged 2 3))
    let third := Taken.mk 2 (.control (.hello ⟨"c", 1, 2, by decide⟩)) .silent
    let greet : Taken → Service.Event := fun entry => .feed entry.connection entry.message.frame false
    let before : List Service.Event := [.accept none, .accept none, .accept none, greet first]
    let run := (Service.start ⟨.empty plan, none⟩).run (before ++ [greet second, greet third])
    let now := ((Service.start ⟨.empty plan, none⟩).run before).2
    run.1 = [first, second, third] ∧ now.taken (greet second) = [second] ∧
      run.2.server.rankSize = some 2 ∧
      (now.happen (greet second)).unread 0 = (Message.error (Refusal.rankSizeChanged 2 3).message).frame ∧
      (now.happen (greet second)).isOpen 0 = false ∧
      Config.identity (Json.writeObject (Control.identityMembers "d" 2 2) ++ []) = .error .malformed ∧
      Message.decode (big 4 1 ++ Control.writeHello "d" 2 2) = .error (.control .malformed) := by
  intro plan first second third greet before run now
  have hrun : run.1 = [first, second, third] := by decide +kernel
  have hnow : now.taken (greet second) = [second] := by decide +kernel
  have hdraft := Json.record_gathers (Control.gathers_identity "d" 2 (by decide : 0 < (2 : UInt64).toNat)) []
  obtain ⟨hrank, -, -, hrefused, -, -, hidentity, hdecode⟩ :=
    ranks_agree (.empty plan) (before ++ [greet second, greet third])
  obtain ⟨octets, ended, c, hevent, hc, -, -, -, hunread, -, hover, -⟩ :=
    hrefused now (greet second) [] second [] (.rankSizeChanged 2 3) hnow rfl
  obtain rfl : c = Connection.fresh none := (Option.some.inj hc).symm
  refine ⟨hrun, hnow, hrank.trans (by rw [show (Service.run _ _).1 = _ from hrun]; rfl), hunread rfl, hover, ?_, ?_⟩
  · exact (hidentity _ _ _ _ _ _ hdraft).trans (dif_neg (by decide))
  · exact (hdecode "d" 2 2).trans (dif_neg (by decide))

end ParamExchange
