/-
Frames: a message on a stream is its body with the length of the body in eight octets in front.
A reader of a stream refuses bodies beyond a limit, and tells a stream that ends between frames or
inside of a length from one that ends inside of a body.
-/
import ParamExchange.Wire.Codec

namespace ParamExchange.Wire

/-! ## Errors -/

/-- Why no message was sent or received. -/
inductive LinkError
  | endOfStream
  | cutBody
  | oversized (length : Nat)
  | malformed (fault : Fault)
  | broken (detail : String)
  deriving DecidableEq, Repr

/-- The largest body, in octets. -/
def frameLimit : Nat := 1073741824

namespace LinkError

/-- The kind of a link error. -/
def kind : LinkError → Kind
  | endOfStream => .unexpectedEof
  | cutBody => .unexpectedEof
  | oversized _ => .invalidData
  | malformed fault => fault.kind
  | broken _ => .brokenPipe

/-- The diagnostic of a link error; there is none for a malformed control message. -/
def message? : LinkError → Option String
  | endOfStream => some "unexpected end of file"
  | cutBody => some "early eof"
  | oversized length => some s!"frame of {length} bytes exceeds the limit of {frameLimit}"
  | malformed fault => fault.message?
  | broken detail => some detail

end LinkError

/-! ## Writing -/

/-- The octets of a length. -/
def lengthWidth : Nat := 8

/-- The body of a message in a frame. -/
def Message.body (m : Message) : List UInt8 := m.encode lengthWidth

/-- The frame of a message. -/
def Message.frame (m : Message) : List UInt8 := big lengthWidth m.body.length ++ m.body

/-- A sender: the buffer that it writes the beginning of a frame to. -/
structure Sender where
  head : List UInt8

namespace Sender

/-- Empties the buffer but for the place of a length. -/
def clear (s : Sender) : Sender := { s with head := List.replicate lengthWidth 0 }

/-- Sends a message: the octets that go to the stream, and the sender after it. -/
def send (s : Sender) (m : Message) : List UInt8 × Sender :=
  let (head, tail?) := m.serialize s.clear.head
  let tail := tail?.getD []
  let length := head.length - lengthWidth + tail.length
  let after : Sender := ⟨big lengthWidth length ++ head.drop lengthWidth⟩
  (after.head ++ tail, after)

/-- Sends some messages: the octets that go to the stream for each of them. -/
def sendAll (s : Sender) : List Message → List (List UInt8)
  | [] => []
  | m :: rest =>
    let (octets, after) := s.send m
    octets :: after.sendAll rest

end Sender

/-! ## Reading -/

/-- What stands at the front of a stream: a body with the octets after it, a part of a length, a
length whose body is not complete, or a length beyond the limit with the octets after it. -/
inductive Front
  | frame (body rest : List UInt8)
  | partialLength
  | partialBody (length : Nat)
  | oversized (length : Nat) (rest : List UInt8)

/-- The front of a stream. -/
def front (stream : List UInt8) : Front :=
  match takeBig? lengthWidth stream with
  | none => .partialLength
  | some (length, rest) =>
    if frameLimit < length then .oversized length rest
    else if rest.length < length then .partialBody length
    else .frame (rest.take length) (rest.drop length)

/-- Takes the next message off a stream that has ended. -/
def receive (stream : List UInt8) : Except LinkError Message × List UInt8 :=
  match front stream with
  | .partialLength => (.error .endOfStream, [])
  | .partialBody _ => (.error .cutBody, [])
  | .oversized length rest => (.error (.oversized length), rest)
  | .frame body rest =>
    match Message.decode body with
    | .error fault => (.error (.malformed fault), rest)
    | .ok m => (.ok m, rest)

theorem length_lt_of_front {stream body rest : List UInt8} (h : front stream = .frame body rest) :
    rest.length < stream.length := by
  unfold front takeBig? at h
  split at h
  · cases h
  · next length after taken =>
    by_cases short : stream.length < lengthWidth
    · simp [short] at taken
    · simp only [short, if_false, Option.some.injEq, Prod.mk.injEq] at taken
      split at h
      · cases h
      · split at h
        · cases h
        · injection h with _ hr
          rw [← hr, ← taken.2, List.length_drop, List.length_drop]
          unfold lengthWidth at short ⊢
          omega

theorem length_lt_of_receive {stream rest : List UInt8} {m : Message}
    (h : receive stream = (.ok m, rest)) : rest.length < stream.length := by
  unfold receive at h
  split at h
  · cases h
  · cases h
  · cases h
  · next hf =>
    split at h
    · cases h
    · cases h
      exact length_lt_of_front hf

/-- Takes messages off a stream that has ended, until one that says goodbye. -/
def drain (stream : List UInt8) : Except LinkError Unit × List UInt8 :=
  match h : receive stream with
  | (.error e, rest) => (.error e, rest)
  | (.ok m, rest) =>
    have := length_lt_of_receive h
    if m = .control .disconnect then (.ok (), rest) else drain rest
termination_by stream.length

/-! ## Streams that go on -/

/-- What ends the messages at the front of a stream: the beginning of a frame, or a frame that is
no message. -/
inductive Tail
  | partialFrame (rest : List UInt8)
  | bad (e : LinkError)

/-- The messages at the front of a stream, and what ends them. -/
def inbound (stream : List UInt8) : List Message × Tail :=
  match h : front stream with
  | .partialLength => ([], .partialFrame stream)
  | .partialBody _ => ([], .partialFrame stream)
  | .oversized length _ => ([], .bad (.oversized length))
  | .frame body rest =>
    match Message.decode body with
    | .error fault => ([], .bad (.malformed fault))
    | .ok m =>
      have := length_lt_of_front h
      let (messages, tail) := inbound rest
      (m :: messages, tail)
termination_by stream.length

/-- Why a stream that ends with the beginning of a frame has no further message. -/
def cutOff (rest : List UInt8) : LinkError :=
  if rest.length < lengthWidth then .endOfStream else .cutBody

/-! ## Receivers with a buffer -/

/-- A receiver: the stream, and the buffer that bodies are read into, whose elements are `width`
octets wide. -/
structure Receiver where
  width : Nat
  buffer : List UInt8
  stream : List UInt8

namespace Receiver

/-- The buffer for a body of `length` octets: a whole number of elements, all zero. -/
def clear (r : Receiver) (length : Nat) : List UInt8 :=
  List.replicate ((length + r.width - 1) / r.width * r.width) 0

/-- Reads the next body into the buffer and takes the message out of it. -/
def next (r : Receiver) : Except LinkError Message × Receiver :=
  match front r.stream with
  | .partialLength => (.error .endOfStream, { r with stream := [] })
  | .partialBody _ => (.error .cutBody, { r with stream := [] })
  | .oversized length rest => (.error (.oversized length), { r with stream := rest })
  | .frame body rest =>
    let buffer := body ++ (r.clear body.length).drop body.length
    let after := { r with buffer := buffer, stream := rest }
    match Message.decode (buffer.take body.length) with
    | .error fault => (.error (.malformed fault), after)
    | .ok m => (.ok m, after)

/-- The number of elements of the buffer. -/
def elements (r : Receiver) : Nat := r.buffer.length / r.width

theorem length_lt_of_next {r after : Receiver} {m : Message} (h : r.next = (.ok m, after)) :
    after.stream.length < r.stream.length := by
  unfold next at h
  split at h
  · cases h
  · cases h
  · cases h
  · next hf =>
    simp only at h
    split at h
    · cases h
    · cases h
      exact length_lt_of_front hf

/-- Reads messages up to the first failure: each message with the receiver after it, and what
failed. -/
def readAll (r : Receiver) : List (Message × Receiver) × LinkError :=
  match h : r.next with
  | (.error e, _) => ([], e)
  | (.ok m, after) =>
    have := length_lt_of_next h
    let (read, e) := after.readAll
    ((m, after) :: read, e)
termination_by r.stream.length

end Receiver

end ParamExchange.Wire
