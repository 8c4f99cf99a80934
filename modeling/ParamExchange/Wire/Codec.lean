/-
Messages as octets. The body of a message begins with a number for its kind in four octets. A key
is written as its length in four octets and its own octets, filled up so that the numbers after it
begin at a multiple of four; numbers end the body.
-/
import ParamExchange.Kind
import ParamExchange.Wire.Control
import ParamExchange.Wire.Octets

namespace ParamExchange.Wire

open Text

/-! ## Faults -/

/-- Why a body is not the body of a message. -/
inductive Fault
  | tooShort (size needed : Nat)
  | unknownKind (number : Nat)
  | notText (fault : Utf8.Fault)
  | control (fault : Json.Fault)
  | ragged
  deriving DecidableEq, Repr

/-- A control message that ends too early counts as the end of its octets, all else as invalid
data. -/
def Fault.kind : Fault → Kind
  | control .truncated => .unexpectedEof
  | _ => .invalidData

/-- The diagnostic of a fault; there is none for the document of a control message. -/
def Fault.message? : Fault → Option String
  | tooShort size needed =>
    some s!"The given buffer is too small {size}, must at least be {needed} bytes"
  | unknownKind number => some s!"Received an invalid kind header {number}"
  | notText fault => some fault.message
  | control _ => none
  | ragged => some "Received a malformed parameter payload: OutputSliceWouldHaveSlop"

/-! ## Writing -/

/-- The number of a message's kind. -/
def Message.kindNumber : Message → Nat
  | error _ => 0
  | control _ => 1
  | pull _ _ => 2
  | push _ _ => 3
  | params _ _ => 4

/-- A key after `position` octets: its length, its octets and zeros up to a multiple of four. -/
def writeKey (position : Nat) (key : String) : List UInt8 :=
  let octets := Utf8.encode key
  let written := big 4 octets.length ++ octets
  written ++ List.replicate (padding (position + written.length)) 0

/-- What is written of a message after `position` octets, but for the text or the numbers at its
end. -/
def Message.head (position : Nat) (m : Message) : List UInt8 :=
  big 4 m.kindNumber ++
    match m with
    | error _ => []
    | control c => c.write
    | pull key length => big 8 length.toNat ++ writeKey (position + 12) key
    | push key _ => writeKey (position + 4) key
    | params key _ => writeKey (position + 4) key

/-- The text or the numbers at the end of a message, if it is of a kind that ends so. -/
def Message.tail? : Message → Option (List UInt8)
  | error text => some (Utf8.encode text)
  | control _ => none
  | pull _ _ => none
  | push _ gradient => some (littles gradient)
  | params _ values => some (littles values)

/-- The octets of a message that begin after `position` octets. -/
def Message.encode (position : Nat) (m : Message) : List UInt8 :=
  m.head position ++ m.tail?.getD []

/-! ## Writing to a buffer -/

/-- Brings a buffer to a length: what is beyond it is cut off, what is missing is zero. -/
def resize (buffer : List UInt8) (length : Nat) : List UInt8 :=
  buffer.take length ++ List.replicate (length - buffer.length) 0

/-- Writes a key to the end of a buffer, and brings the buffer to a multiple of four. -/
def appendKey (buffer : List UInt8) (key : String) : List UInt8 :=
  let octets := Utf8.encode key
  let written := buffer ++ big 4 octets.length ++ octets
  resize written (written.length + padding written.length)

/-- Writes a message to the end of a buffer, but for the text or the numbers at its end, which are
given apart. -/
def Message.serialize (buffer : List UInt8) (m : Message) : List UInt8 × Option (List UInt8) :=
  let start := buffer ++ big 4 m.kindNumber
  match m with
  | error text => (start, some (Utf8.encode text))
  | control c => (start ++ c.write, none)
  | pull key length => (appendKey (start ++ big 8 length.toNat) key, none)
  | push key gradient => (appendKey start key, some (littles gradient))
  | params key values => (appendKey start key, some (littles values))

/-! ## Reading -/

/-- The key at the front and the octets after its padding. -/
def takeKey (bs : List UInt8) : Except Fault (String × List UInt8) :=
  match takeBig? 4 bs with
  | none => .error (.tooShort bs.length 4)
  | some (length, rest) =>
    let padded := length + padding length
    if rest.length < padded then .error (.tooShort rest.length padded)
    else
      match Utf8.decode (rest.take length) with
      | .error fault => .error (.notText fault)
      | .ok key => .ok (key, rest.drop padded)

/-- A key and the numbers after it. -/
def takeNumbers (make : String → List Single → Message) (bs : List UInt8) :
    Except Fault Message :=
  match takeKey bs with
  | .error fault => .error fault
  | .ok (key, rest) =>
    match ofLittles? rest with
    | none => .error .ragged
    | some values => .ok (make key values)

/-- A length and the key after it. -/
def takePull (bs : List UInt8) : Except Fault Message :=
  match takeBig? 8 bs with
  | none => .error (.tooShort bs.length 8)
  | some (length, rest) =>
    match takeKey rest with
    | .error fault => .error fault
    | .ok (key, _) => .ok (.pull key (UInt64.ofNat length))

/-- A text. -/
def takeText (bs : List UInt8) : Except Fault Message :=
  match Utf8.decode bs with
  | .error fault => .error (.notText fault)
  | .ok text => .ok (.error text)

/-- The document of a control message. -/
def takeControl (bs : List UInt8) : Except Fault Message :=
  match Json.parse Control.reader bs with
  | .error fault => .error (.control fault)
  | .ok c => .ok (.control c)

/-- The message of a body. -/
def Message.decode (bs : List UInt8) : Except Fault Message :=
  match takeBig? 4 bs with
  | none => .error (.tooShort bs.length 4)
  | some (0, rest) => takeText rest
  | some (1, rest) => takeControl rest
  | some (2, rest) => takePull rest
  | some (3, rest) => takeNumbers .push rest
  | some (4, rest) => takeNumbers .params rest
  | some (n, _) => .error (.unknownKind n)

end ParamExchange.Wire
