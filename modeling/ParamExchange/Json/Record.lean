/-
Readers of JSON values with parts: lists, maps, records and variants. A record is written as an
object with a member for each field, in any order and among others, or as an array of its fields
in order. A variant is written as its name alone or as an object whose one member is called by
that name.
-/
import ParamExchange.Json.Reader

namespace ParamExchange.Json

/-! ## Values that are passed over -/

/-- What encloses the value that is passed over. -/
inductive Enclosure
  | array
  | object
  deriving DecidableEq

/-- The end of a string that is passed over; its octets need not be a text. -/
def skipString : Nat → Reader Unit
  | 0 => refuse .truncated
  | fuel + 1 => do
    let b ← next
    if b == ascii '"' then pure ()
    else if b == ascii '\\' then do
      let c ← next
      if c == ascii 'u' then do
        let _ ← fourDigits
        skipString fuel
      else if (escaped? c).isSome then skipString fuel
      else refuse .malformed
    else if b < 0x20 then refuse .malformed
    else skipString fuel

/-- The rest of a string that is passed over. -/
def skipStringBody : Reader Unit := do
  let s ← remaining
  skipString (s.length + 1)

/-- The digits of a number that is passed over: at least one. Where there is none the number is
malformed, even at the end of the document. -/
def skipDigits : Reader (List UInt8) := do
  let digits ← takeWhile isDigit
  if digits.isEmpty then refuse .malformed else pure digits

/-- A number that is passed over, after its sign. -/
def skipNumber : Reader Unit := do
  let digits ← skipDigits
  if digits.head? == some (ascii '0') && 1 < digits.length then refuse .malformed
  else do
    let s ← remaining
    if s.head? == some (ascii '.') then do
      let _ ← next
      let _ ← skipDigits
    let s ← remaining
    if s.head? == some (ascii 'e') || s.head? == some (ascii 'E') then do
      let _ ← next
      let s ← remaining
      if s.head? == some (ascii '+') || s.head? == some (ascii '-') then do
        let _ ← next
      let _ ← skipDigits

/-- A value without parts that is passed over and begins with `b`. -/
def skipScalar (b : UInt8) : Reader Unit :=
  if b == ascii '-' then do
    let _ ← next
    skipNumber
  else if isDigit b then skipNumber
  else if b == ascii '"' then do
    let _ ← next
    skipStringBody
  else if b == ascii 'n' then word ['n', 'u', 'l', 'l']
  else if b == ascii 't' then word ['t', 'r', 'u', 'e']
  else if b == ascii 'f' then word ['f', 'a', 'l', 's', 'e']
  else refuse .malformed

/-- The name of a member that is passed over, and the colon after it. -/
def skipName : Reader Unit := do
  symbol '"'
  skipStringBody
  symbol ':'

/-- Passes over values until every enclosure is closed: the next value if `isDue`, else what
follows a value. -/
def skipEnclosed (isDue : Bool) (stack : List Enclosure) : Nat → Reader Unit
  | 0 => refuse .truncated
  | fuel + 1 =>
    if isDue then do
      let b ← upcoming
      if b == ascii '[' then do
        let _ ← next
        let c ← upcoming
        if c == ascii ']' then do
          let _ ← next
          skipEnclosed false stack fuel
        else skipEnclosed true (.array :: stack) fuel
      else if b == ascii '\x7b' then do
        let _ ← next
        let c ← upcoming
        if c == ascii '\x7d' then do
          let _ ← next
          skipEnclosed false stack fuel
        else do
          skipName
          skipEnclosed true (.object :: stack) fuel
      else do
        skipScalar b
        skipEnclosed false stack fuel
    else
      match stack with
      | [] => pure ()
      | enclosure :: outer => do
        let b ← upcoming
        let _ ← next
        if b == ascii ',' then do
          if enclosure = .object then skipName
          skipEnclosed true stack fuel
        else if b == ascii (if enclosure = .array then ']' else '\x7d') then
          skipEnclosed false outer fuel
        else refuse .malformed

/-- Any value. -/
def skipValue : Reader Unit := do
  let s ← remaining
  skipEnclosed true [] (2 * s.length + 2)

/-! ## Lists and maps -/

/-- Whether another element follows in an array: all but the first one come after a comma, after
which the array may not end. -/
def hasElement (isFirst : Bool) : Reader Bool := do
  let b ← upcoming
  if b == ascii ']' then pure false
  else if isFirst then pure true
  else if b == ascii ',' then do
    let _ ← next
    let s ← remaining
    if (s.dropWhile isSpace).head? == some (ascii ']') then refuse .malformed else pure true
  else refuse .malformed

/-- The elements of an array and its end. -/
def elements {α : Type} (r : Reader α) (isFirst : Bool) : Nat → Reader (List α)
  | 0 => refuse .truncated
  | fuel + 1 => do
    if ← hasElement isFirst then do
      let a ← r
      let rest ← elements r false fuel
      pure (a :: rest)
    else do
      let _ ← next
      pure []

/-- A list, written as an array. -/
def list {α : Type} (r : Reader α) : Reader (List α) := do
  let b ← upcoming
  if b == ascii '[' then do
    let _ ← next
    let s ← remaining
    elements r true (s.length + 1)
  else wrongType

/-- Whether another member follows in an object; the quote of its name has then been read. -/
def hasMember (isFirst : Bool) : Reader Bool := do
  let b ← upcoming
  if b == ascii '\x7d' then pure false
  else if isFirst then do
    symbol '"'
    pure true
  else if b == ascii ',' then do
    let _ ← next
    symbol '"'
    pure true
  else refuse .malformed

/-- Sets the value of a name, which keeps its place if it had a value before. -/
def assign {α : Type} (name : String) (value : α) : List (String × α) → List (String × α)
  | [] => [(name, value)]
  | entry :: rest =>
    if entry.1 == name then (name, value) :: rest else entry :: assign name value rest

/-- The members of a map and its end. A name that is repeated keeps its last value. -/
def entries {α : Type} (r : Reader α) (isFirst : Bool) (acc : List (String × α)) :
    Nat → Reader (List (String × α))
  | 0 => refuse .truncated
  | fuel + 1 => do
    if ← hasMember isFirst then do
      let name ← stringBody
      symbol ':'
      let value ← r
      entries r false (assign name value acc) fuel
    else do
      let _ ← next
      pure acc

/-- A map from names, written as an object. -/
def map {α : Type} (r : Reader α) : Reader (List (String × α)) := do
  let b ← upcoming
  if b == ascii '\x7b' then do
    let _ ← next
    let s ← remaining
    entries r true [] (s.length + 1)
  else wrongType

/-! ## Records -/

/-- A field of a record whose values are gathered in a draft of type `δ`. -/
structure Field (δ : Type) where
  name : String
  isSet : δ → Bool
  read : δ → Reader δ
  hasDefault : Bool

/-- The field that `get` and `put` reach in a draft. -/
def Field.of {δ β : Type} (name : String) (get : δ → Option β) (put : δ → β → δ) (r : Reader β)
    (hasDefault : Bool) : Field δ where
  name := name
  isSet draft := (get draft).isSome
  read draft := do
    let value ← r
    pure (put draft value)
  hasDefault := hasDefault

/-- The members of an object, gathered in a draft, and its end. Members of other names are passed
over; a field may not be given twice. -/
def members {δ : Type} (fields : List (Field δ)) (isFirst : Bool) (draft : δ) : Nat → Reader δ
  | 0 => refuse .truncated
  | fuel + 1 => do
    if ← hasMember isFirst then do
      let name ← stringBody
      match fields.find? fun f => f.name == name with
      | none => do
        symbol ':'
        skipValue
        members fields false draft fuel
      | some field =>
        if field.isSet draft then refuse .malformed
        else do
          symbol ':'
          let draft ← field.read draft
          members fields false draft fuel
    else do
      let _ ← next
      pure draft

/-- The elements of an array, each the next field, and its end. Only fields with a default may be
missing at the end. -/
def positions {δ : Type} (isFirst : Bool) (draft : δ) : List (Field δ) → Reader δ
  | [] => do
    symbol ']'
    pure draft
  | field :: rest => do
    if ← hasElement isFirst then do
      let draft ← field.read draft
      positions false draft rest
    else if (field :: rest).all (·.hasDefault) then do
      let _ ← next
      pure draft
    else refuse .malformed

/-- A record: its fields are gathered in a draft, from which the record is made if none of them
is missing. -/
def record {δ α : Type} (fields : List (Field δ)) (empty : δ) (finish : δ → Option α) :
    Reader α := do
  let b ← upcoming
  let draft ←
    if b == ascii '[' then do
      let _ ← next
      positions true empty fields
    else if b == ascii '\x7b' then do
      let _ ← next
      let s ← remaining
      members fields true empty (s.length + 1)
    else wrongType
  match finish draft with
  | some a => pure a
  | none => refuse .malformed

/-! ## Variants -/

/-- What a variant's name stands for: a value of its own, or one that is read after it. -/
inductive Case (α : Type)
  | unit (a : α)
  | content (r : Reader α)

/-- The variant of a name. -/
def caseOf {α : Type} (cases : List (String × Case α)) (name : String) : Reader (Case α) :=
  match cases.lookup name with
  | some c => pure c
  | none => refuse .malformed

/-- One of some variants. -/
def variant {α : Type} (cases : List (String × Case α)) : Reader α := do
  let b ← upcoming
  if b == ascii '"' then do
    let name ← string
    match ← caseOf cases name with
    | .unit a => pure a
    | .content _ => refuse .malformed
  else if b == ascii '\x7b' then do
    let _ ← next
    symbol '"'
    let name ← stringBody
    let found ← caseOf cases name
    symbol ':'
    let a ← match found with
      | .unit a => do
        null
        pure a
      | .content r => r
    symbol '\x7d'
    pure a
  else refuse .malformed

end ParamExchange.Json
