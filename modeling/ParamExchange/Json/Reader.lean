/-
Readers of JSON text: a reader takes the octets of one value off the front of a document and gives
what they mean. The text is read once, from left to right, so the first thing that is wrong
decides the fault: the document ends too early, or an octet stands where it may not stand.
-/
import ParamExchange.Text.Utf8

namespace ParamExchange.Json

open Text

/-! ## Readers -/

/-- What is wrong with a document: it ends inside of a value, or it is malformed. -/
inductive Fault
  | truncated
  | malformed
  deriving DecidableEq, Repr

/-- A reader of values of type `α`. -/
abbrev Reader (α : Type) := StateT (List UInt8) (Except Fault) α

/-- The reader that refuses every document. -/
def refuse {α : Type} (f : Fault) : Reader α := fun _ => .error f

/-- What is left of the document. -/
def remaining : Reader (List UInt8) := fun s => .ok (s, s)

/-- The octet of an ASCII character. -/
def ascii (c : Char) : UInt8 := UInt8.ofNat c.toNat

/-- The next octet. -/
def next : Reader UInt8
  | [] => .error .truncated
  | b :: s => .ok (b, s)

/-- The octets that satisfy `p`, as long as they stand at the front. -/
def takeWhile (p : UInt8 → Bool) : Reader (List UInt8) := fun s => .ok (s.takeWhile p, s.dropWhile p)

/-- The octets that may stand between the parts of a document. -/
def isSpace (b : UInt8) : Bool := b == 0x20 || b == 0x0A || b == 0x0D || b == 0x09

/-- The next octet that is no space; it stays in the document. -/
def upcoming : Reader UInt8 := fun s =>
  match s.dropWhile isSpace with
  | [] => .error .truncated
  | b :: s => .ok (b, b :: s)

/-- The octet `c` must come next. -/
def expect (c : Char) : Reader Unit := do
  let b ← next
  if b == ascii c then pure () else refuse .malformed

/-- The character `c` must be the next one that is no space. -/
def symbol (c : Char) : Reader Unit := do
  let _ ← upcoming
  expect c

/-- Characters that must come one after another. -/
def word : List Char → Reader Unit
  | [] => pure ()
  | c :: cs => do
    expect c
    word cs

/-! ## Strings -/

/-- The value of a hexadecimal digit. -/
def hexDigit? (b : UInt8) : Option Nat :=
  let n := b.toNat
  if 0x30 ≤ n && n ≤ 0x39 then some (n - 0x30)
  else if 0x41 ≤ n && n ≤ 0x46 then some (n - 0x37)
  else if 0x61 ≤ n && n ≤ 0x66 then some (n - 0x57)
  else none

/-- A number of four hexadecimal digits. -/
def fourDigits : Reader Nat
  | a :: b :: c :: d :: s =>
    match hexDigit? a, hexDigit? b, hexDigit? c, hexDigit? d with
    | some a, some b, some c, some d => .ok (a * 4096 + b * 256 + c * 16 + d, s)
    | _, _, _, _ => .error .malformed
  | _ => .error .truncated

/-- The letters that stand for a character after a backslash, and the octet of that character. -/
def escapes : List (Char × UInt8) :=
  [('"', 0x22), ('\\', 0x5C), ('/', 0x2F), ('b', 0x08), ('f', 0x0C), ('n', 0x0A), ('r', 0x0D),
   ('t', 0x09)]

/-- The octet that a letter after a backslash stands for. -/
def escaped? (b : UInt8) : Option UInt8 := (escapes.find? fun e => ascii e.1 == b).map (·.2)

/-- The character of a numeric escape, of which `u` was the last octet read. The two halves of a
surrogate pair must follow one another. -/
def codePoint : Reader (List UInt8) := do
  let n ← fourDigits
  if 0xDC00 ≤ n && n ≤ 0xDFFF then refuse .malformed
  else if n < 0xD800 || 0xDBFF < n then pure (String.utf8EncodeChar (Char.ofNat n))
  else
    expect '\\'
    expect 'u'
    let m ← fourDigits
    if m < 0xDC00 || 0xDFFF < m then refuse .malformed
    else pure (String.utf8EncodeChar (Char.ofNat (0x10000 + (n - 0xD800) * 0x400 + (m - 0xDC00))))

/-- The octets of the character whose escape begins after a backslash. -/
def escape : Reader (List UInt8) := do
  let b ← next
  if b == ascii 'u' then codePoint
  else
    match escaped? b with
    | some octet => pure [octet]
    | none => refuse .malformed

/-- The octets of a string up to its closing quote; `fuel` bounds their number. -/
def stringOctets : Nat → Reader (List UInt8)
  | 0 => refuse .truncated
  | fuel + 1 => do
    let b ← next
    if b == ascii '"' then pure []
    else if b == ascii '\\' then do
      let front ← escape
      let back ← stringOctets fuel
      pure (front ++ back)
    else if b < 0x20 then refuse .malformed
    else do
      let back ← stringOctets fuel
      pure (b :: back)

/-- A string whose opening quote has been read. -/
def stringBody : Reader String := do
  let s ← remaining
  let octets ← stringOctets (s.length + 1)
  match Utf8.decode octets with
  | .ok text => pure text
  | .error _ => refuse .malformed

/-! ## Numbers -/

/-- A number as documents write it: a word, a negated word of at most `2 ^ 63`, or a number of
double precision. -/
inductive Number
  | natural (n : UInt64)
  | negative (n : UInt64)
  | real (x : Float)

/-- Whether an octet is a decimal digit. -/
def isDigit (b : UInt8) : Bool := 0x30 ≤ b && b ≤ 0x39

/-- Appends digits to a number as long as it stays a word, and counts them. -/
def absorb (n : Nat) : List UInt8 → Nat × Nat
  | [] => (n, 0)
  | b :: bs =>
    let m := 10 * n + (b.toNat - 0x30)
    if m < UInt64.size then
      let (value, count) := absorb m bs
      (value, count + 1)
    else (n, 0)

/-- The number of double precision for `x * 10 ^ exponent`, reached by one multiplication or one
division for each 308 powers of ten; none if it is too large. -/
def scale (x : Float) (exponent : Int) : Nat → Option Float
  | 0 => some x
  | fuel + 1 =>
    if exponent.natAbs ≤ 308 then
      let power := Float.ofScientific 1 false exponent.natAbs
      if exponent < 0 then some (x / power)
      else
        let y := x * power
        if y.isInf then none else some y
    else if x == 0 then some x
    else if 0 < exponent then none
    else scale (x / Float.ofScientific 1 false 308) (exponent + 308) fuel

/-- The number `significand * 10 ^ exponent` with its sign. -/
def real (isNegative : Bool) (significand : Nat) (exponent : Int) : Reader Number :=
  match scale (UInt64.ofNat significand).toFloat exponent (exponent.natAbs + 1) with
  | some x => pure (.real (if isNegative then -x else x))
  | none => refuse .malformed

/-- The largest exponent whose digits are all looked at. -/
def exponentLimit : Nat := 0x80000000

/-- The exponent part of a number, of which the letter has been read. -/
def exponentPart (isNegative : Bool) (significand : Nat) (exponent : Int) : Reader Number := do
  let s ← remaining
  let isReduced ← match s.head? with
    | some b =>
      if b == ascii '+' then do
        let _ ← next
        pure false
      else if b == ascii '-' then do
        let _ ← next
        pure true
      else pure false
    | none => pure false
  let first ← next
  if !isDigit first then refuse .malformed
  else do
    let others ← takeWhile isDigit
    let value := (first :: others).foldl (fun v b => 10 * v + (b.toNat - 0x30)) 0
    if value < exponentLimit then
      real isNegative significand (if isReduced then exponent - value else exponent + value)
    else if significand != 0 && !isReduced then refuse .malformed
    else pure (.real (if isNegative then -0.0 else 0.0))

/-- The fraction of a number, of which the point has been read. -/
def fractionPart (isNegative : Bool) (significand : Nat) (exponent : Int) : Reader Number := do
  let first ← next
  if !isDigit first then refuse .malformed
  else do
    let others ← takeWhile isDigit
    let (significand, count) := absorb significand (first :: others)
    let s ← remaining
    if s.head? == some (ascii 'e') || s.head? == some (ascii 'E') then do
      let _ ← next
      exponentPart isNegative significand (exponent - count)
    else real isNegative significand (exponent - count)

/-- A number without a fraction and an exponent, all of whose digits fit a word. -/
def whole (isNegative : Bool) (n : Nat) : Number :=
  if !isNegative then .natural (UInt64.ofNat n)
  else if n = 0 || 0x8000000000000000 < n then .real (-(UInt64.ofNat n).toFloat)
  else .negative (UInt64.ofNat n)

/-- A number after its sign. Digits beyond the largest word only count as powers of ten. -/
def unsignedNumber (isNegative : Bool) : Reader Number := do
  let first ← next
  if !isDigit first then refuse .malformed
  else do
    let others ← takeWhile isDigit
    if first == ascii '0' && !others.isEmpty then refuse .malformed
    else do
      let (significand, count) := absorb 0 (first :: others)
      let dropped := others.length + 1 - count
      let s ← remaining
      if s.head? == some (ascii '.') then do
        let _ ← next
        fractionPart isNegative significand dropped
      else if s.head? == some (ascii 'e') || s.head? == some (ascii 'E') then do
        let _ ← next
        exponentPart isNegative significand dropped
      else if dropped = 0 then pure (whole isNegative significand)
      else real isNegative significand dropped

/-! ## Values of one type -/

/-- Refuses a value of another type than the one that is asked for. A number, a word or a string
that ends too early is a document that ends too early. -/
def wrongType {α : Type} : Reader α := do
  let b ← upcoming
  if b == ascii '-' then do
    let _ ← next
    let _ ← unsignedNumber true
  else if isDigit b then do
    let _ ← unsignedNumber false
  else if b == ascii '"' then do
    let _ ← next
    let _ ← stringBody
  else if b == ascii 'n' then word ['n', 'u', 'l', 'l']
  else if b == ascii 't' then word ['t', 'r', 'u', 'e']
  else if b == ascii 'f' then word ['f', 'a', 'l', 's', 'e']
  refuse .malformed

/-- A number. -/
def number : Reader Number := do
  let b ← upcoming
  if b == ascii '-' then do
    let _ ← next
    unsignedNumber true
  else if isDigit b then unsignedNumber false
  else wrongType

/-- A string. -/
def string : Reader String := do
  let b ← upcoming
  if b == ascii '"' then do
    let _ ← next
    stringBody
  else wrongType

/-- The value that stands for no value. -/
def null : Reader Unit := do
  let b ← upcoming
  if b == ascii 'n' then word ['n', 'u', 'l', 'l'] else wrongType

/-- A value, or none. -/
def optional {α : Type} (r : Reader α) : Reader (Option α) := do
  let b ← upcoming
  if b == ascii 'n' then do
    word ['n', 'u', 'l', 'l']
    pure none
  else do
    let a ← r
    pure (some a)

/-! ## Documents -/

/-- The value of a whole document: spaces may stand around it and nothing else. -/
def parse {α : Type} (r : Reader α) (s : List UInt8) : Except Fault α :=
  match r s with
  | .error f => .error f
  | .ok (a, rest) => if rest.all isSpace then .ok a else .error .malformed

end ParamExchange.Json
