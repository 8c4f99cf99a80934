/-
Writers of JSON text. In strings only the quote, the backslash and control characters are
escaped, so everything else is written as its octets.
-/
import ParamExchange.Json.Reader
import ParamExchange.Text.Decimal

namespace ParamExchange.Json

open Text

/-- The octets of ASCII characters. -/
def octets (s : String) : List UInt8 := s.toList.map ascii

/-- The octet of a hexadecimal digit, in lower case. -/
def hexOctet (n : Nat) : UInt8 := UInt8.ofNat (if n < 10 then 0x30 + n else 0x57 + n)

/-- One octet of a string. Control characters without a letter of their own are written with four
hexadecimal digits. -/
def writeOctet (b : UInt8) : List UInt8 :=
  if b = 0x22 then octets "\\\""
  else if b = 0x5C then octets "\\\\"
  else if b = 0x08 then octets "\\b"
  else if b = 0x09 then octets "\\t"
  else if b = 0x0A then octets "\\n"
  else if b = 0x0C then octets "\\f"
  else if b = 0x0D then octets "\\r"
  else if b < 0x20 then octets "\\u00" ++ [hexOctet (b.toNat / 16), hexOctet (b.toNat % 16)]
  else [b]

/-- A string. -/
def writeString (s : String) : List UInt8 :=
  [ascii '"'] ++ (Utf8.encode s).flatMap writeOctet ++ [ascii '"']

/-- A natural number. -/
def writeNat (n : Nat) : List UInt8 := (Decimal.digits n).map ascii

/-- The members of an object, separated by commas. -/
def writeMembers : List (String × List UInt8) → List UInt8
  | [] => []
  | [m] => writeString m.1 ++ [ascii ':'] ++ m.2
  | m :: rest => writeString m.1 ++ [ascii ':'] ++ m.2 ++ [ascii ','] ++ writeMembers rest

/-- An object with the given members. -/
def writeObject (ms : List (String × List UInt8)) : List UInt8 :=
  [ascii '\x7b'] ++ writeMembers ms ++ [ascii '\x7d']

end ParamExchange.Json
