/-
Quoted text for diagnostics: a text in double quotes in which every character that would not
show is written as an escape, and lists in square brackets.
-/
import ParamExchange.Text.Hidden

namespace ParamExchange.Text.Quoted

/-- The hexadecimal digits of a number, in lower case. -/
def hex (n : Nat) : List Char := Nat.toDigits 16 n

/-- One character between double quotes. -/
def character (c : Char) : List Char :=
  if c = '"' then ['\\', '"']
  else if c = '\\' then ['\\', '\\']
  else if c = '\n' then ['\\', 'n']
  else if c = '\r' then ['\\', 'r']
  else if c = '\t' then ['\\', 't']
  else if c = '\x00' then ['\\', '0']
  else if isHidden c then ['\\', 'u', '\x7b'] ++ hex c.toNat ++ ['\x7d']
  else [c]

/-- A text in double quotes. -/
def text (s : String) : String := String.ofList (['"'] ++ s.toList.flatMap character ++ ['"'])

/-- Written items between square brackets, a comma and a space between two of them. -/
def list (items : List String) : String := "[" ++ String.intercalate ", " items ++ "]"

end ParamExchange.Text.Quoted
