/-
Parameter keys: a role and an index, under the name that they were given. A name is a role token
with a decimal index, either after an underscore (`w_3`) or at once (`w3`). Both spellings name
different parameters, so a key keeps its name.
-/
import ParamExchange.Text.Decimal

namespace ParamExchange

open Text

/-! ## Roles -/

/-- What a parameter is for: a trained weight or bias, or the accumulator of its momentum. -/
inductive Role
  | weight
  | bias
  | weightMomentum
  | biasMomentum
  deriving DecidableEq, Repr

namespace Role

/-- Every role. -/
def all : List Role := [weight, bias, weightMomentum, biasMomentum]

/-- The token that stands for a role in names. -/
def token : Role → String
  | weight => "w"
  | bias => "b"
  | weightMomentum => "wd"
  | biasMomentum => "bd"

/-- The role that a token stands for. -/
def ofToken? (token : String) : Option Role := all.find? fun r => r.token == token

/-- Whether a role is that of an accumulator. -/
def isMomentum : Role → Bool
  | weight => false
  | bias => false
  | weightMomentum => true
  | biasMomentum => true

/-- The accumulator of a trained parameter, and the trained parameter of an accumulator. -/
def partner : Role → Role
  | weight => weightMomentum
  | bias => biasMomentum
  | weightMomentum => weight
  | biasMomentum => bias

/-- A number for each role, from which seeds are made. -/
def number : Role → UInt64
  | weight => 1
  | bias => 2
  | weightMomentum => 3
  | biasMomentum => 4

end Role

/-! ## Keys -/

/-- Why a name is not the name of a parameter. -/
inductive KeyError
  | unknownRole (name token : String)
  | malformedIndex (name : String)
  deriving DecidableEq, Repr

/-- The diagnostic of a key error. -/
def KeyError.message : KeyError → String
  | .unknownRole name token => s!"unknown role token `{token}` in parameter key `{name}`"
  | .malformedIndex name => s!"parameter key `{name}` has a missing or invalid index"

/-- A parameter key. -/
structure Key where
  name : String
  role : Role
  index : UInt64
  deriving DecidableEq, Repr

namespace Key

/-- The key of a role and an index under its usual name, with an underscore. -/
def ofRole (role : Role) (index : UInt64) : Key :=
  ⟨role.token ++ "_" ++ Decimal.text index.toNat, role, index⟩

/-- The two parts of a name: what stands before and after the first underscore or, without an
underscore, before the first digit and from it on. -/
def parts (name : List Char) : List Char × List Char :=
  if name.contains '_' then
    (name.takeWhile (· != '_'), (name.dropWhile (· != '_')).drop 1)
  else
    (name.takeWhile (!·.isDigit), name.dropWhile (!·.isDigit))

/-- The key of a name. An unknown role is reported before a malformed index. -/
def ofName (name : String) : Except KeyError Key :=
  let (token, index) := parts name.toList
  match Role.ofToken? (String.ofList token) with
  | none => .error (.unknownRole name (String.ofList token))
  | some role =>
    match Decimal.readWord? index with
    | none => .error (.malformedIndex name)
    | some i => .ok ⟨name, role, i⟩

/-- The key of the partner role at the same index. Its name has an underscore if and only if the
key's name has one. -/
def partner (key : Key) : Key :=
  let separator := if key.name.toList.contains '_' then "_" else ""
  ⟨key.role.partner.token ++ separator ++ Decimal.text key.index.toNat, key.role.partner, key.index⟩

end Key

end ParamExchange
