import CoinSpend.Config

/-!
Settings from the environment.

* `Environment.load`: each variable with the prefix sets the field that the
  rest of its name spells, in any case. Variables with other names are passed
  over. The first variable that cannot be used decides how it fails.
* `Environment.readNumber`: the decimal numbers that a value may hold, with the
  first thing that is wrong with one that may not.
-/

namespace CoinSpend

namespace Environment

/-- What is wrong with the text of a number. -/
inductive NumberFault where
  | empty
  | invalidDigit
  | tooLarge
  | tooSmall
  deriving Repr, DecidableEq

/-- The wording of a number fault. -/
def NumberFault.message : NumberFault → String
  | .empty => "cannot parse integer from empty string"
  | .invalidDigit => "invalid digit found in string"
  | .tooLarge => "number too large to fit in target type"
  | .tooSmall => "number too small to fit in target type"

/-- Why settings cannot be loaded. -/
inductive Fault where
  | badNumber (fault : NumberFault) (value name : String)
  | duplicateField (field : String)
  deriving Repr, DecidableEq

/-- The wording of a fault. -/
def Fault.message : Fault → String
  | .badNumber fault value name =>
    s!"Cannot load config <utxo_tx_builder>: {fault.message} " ++
      s!"while parsing value '{value}' provided by {name}"
  | .duplicateField field =>
    s!"Cannot load config <utxo_tx_builder>: duplicate field " ++ "\x60" ++ field ++ "\x60"

/-- Goes on with a number by its next digits, upwards or downwards, as long as
it stays between `low` and `high`. -/
def accumulate (low high : Int) (downwards : Bool) : Int → List Char → Except NumberFault Int
  | n, [] => .ok n
  | n, c :: rest =>
    if '0' ≤ c ∧ c ≤ '9' then
      let d : Int := c.toNat - 48
      let next := if downwards then 10 * n - d else 10 * n + d
      if next < low then .error .tooSmall
      else if high < next then .error .tooLarge
      else accumulate low high downwards next rest
    else .error .invalidDigit

/-- The whole number between `low` and `high` that a text is. A sign needs a
digit after it, and a minus sign is a sign only if there are numbers below
zero. -/
def readNumber (low high : Int) (text : String) : Except NumberFault Int :=
  match text.toList with
  | [] => .error .empty
  | '+' :: c :: rest => accumulate low high false 0 (c :: rest)
  | '-' :: c :: rest =>
    if low < 0 then accumulate low high true 0 (c :: rest) else .error .invalidDigit
  | digits => accumulate low high false 0 digits

/-- The prefix of the names of variables. -/
def namePrefix : List Char :=
  "UTXO_TX_BUILDER_".toList

/-- The name without the prefix, as often as it stands in front. -/
def stripPrefixes : Nat → List Char → List Char
  | 0, name => name
  | n + 1, name =>
    if namePrefix.isPrefixOf name then stripPrefixes n (name.drop namePrefix.length) else name

/-- The lower-case form of a character, as far as it is an ASCII one. Beside
ASCII letters only the sign for kelvin has one. -/
def lowerChar (c : Char) : Char :=
  if c = Char.ofNat 0x212a then 'k' else c.toLower

/-- The rest of the name of a variable with the prefix. -/
def fieldName? (name : String) : Option String :=
  if namePrefix.isPrefixOf name.toList then
    some (String.ofList (stripPrefixes name.length name.toList))
  else none

/-- The fields read so far. -/
structure Fields where
  network : Option String
  txVersion : Option Int32
  dustFloor : Option Amount
  revealOutValue : Option Amount
  minChangeValue : Option Amount

/-- A 32-bit number with a sign. -/
def readVersion (value name : String) : Except Fault Int32 :=
  match readNumber (-0x80000000) 0x7fffffff value with
  | .ok n => .ok (Int32.ofInt n)
  | .error fault => .error (.badNumber fault value name)

/-- An amount. -/
def readAmount (value name : String) : Except Fault Amount :=
  match readNumber 0 0xffffffffffffffff value with
  | .ok n => .ok (UInt64.ofNat n.toNat)
  | .error fault => .error (.badNumber fault value name)

/-- Fails if a field is there already. -/
def ensureNew {α : Type} (field : String) (value : Option α) : Except Fault Unit :=
  if value.isSome then .error (.duplicateField field) else .ok ()

/-- Takes in a value under the rest of a variable's name. -/
def Fields.set (fields : Fields) (name value : String) : Except Fault Fields :=
  match String.ofList (name.toList.map lowerChar) with
  | "network" => do
    ensureNew "network" fields.network
    return { fields with network := some value }
  | "tx_version" => do
    ensureNew "tx_version" fields.txVersion
    return { fields with txVersion := some (← readVersion value name) }
  | "dust_floor" => do
    ensureNew "dust_floor" fields.dustFloor
    return { fields with dustFloor := some (← readAmount value name) }
  | "reveal_out_value" => do
    ensureNew "reveal_out_value" fields.revealOutValue
    return { fields with revealOutValue := some (← readAmount value name) }
  | "min_change_value" => do
    ensureNew "min_change_value" fields.minChangeValue
    return { fields with minChangeValue := some (← readAmount value name) }
  | _ => .ok fields

/-- Takes in variables in their order. -/
def readFields : Fields → List (String × String) → Except Fault Fields
  | fields, [] => .ok fields
  | fields, (name, value) :: rest =>
    match fieldName? name with
    | none => readFields fields rest
    | some field => do
      let fields ← fields.set field value
      readFields fields rest

/-- The settings in an environment. -/
def load (settings : List (String × String)) : Except Fault Config := do
  let fields ← readFields ⟨none, none, none, none, none⟩ settings
  return ⟨fields.network.getD Config.defaultNetwork, fields.txVersion, fields.dustFloor,
    fields.revealOutValue, fields.minChangeValue⟩

/-- Sets a variable. One that is there already keeps its place. -/
def setVariable (name value : String) : List (String × String) → List (String × String)
  | [] => [(name, value)]
  | entry :: rest =>
    if entry.1 = name then (name, value) :: rest else entry :: setVariable name value rest

end Environment

end CoinSpend
