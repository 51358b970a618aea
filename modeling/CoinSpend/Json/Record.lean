import CoinSpend.Amount
import CoinSpend.Json.Parser
import CoinSpend.Json.Printer
import CoinSpend.Transaction.Basic

/-!
Values in JSON documents.

* `JsonForm`: a type whose values are written as documents and read back.
* `Json.record?`: the fields of a record, from an object, where their order
  does not matter and unknown fields are passed over, or from an array in
  their order. `Presence` says whether a field may be left out: an optional
  one in an object, a defaulted one also at the end of an array.
* Instances for texts, numbers, truth values, lists and optional values.
-/

namespace CoinSpend

/-- A type with a form in documents. -/
class JsonForm (α : Type) where
  toJson : α → Json
  ofJson? : Json → Option α

/-- The value that the text of a document stands for. -/
def JsonForm.read? {α : Type} [JsonForm α] (text : String) : Option α :=
  (Json.parse? text).bind ofJson?

/-- The text of a value. -/
def JsonForm.write {α : Type} [JsonForm α] (value : α) : String :=
  (toJson value).render

open JsonForm (toJson ofJson?)

/-! ### Simple values -/

instance : JsonForm String where
  toJson := Json.ofText
  ofJson?
    | .str literal => Json.literalText? literal
    | _ => none

instance : JsonForm Bool where
  toJson := .bool
  ofJson?
    | .bool b => some b
    | _ => none

/-- The natural number below `bound` that a document is. -/
def Json.natBelow? (bound : Nat) : Json → Option Nat
  | .num literal =>
    match Json.int? literal with
    | some (.ofNat n) => if n < bound then some n else none
    | _ => none
  | _ => none

instance : JsonForm UInt64 where
  toJson a := Json.ofNat a.toNat
  ofJson? json := (json.natBelow? UInt64.size).map UInt64.ofNat

instance : JsonForm UInt32 where
  toJson a := Json.ofNat a.toNat
  ofJson? json := (json.natBelow? UInt32.size).map UInt32.ofNat

instance : JsonForm Int32 where
  toJson a := Json.ofInt a.toInt
  ofJson?
    | .num literal =>
      match Json.int? literal with
      | some n => if -0x80000000 ≤ n ∧ n ≤ 0x7fffffff then some (Int32.ofInt n) else none
      | none => none
    | _ => none

instance {α : Type} [JsonForm α] : JsonForm (Option α) where
  toJson
    | none => .null
    | some a => toJson a
  ofJson?
    | .null => some none
    | json => (ofJson? json).map some

instance {α : Type} [JsonForm α] : JsonForm (List α) where
  toJson items := .arr (items.map toJson)
  ofJson?
    | .arr items => items.mapM ofJson?
    | _ => none

instance : JsonForm Txid where
  toJson txid := Json.ofText txid.text
  ofJson? json := (ofJson? json).bind Txid.ofText?

/-- A byte string as hexadecimal text. -/
def Json.ofBytes (b : Bytes) : Json :=
  .ofText (Hex.encode b)

/-- The byte string that a document holds as hexadecimal text. -/
def Json.bytes? (json : Json) : Option Bytes :=
  match (ofJson? json : Option String) with
  | some text => (Hex.decode text).toOption
  | none => none

/-! ### Records -/

/-- Whether a field of a record may be left out. -/
inductive Presence where
  | required
  | optional
  | defaulted
  deriving Repr, DecidableEq

namespace Json

/-- The fields of an object with their names read. -/
def namedFields? (fields : List (List Char × Json)) : Option (List (String × Json)) :=
  fields.mapM fun (name, value) => (literalText? name).map (·, value)

/-- The value of a field, which occurs at most once, and has to if it is
required. -/
def fieldValue? (fields : List (String × Json)) (name : String) (presence : Presence) :
    Option (Option Json) :=
  match fields.filter (·.1 == name) with
  | [] => if presence = .required then none else some none
  | [(_, value)] => some (some value)
  | _ => none

/-- The values of fields that are given in their order. Only defaulted ones at
the end may be missing. -/
def inOrder? : List (String × Presence) → List Json → Option (List (Option Json))
  | [], [] => some []
  | [], _ :: _ => none
  | (_, presence) :: spec, [] =>
    if presence = .defaulted then (inOrder? spec []).map (none :: ·) else none
  | _ :: spec, value :: values => (inOrder? spec values).map (some value :: ·)

/-- The values of the fields of a record, in the order of its specification. -/
def record? (spec : List (String × Presence)) : Json → Option (List (Option Json))
  | .obj fields => do
    let fields ← namedFields? fields
    spec.mapM fun (name, presence) => fieldValue? fields name presence
  | .arr values => inOrder? spec values
  | _ => none

/-- The value of a field that is there. -/
def required? {α : Type} [JsonForm α] (value : Option Json) : Option α :=
  value.bind ofJson?

/-- The value of a field, or the default for it. -/
def withDefault? {α : Type} [JsonForm α] (default : α) : Option Json → Option α
  | none => some default
  | some value => ofJson? value

/-- An object with the given fields. -/
def ofFields (fields : List (String × Json)) : Json :=
  .obj (fields.map fun (name, value) => field name value)

end Json

end CoinSpend
