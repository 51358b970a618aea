import CoinSpend.Draft.Request
import CoinSpend.Json.Record

/-!
Spends, payments and signing requests in documents.

* A lock is an object with one field, whose name says what the text in it is.
* The digests of a signing request are an object whose names are the positions
  of the inputs, written as numbers.
-/

namespace CoinSpend

open JsonForm (toJson ofJson?)

/-- The lock with a kind and a text. -/
def Lock.ofKind? (kind text : String) : Option Lock :=
  match kind with
  | "address" => some (.address text)
  | "script" => some (.script text)
  | _ => none

instance : JsonForm Lock where
  toJson
    | .address text => Json.ofFields [("address", toJson text)]
    | .script hex => Json.ofFields [("script", toJson hex)]
  ofJson?
    | .obj [(kind, text)] => do
      let kind ← Json.literalText? kind
      let text ← ofJson? text
      Lock.ofKind? kind text
    | _ => none

namespace Spend

/-- The fields of a spend. -/
def spec : List (String × Presence) :=
  [("txid", .required), ("vout", .required), ("amount", .required), ("source", .required),
   ("private_key", .defaulted)]

/-- A spend from the values of its fields. -/
def ofValues? : List (Option Json) → Option Spend
  | [txid, vout, amount, lock, privateKey] => do
    let txid ← Json.required? txid
    let vout ← Json.required? vout
    let amount ← Json.required? amount
    let lock ← Json.required? lock
    let privateKey ← Json.withDefault? none privateKey
    return ⟨txid, vout, amount, lock, privateKey⟩
  | _ => none

instance : JsonForm Spend where
  toJson spend := Json.ofFields
    [("txid", toJson spend.txid), ("vout", toJson spend.vout), ("amount", toJson spend.amount),
     ("source", toJson spend.lock), ("private_key", toJson spend.privateKey)]
  ofJson? json := (Json.record? spec json).bind ofValues?

end Spend

namespace Payment

/-- The fields of a payment. -/
def spec : List (String × Presence) :=
  [("destination", .required), ("amount", .required), ("is_change", .defaulted)]

/-- A payment from the values of its fields. -/
def ofValues? : List (Option Json) → Option Payment
  | [lock, amount, isChange] => do
    let lock ← Json.required? lock
    let amount ← Json.required? amount
    let isChange ← Json.withDefault? false isChange
    return ⟨lock, amount, isChange⟩
  | _ => none

instance : JsonForm Payment where
  toJson payment := Json.ofFields
    [("destination", toJson payment.lock), ("amount", toJson payment.amount),
     ("is_change", toJson payment.isChange)]
  ofJson? json := (Json.record? spec json).bind ofValues?

end Payment

namespace IndexMap

/-- The position that a name stands for: a whole number, written as numbers
are in documents. -/
def index? (name : List Char) : Option UInt64 := do
  let (number, rest) ← Json.takeNumber? name
  if rest.isEmpty then ofJson? (.num number) else none

/-- An entry from a field. -/
def entry? (field : List Char × Json) : Option (UInt64 × String) := do
  let index ← index? field.1
  let text ← ofJson? field.2
  return (index, text)

instance : JsonForm IndexMap where
  toJson map := .obj (map.entries.map fun (index, text) =>
    ((toString index.toNat).toList, toJson text))
  ofJson?
    | .obj fields => (fields.mapM entry?).map ofList
    | _ => none

end IndexMap

namespace SigningRequest

/-- The fields of a signing request. -/
def spec : List (String × Presence) :=
  [("tx_hex", .required), ("sighashes", .required)]

/-- A signing request from the values of its fields. -/
def ofValues? : List (Option Json) → Option SigningRequest
  | [txHex, digests] => do
    let txHex ← Json.required? txHex
    let digests ← Json.required? digests
    return ⟨txHex, digests⟩
  | _ => none

instance : JsonForm SigningRequest where
  toJson request := Json.ofFields
    [("tx_hex", toJson request.txHex), ("sighashes", toJson request.digests)]
  ofJson? json := (Json.record? spec json).bind ofValues?

end SigningRequest

end CoinSpend
