import CoinSpend.Inscription.Inscribe
import CoinSpend.Json.Record

/-!
Inscriptions in documents.

* Bodies are hexadecimal text, and amounts are numbers of units.
* In a request the value of reveal outputs and the least change may be left
  out.
-/

namespace CoinSpend

open JsonForm (toJson ofJson?)

namespace FundingOutput

/-- The fields of a paying output. -/
def spec : List (String × Presence) :=
  [("txid", .required), ("vout", .required), ("amount", .required), ("address", .required),
   ("private_key", .required)]

/-- A paying output from the values of its fields. -/
def ofValues? : List (Option Json) → Option FundingOutput
  | [txid, vout, amount, address, privateKey] => do
    let txid ← Json.required? txid
    let vout ← Json.required? vout
    let amount ← Json.required? amount
    let address ← Json.required? address
    let privateKey ← Json.required? privateKey
    return ⟨txid, vout, amount, address, privateKey⟩
  | _ => none

instance : JsonForm FundingOutput where
  toJson output := Json.ofFields
    [("txid", toJson output.txid), ("vout", toJson output.vout), ("amount", toJson output.amount),
     ("address", toJson output.address), ("private_key", toJson output.privateKey)]
  ofJson? json := (Json.record? spec json).bind ofValues?

end FundingOutput

namespace Inscription

/-- The fields of an inscription. -/
def spec : List (String × Presence) :=
  [("content_type", .required), ("body", .required), ("reveal_address", .required)]

/-- An inscription from the values of its fields. -/
def ofValues? : List (Option Json) → Option Inscription
  | [contentType, body, receiver] => do
    let contentType ← Json.required? contentType
    let body ← body.bind Json.bytes?
    let receiver ← Json.required? receiver
    return ⟨contentType, body, receiver⟩
  | _ => none

instance : JsonForm Inscription where
  toJson inscription := Json.ofFields
    [("content_type", toJson inscription.contentType), ("body", Json.ofBytes inscription.body),
     ("reveal_address", toJson inscription.receiver)]
  ofJson? json := (Json.record? spec json).bind ofValues?

end Inscription

namespace InscriptionRequest

/-- The fields of a request. -/
def spec : List (String × Presence) :=
  [("commit_prev_outputs", .required), ("commit_fee_rate", .required),
   ("reveal_fee_rate", .required), ("inscriptions", .required), ("reveal_out_value", .defaulted),
   ("change_address", .required), ("min_change_value", .defaulted)]

/-- A request from the values of its fields. -/
def ofValues? : List (Option Json) → Option InscriptionRequest
  | [funding, commitFeeRate, revealFeeRate, inscriptions, revealValue, changeAddress,
      minChange] => do
    let funding ← Json.required? funding
    let commitFeeRate ← Json.required? commitFeeRate
    let revealFeeRate ← Json.required? revealFeeRate
    let inscriptions ← Json.required? inscriptions
    let revealValue ← Json.withDefault? none revealValue
    let changeAddress ← Json.required? changeAddress
    let minChange ← Json.withDefault? none minChange
    return ⟨funding, commitFeeRate, revealFeeRate, inscriptions, revealValue, changeAddress,
      minChange⟩
  | _ => none

instance : JsonForm InscriptionRequest where
  toJson request := Json.ofFields
    [("commit_prev_outputs", toJson request.funding),
     ("commit_fee_rate", toJson request.commitFeeRate),
     ("reveal_fee_rate", toJson request.revealFeeRate),
     ("inscriptions", toJson request.inscriptions),
     ("reveal_out_value", toJson request.revealValue),
     ("change_address", toJson request.changeAddress),
     ("min_change_value", toJson request.minChange)]
  ofJson? json := (Json.record? spec json).bind ofValues?

end InscriptionRequest

namespace InscriptionReceipt

/-- The fields of a receipt. -/
def spec : List (String × Presence) :=
  [("commit_tx", .required), ("reveal_txs", .required), ("commit_tx_fee", .required),
   ("reveal_tx_fees", .required), ("commit_addresses", .required)]

/-- A receipt from the values of its fields. -/
def ofValues? : List (Option Json) → Option InscriptionReceipt
  | [commitTx, revealTxs, commitFee, revealFees, addresses] => do
    let commitTx ← Json.required? commitTx
    let revealTxs ← Json.required? revealTxs
    let commitFee ← Json.required? commitFee
    let revealFees ← Json.required? revealFees
    let addresses ← Json.required? addresses
    return ⟨commitTx, revealTxs, commitFee, revealFees, addresses⟩
  | _ => none

instance : JsonForm InscriptionReceipt where
  toJson receipt := Json.ofFields
    [("commit_tx", toJson receipt.commitTx), ("reveal_txs", toJson receipt.revealTxs),
     ("commit_tx_fee", toJson receipt.commitFee), ("reveal_tx_fees", toJson receipt.revealFees),
     ("commit_addresses", toJson receipt.addresses)]
  ofJson? json := (Json.record? spec json).bind ofValues?

end InscriptionReceipt

end CoinSpend
