import CoinSpend.Signing.Satisfaction
import CoinSpend.Transaction.Decode

/-!
Signatures from elsewhere.

* `Transaction.attached`: a transaction given as text, with a signature and a
  key put into the signature script of each input. The numbers of a signature
  are written again in their shortest form, and nothing is verified.
* `attachSignatures`: the text of this transaction, with its counter.
-/

namespace CoinSpend

/-- The signature that a hexadecimal text stands for. -/
def readSignature (text : String) : Except TxError Ecdsa.Signature :=
  match Hex.decodeMarked text with
  | .error fault => .error (.signing (.hex fault))
  | .ok der =>
    match Der.decode? der with
    | none => .error (.signing .malformedSignature)
    | some signature => .ok signature

/-- The signature script of a signature and a key, both given as text. The key
is pushed in the form told. -/
def attachedScriptSig (compressed : Bool) (signature publicKey : String) :
    Except TxError Script := do
  let signature ← readSignature signature
  let key ← PublicKey.ofHex publicKey
  let keyPush ← Script.pushOr (fun length => .invalidPublicKey (.pushTooLong length))
    { key with compressed := compressed }.bytes
  let signaturePush ← pushSignature signature
  return signaturePush ++ keyPush

/-- The signature scripts for signatures and keys in order. -/
def attachedScriptSigs (compressed : Bool) :
    List (String × String) → Except TxError (List Script)
  | [] => .ok []
  | (signature, publicKey) :: rest => do
    let scriptSig ← attachedScriptSig compressed signature publicKey
    let others ← attachedScriptSigs compressed rest
    return scriptSig :: others

/-- The transaction with a signature and a key put into each input. -/
def Transaction.attached (rawTx : String) (publicKeys signatures : List String)
    (compressed : Bool) : Except TxError Transaction := do
  let tx ← Transaction.ofHex rawTx
  if signatures.length ≠ tx.inputs.length then
    throw (.signatureCountMismatch signatures.length tx.inputs.length)
  if publicKeys.length ≠ tx.inputs.length then
    throw (.keyCountMismatch publicKeys.length tx.inputs.length)
  let scriptSigs ← attachedScriptSigs compressed (signatures.zip publicKeys)
  return tx.withScriptSigs scriptSigs

/-- The text of the transaction with a signature and a key put into each
input, the keys in the short form or, if told so, in the long one. -/
def attachSignatures (rawTx : String) (publicKeys signatures : List String) (compressed : Bool) :
    Metered String := do
  let tx ← Transaction.attached rawTx publicKeys signatures compressed
  Metered.record [.built .attached]
  return tx.toHex

end CoinSpend
