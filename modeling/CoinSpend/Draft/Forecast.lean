import CoinSpend.Draft.Request
import CoinSpend.Signing.Attach

/-!
Drafts whose spends all belong to one key.

* `Draft.forecastSize`: the size that the transaction has with the longest
  signatures.
* `Draft.signWithOneKey`: the request of the draft is answered with the key
  itself, and the signatures are put in.
-/

namespace CoinSpend

/-- The signature of a digest, both as text. The digest has to have 32 bytes. -/
def signHexDigest (key : PrivateKey) (digest : String) : Except TxError String :=
  match (Hex.decodeMarked digest).toOption.filter (·.length == 32) with
  | none => .error (.signing (.badDigest digest))
  | some b => .ok (Hex.encode (Der.encode (key.signDigest b)))

/-- The signatures of digests, all as text. -/
def signHexDigests (key : PrivateKey) (digests : List String) : Except TxError (List String) :=
  digests.mapM (signHexDigest key)

namespace Draft

/-- The same public key for every spend. -/
def repeatedKey (draft : Draft) (key : PublicKey) : IndexMap :=
  .ofValues (List.replicate draft.spends.length key.text)

/-- The size that the transaction will at most have once every input is signed
with the short form of a key. -/
def forecastSize (draft : Draft) (privateKey : String) : Metered Nat := do
  let key ← PrivateKey.ofText privateKey draft.params
  let request ← draft.signingRequest (draft.repeatedKey key.inShortForm.publicKey)
  Transaction.sizeOfHex request.txHex

/-- The transaction with every input signed with the short form of a key, as
text, and its identifier. -/
def signWithOneKey (draft : Draft) (privateKey : String) : Metered (String × Txid) := do
  let key ← PrivateKey.ofText privateKey draft.params
  let key := key.inShortForm
  let publicKey := key.publicKey
  let request ← draft.signingRequest (draft.repeatedKey publicKey)
  let signatures ← signHexDigests key request.digests.values
  let publicKeys := signatures.map fun _ => publicKey.text
  let rawTx ← attachSignatures request.txHex publicKeys signatures true
  let txid ← Transaction.idOfHex rawTx
  return (rawTx, txid)

end Draft

end CoinSpend
