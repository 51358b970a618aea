import CoinSpend.Draft.Legacy
import CoinSpend.IndexMap

/-!
Transactions that are signed elsewhere.

* `SigningRequest`: the transaction with room for every signature, as text,
  and the digest that each input has to sign.
* `Draft.signingRequest`: the request of a draft, given the public key for each
  position. No private key is needed.
-/

namespace CoinSpend

/-- A transaction with room for its signatures, as text, and the digest that
each input has to sign. -/
structure SigningRequest where
  txHex : String
  digests : IndexMap
  deriving DecidableEq

/-- The length of the longest DER form of a signature. -/
def maxSignatureLength : Nat :=
  72

/-- Zeros in place of the longest signature, and the key. -/
def reservedScriptSig (key : PublicKey) : Script :=
  Script.push (List.replicate maxSignatureLength 0 ++ [1]) ++ Script.push key.bytes

namespace Draft

/-- The output that the spend at a position refers to, with the public key
given for it. -/
def detachedSpend (draft : Draft) (keys : IndexMap) (index : Nat) (spend : Spend) :
    Except TxError (OutPoint × PublicKey) :=
  match keys.get? index with
  | none => .error (.keyCountMismatch keys.size draft.spends.length)
  | some text => do
    let key ← PublicKey.ofHex text
    return (spend.outpoint, key)

/-- The digests of the inputs from position `index` on, each for the hash of
its key. -/
def keyHashDigests (tx : Transaction) : Nat → List PublicKey → Except TxError (List Bytes)
  | _, [] => .ok []
  | index, key :: rest => do
    let digest ← Sighash.legacy tx index (Script.p2pkh key.hash)
    let others ← keyHashDigests tx (index + 1) rest
    return digest :: others

/-- The transaction with room for its signatures, and the digests. -/
def requestParts (draft : Draft) (keys : IndexMap) :
    Except TxError (Transaction × List Bytes) := do
  draft.requireParts
  let spends ← readSpends (draft.detachedSpend keys) 0 draft.spends
  let outputs ← draft.keptOutputs
  let tx := draft.transactionWith
    (spends.map fun s => finalInput s.1 (Script.p2pkh s.2.hash)) outputs
  let digests ← keyHashDigests tx 0 (spends.map Prod.snd)
  return (tx.withScriptSigs (spends.map fun s => reservedScriptSig s.2), digests)

/-- The transaction that has to be signed elsewhere. Each spend is expected to
pay to the hash of the public key given for its position. -/
def signingRequest (draft : Draft) (keys : IndexMap) : Metered SigningRequest := do
  let (tx, digests) ← draft.requestParts keys
  Metered.record [.built .requested]
  return ⟨tx.toHex, .ofValues (digests.map Hex.encode)⟩

end Draft

end CoinSpend
