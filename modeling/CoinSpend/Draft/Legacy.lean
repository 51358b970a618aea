import CoinSpend.Draft.Basic
import CoinSpend.Signing.Satisfaction

/-!
Signing a draft in the signature scripts alone.

* `Draft.legacyTransaction`: every input is signed for the hash of its key, or
  for the script that was spelled out for it, which is then shown. Amounts
  are not compared, and the address of a spend is not looked at.
* `Draft.signLegacy`: the text of this transaction, with its counter.
-/

namespace CoinSpend

namespace Draft

/-- What is known of one spend: the script that is signed for, and whether it
has to be shown. -/
structure LegacySpend where
  outpoint : OutPoint
  key : PrivateKey
  scriptCode : Script
  isShown : Bool

/-- Reads the key and finds the script of the spend at a position. -/
def legacySpend (draft : Draft) (index : Nat) (spend : Spend) : Except TxError LegacySpend := do
  let key ← spend.key draft.params index
  match spend.lock with
  | .script hex =>
    let script ← Script.ofHex hex
    return ⟨spend.outpoint, key, script, true⟩
  | .address _ => return ⟨spend.outpoint, key, Script.p2pkh key.publicKey.hash, false⟩

/-- The signature script of the spend at a position: signature and key, or an
empty push, the signature and the script that is signed for. -/
def legacyScriptSig (tx : Transaction) (index : Nat) (spend : LegacySpend) :
    Except TxError Script := do
  let digest ← Sighash.legacy tx index spend.scriptCode
  let signature ← pushSignature (spend.key.signDigest digest)
  if spend.isShown then
    let shown ← Script.pushOr (fun length => .scriptDecode (.pushTooLong length)) spend.scriptCode
    return Script.push [] ++ signature ++ shown
  return signature ++ Script.push spend.key.publicKey.bytes

/-- The signature scripts of the spends from position `index` on. -/
def legacyScriptSigs (tx : Transaction) : Nat → List LegacySpend → Except TxError (List Script)
  | _, [] => .ok []
  | index, spend :: rest => do
    let scriptSig ← legacyScriptSig tx index spend
    let others ← legacyScriptSigs tx (index + 1) rest
    return scriptSig :: others

/-- The transaction signed in its signature scripts. -/
def legacyTransaction (draft : Draft) : Except TxError Transaction := do
  draft.requireParts
  let spends ← readSpends draft.legacySpend 0 draft.spends
  let outputs ← draft.keptOutputs
  let tx := draft.transactionWith (spends.map fun s => finalInput s.outpoint s.scriptCode) outputs
  let scriptSigs ← legacyScriptSigs tx 0 spends
  return tx.withScriptSigs scriptSigs

/-- The text of the transaction signed in its signature scripts. -/
def signLegacy (draft : Draft) : Metered String := do
  let tx ← draft.legacyTransaction
  Metered.record [.built .legacy]
  return tx.toHex

end Draft

end CoinSpend
