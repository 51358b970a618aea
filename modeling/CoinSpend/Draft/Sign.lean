import CoinSpend.Draft.Basic
import CoinSpend.Signing.Transaction

/-!
Signing a draft with the keys of its spends.

* `Draft.prepare`: the transaction before it is signed, whose outputs may not
  be worth more than the spends.
* `Draft.sign`: the transaction with every input signed as its lock asks for.
-/

namespace CoinSpend

namespace Draft

/-- What is known of one spend: the output it refers to and its key. -/
structure KeyedSpend where
  outpoint : OutPoint
  output : TxOut
  key : PrivateKey

/-- Finds the script and reads the key of the spend at a position. -/
def keyedSpend (draft : Draft) (index : Nat) (spend : Spend) : Except TxError KeyedSpend := do
  let script ← spend.lock.toScript draft.params
  let key ← spend.key draft.params index
  return ⟨spend.outpoint, ⟨spend.amount, script⟩, key⟩

/-- The transaction before it is signed, and what its inputs spend. -/
def prepare (draft : Draft) : Except TxError (Transaction × List KeyedSpend) := do
  draft.requireParts
  let spends ← readSpends draft.keyedSpend 0 draft.spends
  let outputs ← draft.keptOutputs
  let totalIn ← draft.spendTotal
  let totalOut ← Amount.checkedTotal (outputs.map TxOut.value)
  if totalIn < totalOut then throw (.insufficientBalance totalIn totalOut 0)
  return (draft.transactionWith (spends.map fun s => finalInput s.outpoint []) outputs, spends)

/-- The outputs that spends refer to, looked up by reference. -/
def lookup (spends : List KeyedSpend) : Lookup :=
  OutPoint.Table.get? (spends.map fun s => (s.outpoint, s.output))

/-- The signed transaction. -/
def sign (draft : Draft) : Metered Transaction := do
  let (tx, spends) ← draft.prepare
  let signed ← tx.sign (spends.map KeyedSpend.key) (lookup spends)
  Metered.record [.built .signed]
  return signed

end Draft

end CoinSpend
