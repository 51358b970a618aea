import CoinSpend.Transaction.Encode

/-!
The digest that a signature outside witnesses signs.

* `Sighash.legacy`: of the transaction with all signature scripts empty but
  the signed one, which holds the script code. Witnesses play no part.
-/

namespace CoinSpend

namespace Sighash

/-- The kind of a signature for all inputs and outputs. -/
def signAll : Nat :=
  1

/-- The input at a position as it is signed for the position `index`. -/
def blankInput (index : Nat) (scriptCode : Script) (position : Nat) (input : TxIn) : TxIn :=
  { input with scriptSig := if position = index then scriptCode else [] }

/-- The transaction as it is signed for the input `index`. -/
def blank (tx : Transaction) (index : Nat) (scriptCode : Script) : Transaction :=
  { tx with inputs := tx.inputs.mapIdx (blankInput index scriptCode) }

/-- The digest for the input `index`. -/
def legacy (tx : Transaction) (index : Nat) (scriptCode : Script) : Except TxError Bytes :=
  if index < tx.inputs.length then
    .ok (doubleSha256 ((blank tx index scriptCode).encodeStripped ++ Bytes.ofNatLE 4 signAll))
  else .error (.signing .noLegacySpend)

end Sighash

end CoinSpend
