import CoinSpend.Transaction.Encode

/-!
Sizes of transactions, by counting rather than by writing them.

* `Transaction.baseSize`, `Transaction.totalSize`: the number of bytes of the
  form without witnesses and of the form that is used.
* `Transaction.weight`, `Transaction.virtualSize`: witness bytes count once and
  all other bytes four times; a quarter of that, rounded up.
-/

namespace CoinSpend

/-- How many times as much other bytes count as witness bytes. -/
def witnessScale : Nat :=
  4

/-- The size of a byte string with its length in front. -/
def sizedSize (b : Bytes) : Nat :=
  CompactSize.size b.length + b.length

/-- The size of an input without its witness. -/
def TxIn.baseSize (input : TxIn) : Nat :=
  36 + sizedSize input.scriptSig + 4

/-- The size of an output. -/
def TxOut.size (output : TxOut) : Nat :=
  8 + sizedSize output.script

/-- The size of a witness. -/
def witnessSize (witness : List Bytes) : Nat :=
  CompactSize.size witness.length + sumOf sizedSize witness

namespace Transaction

/-- The size without marker, flag and witnesses. -/
def baseSize (tx : Transaction) : Nat :=
  4 + CompactSize.size tx.inputs.length + sumOf TxIn.baseSize tx.inputs +
    CompactSize.size tx.outputs.length + sumOf TxOut.size tx.outputs + 4

/-- The size of the written form. -/
def totalSize (tx : Transaction) : Nat :=
  if tx.usesWitnessForm then
    tx.baseSize + 2 + sumOf (fun input => witnessSize input.witness) tx.inputs
  else tx.baseSize

/-- The size in which witness bytes count once and others four times. -/
def weight (tx : Transaction) : Nat :=
  tx.baseSize * (witnessScale - 1) + tx.totalSize

/-- A quarter of the weight, rounded up. -/
def virtualSize (tx : Transaction) : Nat :=
  (tx.weight + witnessScale - 1) / witnessScale

end Transaction

end CoinSpend
