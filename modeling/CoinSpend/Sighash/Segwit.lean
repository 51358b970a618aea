import CoinSpend.Script.Basic
import CoinSpend.Sighash.Legacy

/-!
The digest that a signature of a witness program of version zero signs.

* `Sighash.segwit`: of the outputs spent, the sequences and the outputs, each
  list through a digest of its own, and of the signed input with its amount.
-/

namespace CoinSpend

namespace Sighash

/-- The references of all inputs, in order. -/
def previousBytes (tx : Transaction) : Bytes :=
  tx.inputs.flatMap fun input => input.previous.encode

/-- The sequences of all inputs, in order. -/
def sequenceBytes (tx : Transaction) : Bytes :=
  tx.inputs.flatMap fun input => Bytes.ofNatLE 4 input.sequence.toNat

/-- The written forms of all outputs, in order. -/
def outputBytes (tx : Transaction) : Bytes :=
  tx.outputs.flatMap TxOut.encode

/-- The digest for the input `index`, which spends `value` locked for the
holder of the key with hash `keyHash`. -/
def segwit (tx : Transaction) (index : Nat) (keyHash : Bytes) (value : Amount) :
    Except TxError Bytes :=
  match tx.inputs[index]? with
  | none => .error (.signing .noSegwitInput)
  | some input =>
    .ok (doubleSha256 (tx.encodeVersion ++
      doubleSha256 (previousBytes tx) ++ doubleSha256 (sequenceBytes tx) ++
      input.previous.encode ++ sized (Script.p2pkh keyHash) ++
      Bytes.ofNatLE 8 value.toNat ++ Bytes.ofNatLE 4 input.sequence.toNat ++
      doubleSha256 (outputBytes tx) ++ tx.encodeLockTime ++ Bytes.ofNatLE 4 signAll))

end Sighash

end CoinSpend
