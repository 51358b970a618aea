import CoinSpend.Transaction.CompactSize

/-!
The written form of transactions, and the identifiers made from it.

* `Transaction.encode`: the form with witnesses is used when some input has
  one, and also when there are no inputs, since the plain form would then be
  taken for it.
* `Transaction.encodeStripped`: the form without witnesses, whose digest is
  `Transaction.txid`. `Transaction.witnessTxid` is the digest of the full form.
* `Transaction.toHex`: the full form as text.
-/

namespace CoinSpend

/-- A byte string with its length in front. -/
def sized (b : Bytes) : Bytes :=
  CompactSize.encode b.length ++ b

/-- The written form of an output reference. -/
def OutPoint.encode (outpoint : OutPoint) : Bytes :=
  outpoint.txid.bytes ++ Bytes.ofNatLE 4 outpoint.vout.toNat

/-- The written form of an input, without its witness. -/
def TxIn.encode (input : TxIn) : Bytes :=
  input.previous.encode ++ sized input.scriptSig ++ Bytes.ofNatLE 4 input.sequence.toNat

/-- The written form of an output. -/
def TxOut.encode (output : TxOut) : Bytes :=
  Bytes.ofNatLE 8 output.value.toNat ++ sized output.script

/-- The written form of a witness. -/
def encodeWitness (witness : List Bytes) : Bytes :=
  CompactSize.encode witness.length ++ witness.flatMap sized

namespace Transaction

/-- The written form of all inputs, their number in front. -/
def encodeInputs (tx : Transaction) : Bytes :=
  CompactSize.encode tx.inputs.length ++ tx.inputs.flatMap TxIn.encode

/-- The written form of all outputs, their number in front. -/
def encodeOutputs (tx : Transaction) : Bytes :=
  CompactSize.encode tx.outputs.length ++ tx.outputs.flatMap TxOut.encode

/-- The first four bytes of every form. -/
def encodeVersion (tx : Transaction) : Bytes :=
  Bytes.ofNatLE 4 tx.version.toUInt32.toNat

/-- The last four bytes of every form. -/
def encodeLockTime (tx : Transaction) : Bytes :=
  Bytes.ofNatLE 4 tx.lockTime.toNat

/-- The form with witnesses is used. -/
def usesWitnessForm (tx : Transaction) : Bool :=
  tx.inputs.isEmpty || tx.inputs.any fun input => !input.witness.isEmpty

/-- The form without witnesses. -/
def encodeStripped (tx : Transaction) : Bytes :=
  tx.encodeVersion ++ tx.encodeInputs ++ tx.encodeOutputs ++ tx.encodeLockTime

/-- The written form of a transaction. -/
def encode (tx : Transaction) : Bytes :=
  if tx.usesWitnessForm then
    tx.encodeVersion ++ [0, 1] ++ tx.encodeInputs ++ tx.encodeOutputs ++
      tx.inputs.flatMap (fun input => encodeWitness input.witness) ++ tx.encodeLockTime
  else tx.encodeStripped

/-- The written form as text. -/
def toHex (tx : Transaction) : String :=
  Hex.encode tx.encode

/-- The identifier, which witnesses do not change. -/
def txid (tx : Transaction) : Txid :=
  .ofContent tx.encodeStripped

/-- The identifier of the full form. -/
def witnessTxid (tx : Transaction) : Txid :=
  .ofContent tx.encode

end Transaction

end CoinSpend
