import CoinSpend.Sighash.Segwit
import CoinSpend.Taproot

/-!
The digest that a signature of an output key or of a script under it signs.

* `Sighash.taproot`: of the outputs spent with their amounts and scripts, the
  sequences and the outputs, each list through a digest of its own, of the
  position of the signed input, and of the leaf when a script is signed for.
-/

namespace CoinSpend

namespace Sighash

/-- The amounts of the outputs spent, in order. -/
def amountBytes (prevouts : List TxOut) : Bytes :=
  prevouts.flatMap fun output => Bytes.ofNatLE 8 output.value.toNat

/-- The scripts of the outputs spent, in order. -/
def scriptBytes (prevouts : List TxOut) : Bytes :=
  prevouts.flatMap fun output => sized output.script

/-- What is signed beside the transaction: nothing for a key, and for a script
the digest of its leaf, the version of the key, and no separator position. -/
def leafBytes : Option Bytes → Bytes
  | none => []
  | some leaf => leaf ++ [0, 0xff, 0xff, 0xff, 0xff]

/-- The spend type: two when a leaf is signed, without any annex. -/
def spendType (leaf : Option Bytes) : UInt8 :=
  if leaf.isSome then 2 else 0

/-- The message of the digest for the input `index`. -/
def taprootMessage (tx : Transaction) (index : Nat) (prevouts : List TxOut)
    (leaf : Option Bytes) : Bytes :=
  [0, 0] ++ tx.encodeVersion ++ tx.encodeLockTime ++
    sha256 (previousBytes tx) ++ sha256 (amountBytes prevouts) ++ sha256 (scriptBytes prevouts) ++
    sha256 (sequenceBytes tx) ++ sha256 (outputBytes tx) ++
    spendType leaf :: (Bytes.ofNatLE 4 index ++ leafBytes leaf)

/-- The digest for the input `index`. There has to be one output spent for
each input. -/
def taproot (tx : Transaction) (index : Nat) (prevouts : List TxOut) (leaf : Option Bytes) :
    Except TxError Bytes :=
  if prevouts.length = tx.inputs.length then
    .ok (taggedHash "TapSighash" (taprootMessage tx index prevouts leaf))
  else .error (.signing .previousOutputCount)

end Sighash

end CoinSpend
