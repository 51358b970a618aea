import CoinSpend.Curve.Der
import CoinSpend.Curve.Schnorr
import CoinSpend.Script.Instruction
import CoinSpend.Sighash.Taproot
import CoinSpend.Signing.SpendPath

/-!
What satisfies the script that locks an output.

* `Satisfaction`: what goes into the signature script and the witness of an
  input.
* `pushSignature`, `Satisfaction.redeemPush`: the pushes in signature scripts,
  which fail if the data are too long.
* `Satisfaction.ofPath`: the satisfaction of an input for a way of spending;
  its signature is over the digest that belongs to the way.
-/

namespace CoinSpend

/-- What satisfies the lock of an output. -/
structure Satisfaction where
  scriptSig : Script
  witness : List Bytes
  deriving DecidableEq

/-- A DER signature with the mark of a signature for all inputs and outputs. -/
def markedSignature (signature : Ecdsa.Signature) : Bytes :=
  Der.encode signature ++ [1]

/-- The signature of a digest by a key. -/
def PrivateKey.signDigest (key : PrivateKey) (digest : Bytes) : Ecdsa.Signature :=
  Ecdsa.signLowR key.secret.scalar digest

/-- The push of a signature with its mark. -/
def pushSignature (signature : Ecdsa.Signature) : Except TxError Script :=
  Script.pushOr (fun length => .signing (.pushTooLong length)) (markedSignature signature)

namespace Satisfaction

/-- Signature and key in the signature script. -/
def keyHash (tx : Transaction) (index : Nat) (key : PrivateKey) (prevout : TxOut) :
    Except TxError Satisfaction := do
  let digest ← Sighash.legacy tx index prevout.script
  let signature ← pushSignature (key.signDigest digest)
  return ⟨signature ++ Script.push key.publicKey.bytes, []⟩

/-- What shows a redeem script in the signature script. -/
def redeemPush : Option Script → Except TxError Script
  | none => .ok []
  | some script => Script.pushOr (fun length => .signing (.pushTooLong length)) script

/-- Signature and key in the witness. A redeem script is shown in the
signature script. -/
def witnessKeyHash (tx : Transaction) (index : Nat) (key : PrivateKey) (prevout : TxOut)
    (redeemScript : Option Script) : Except TxError Satisfaction := do
  if !key.compressed then throw (.signing .uncompressedKey)
  let publicKey := key.publicKey
  let digest ← Sighash.segwit tx index publicKey.hash prevout.value
  let signature := markedSignature (key.signDigest digest)
  let scriptSig ← redeemPush redeemScript
  return ⟨scriptSig, [signature, publicKey.bytes]⟩

/-- A signature by the output key. -/
def keyPath (tx : Transaction) (index : Nat) (key : PrivateKey) (prevouts : List TxOut) :
    Except TxError Satisfaction := do
  let digest ← Sighash.taproot tx index prevouts none
  return ⟨[], [Schnorr.sign key.commitScalar digest]⟩

/-- A signature for a script under the output key, the script, and the proof
that it is there. -/
def scriptPath (tx : Transaction) (index : Nat) (key : PrivateKey) (prevouts : List TxOut)
    (leafScript : Script) (controlBlock : ControlBlock) : Except TxError Satisfaction := do
  let digest ← Sighash.taproot tx index prevouts (some (Taproot.leafHash leafScript))
  return ⟨[], [Schnorr.sign key.secret.scalar digest, leafScript, controlBlock.encode]⟩

/-- The satisfaction of the input `index` in the given way. The outputs spent
are given by the positions of the inputs. -/
def ofPath (tx : Transaction) (index : Nat) (path : SpendPath) (key : PrivateKey)
    (prevouts : List TxOut) : Except TxError Satisfaction :=
  match prevouts[index]? with
  | none => .error (.signing (.noPreviousOutput index))
  | some prevout =>
    match path with
    | .p2pkh => keyHash tx index key prevout
    | .p2wpkh => witnessKeyHash tx index key prevout none
    | .p2shP2wpkh redeemScript => witnessKeyHash tx index key prevout (some redeemScript)
    | .taprootKeyPath => keyPath tx index key prevouts
    | .taprootScriptPath leafScript controlBlock =>
      scriptPath tx index key prevouts leafScript controlBlock

end Satisfaction

end CoinSpend
