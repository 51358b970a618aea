import CoinSpend.Event
import CoinSpend.Script.Basic
import CoinSpend.Taproot

/-!
The ways of spending an output.

* `SpendPath`: a way, with what a signer has to know for it beside the key.
* `SpendPath.ofScript`: the way in which a key spends the output with a given
  locking script: by the template of the script, or, under a script hash, if
  the script hidden there is the witness program of the key itself.
-/

namespace CoinSpend

/-- A way of spending an output. -/
inductive SpendPath where
  | p2pkh
  | p2wpkh
  | p2shP2wpkh (redeemScript : Script)
  | taprootKeyPath
  | taprootScriptPath (leafScript : Script) (controlBlock : ControlBlock)
  deriving DecidableEq

namespace SpendPath

/-- The way without its particulars. -/
def lockKind : SpendPath → LockKind
  | .p2pkh => .p2pkh
  | .p2wpkh => .p2wpkh
  | .p2shP2wpkh _ => .p2shP2wpkh
  | .taprootKeyPath => .taprootKeyPath
  | .taprootScriptPath .. => .taprootScriptPath

/-- The witness program of a key. -/
def ownProgram (key : PrivateKey) : Script :=
  Script.p2wpkh key.inShortForm.publicKey.hash

/-- The witness program of a key, if `script` hides it under its hash. Only a
public key in the short form has one. -/
def ownRedeemScript? (script : Script) (key : PrivateKey) : Option Script :=
  if Script.isP2sh script && key.compressed then
    let program := ownProgram key
    if Script.p2sh (hash160 program) = script then some program else none
  else none

/-- The way in which a key spends an output locked by `script`. -/
def ofScript (script : Script) (key : PrivateKey) (input : Nat) : Except TxError SpendPath :=
  if Script.isP2tr script then .ok .taprootKeyPath
  else if Script.isP2pkh script then .ok .p2pkh
  else if Script.isP2wpkh script then .ok .p2wpkh
  else
    match ownRedeemScript? script key with
    | some redeemScript => .ok (.p2shP2wpkh redeemScript)
    | none => .error (.unsupportedScriptType input script)

end SpendPath

end CoinSpend
