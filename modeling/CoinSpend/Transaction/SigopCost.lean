import CoinSpend.Script.Sigops
import CoinSpend.Transaction.Size

/-!
The cost of the signature checks of a transaction.

* `Transaction.sigopCost`: checks outside witnesses count four times, checks
  of witness programs once. The scripts of the outputs spent have to be known
  unless the transaction creates coins.
* `Transaction.effectiveSize`: the larger of virtual size and cost, which is
  what fees are paid for.
-/

namespace CoinSpend

/-- The locking scripts of some outputs. -/
abbrev ScriptView := OutPoint.Table Script

/-- The checks of a witness program of version zero; other versions have
none. -/
def programSigops (program : Script) (witness : List Bytes) : Nat :=
  if program.witnessVersion? = some 0 then
    if program.length = 22 then 1
    else if program.length = 34 then
      match witness.getLast? with
      | some witnessScript => Script.sigops true witnessScript
      | none => 0
    else 0
  else 0

/-- The checks of the script that a signature script reveals. -/
def redeemSigops (scriptSig : Script) : Nat :=
  match scriptSig.redeemScript? with
  | some redeem => Script.sigops true redeem
  | none => 0

/-- The checks of the witness program that an input spends, directly or under
a script hash. -/
def witnessSigops (scriptSig prevScript : Script) (witness : List Bytes) : Nat :=
  if prevScript.isWitnessProgram then programSigops prevScript witness
  else if prevScript.isP2sh then
    match scriptSig.redeemScript? with
    | some redeem => if redeem.isWitnessProgram then programSigops redeem witness else 0
    | none => 0
  else 0

/-- The cost of an input that spends an output locked by `prevScript`. -/
def TxIn.sigopCost (input : TxIn) (prevScript : Script) : Nat :=
  (if prevScript.isP2sh then redeemSigops input.scriptSig * witnessScale else 0) +
    witnessSigops input.scriptSig prevScript input.witness

namespace Transaction

/-- The checks in all signature scripts and locking scripts themselves. -/
def legacySigops (tx : Transaction) : Nat :=
  sumOf (fun input => Script.sigops false input.scriptSig) tx.inputs +
    sumOf (fun output => Script.sigops false output.script) tx.outputs

/-- The costs of the inputs from position `index` on. -/
def inputCosts (view : ScriptView) : Nat → List TxIn → Except TxError Nat
  | _, [] => .ok 0
  | index, input :: rest =>
    match view.get? input.previous with
    | none => .error (.missingPrevOut input.previous index)
    | some script => do
      let cost ← inputCosts view (index + 1) rest
      return input.sigopCost script + cost

/-- The cost of all signature checks. -/
def sigopCost (tx : Transaction) (view : ScriptView) (isCoinbase : Bool) : Except TxError Nat :=
  if isCoinbase then .ok (tx.legacySigops * witnessScale)
  else do
    let cost ← inputCosts view 0 tx.inputs
    return tx.legacySigops * witnessScale + cost

/-- The larger of virtual size and cost of signature checks. Nothing is known
of the outputs spent where the view is empty, and the virtual size decides. -/
def effectiveSize (tx : Transaction) (view : ScriptView) : Except TxError Nat :=
  if view.isEmpty then .ok tx.virtualSize
  else do
    let cost ← tx.sigopCost view false
    return max tx.virtualSize cost

end Transaction

end CoinSpend
