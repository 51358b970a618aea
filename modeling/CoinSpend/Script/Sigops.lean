import CoinSpend.Script.Instruction

/-!
Signature operations of one script.

* `Script.sigops`: the number of signature checks in a script, where a check
  of several signatures counts as twenty or, when counted precisely, as the
  number pushed just before it.
* `Script.redeemScript?`: the script that a push-only script reveals last.
-/

namespace CoinSpend

namespace Script

/-- The count so far, and the small number pushed by the operation before. -/
structure SigopCount where
  count : Nat
  number : Option Nat

/-- The number from one to sixteen that an operation pushes. -/
def smallNumber? (code : UInt8) : Option Nat :=
  if Op.one ≤ code ∧ code ≤ 0x60 then some (code.toNat - 0x50) else none

/-- Counts one more instruction. -/
def SigopCount.add (precise : Bool) (c : SigopCount) : Instruction → SigopCount
  | .push _ => { c with number := none }
  | .op code =>
    if code = Op.checkSig ∨ code = Op.checkSigVerify then { c with count := c.count + 1 }
    else if code = Op.checkMultiSig ∨ code = Op.checkMultiSigVerify then
      { c with count := c.count + if precise then c.number.getD 20 else 20 }
    else { c with number := smallNumber? code }

/-- The signature checks in the instructions before any push that is cut
off. -/
def sigops (precise : Bool) (script : Script) : Nat :=
  (script.scan.1.foldl (SigopCount.add precise) ⟨0, none⟩).count

/-- The data that an instruction pushes. -/
def pushed? : Instruction → Option Bytes
  | .push data => some data
  | .op _ => none

/-- The data pushed last by a complete script of data pushes only. -/
def redeemScript? (script : Script) : Option Script := do
  let instructions ← script.instructions?
  let pushes ← instructions.mapM pushed?
  pushes.getLast?

end Script

end CoinSpend
