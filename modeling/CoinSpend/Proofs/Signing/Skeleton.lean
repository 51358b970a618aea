import CoinSpend.Proofs.Outcome
import CoinSpend.Signing.Transaction

/-!
What signing writes is not seen by what is signed.

* `Transaction.skeleton`: a transaction without signature scripts and
  witnesses.
* `Sighash.legacy_skeleton`, `Sighash.segwit_skeleton`,
  `Sighash.taproot_skeleton`: each of the three digests is that of the
  skeleton.
* `Satisfaction.ofPath_skeleton`: hence so is the satisfaction of an input in
  any way, and `Satisfaction.ofPath_congr` carries it over to another
  transaction with the same skeleton.
* `Transaction.skeleton_satisfy`, `Transaction.skeleton_withScriptSigs`: putting
  satisfactions or signature scripts in keeps the skeleton.
-/

namespace CoinSpend

/-! ### Skeletons -/

/-- The input without what unlocks it. -/
def TxIn.bare (input : TxIn) : TxIn :=
  { input with scriptSig := [], witness := [] }

@[simp] lemma TxIn.bare_satisfy (input : TxIn) (satisfaction : Satisfaction) :
    (input.satisfy satisfaction).bare = input.bare := rfl

/-- The transaction with nothing unlocked. -/
def Transaction.skeleton (tx : Transaction) : Transaction :=
  { tx with inputs := tx.inputs.map TxIn.bare }

lemma Transaction.length_skeleton (tx : Transaction) :
    tx.skeleton.inputs.length = tx.inputs.length :=
  List.length_map TxIn.bare

/-- Satisfactions for all inputs leave the skeleton as it is. -/
lemma Transaction.skeleton_satisfy {tx : Transaction} {satisfactions : List Satisfaction}
    (h : tx.inputs.length ≤ satisfactions.length) :
    (tx.satisfy satisfactions).skeleton = tx.skeleton := by
  have hinputs : (List.zipWith TxIn.satisfy tx.inputs satisfactions).map TxIn.bare
      = tx.inputs.map TxIn.bare := by
    refine List.ext_getElem (by simp [h]) fun i h₁ h₂ => ?_
    simp
  rw [skeleton, satisfy, hinputs, skeleton]

/-- So do signature scripts for all inputs. -/
lemma Transaction.skeleton_withScriptSigs {tx : Transaction} {scriptSigs : List Script}
    (h : tx.inputs.length ≤ scriptSigs.length) :
    (tx.withScriptSigs scriptSigs).skeleton = tx.skeleton := by
  have hinputs : (tx.withScriptSigs scriptSigs).inputs.map TxIn.bare = tx.inputs.map TxIn.bare := by
    refine List.ext_getElem (by simp [withScriptSigs, h]) fun i h₁ h₂ => ?_
    simp [withScriptSigs, TxIn.bare]
  rw [skeleton, hinputs]
  rfl

/-- Without witnesses a transaction with given signature scripts is made out of
its skeleton. -/
lemma Transaction.withScriptSigs_skeleton {tx : Transaction}
    (h : ∀ input ∈ tx.inputs, input.witness = []) (scriptSigs : List Script) :
    tx.skeleton.withScriptSigs scriptSigs = tx.withScriptSigs scriptSigs := by
  have hinputs : (tx.skeleton.withScriptSigs scriptSigs).inputs
      = (tx.withScriptSigs scriptSigs).inputs := by
    refine List.ext_getElem (by simp [withScriptSigs, skeleton]) fun i h₁ h₂ => ?_
    have hi : i < tx.inputs.length := by
      simp only [withScriptSigs, List.length_zipWith] at h₂
      omega
    simp [withScriptSigs, skeleton, TxIn.bare, h tx.inputs[i] (List.getElem_mem hi)]
  exact congrArg (Transaction.mk tx.version tx.lockTime · tx.outputs) hinputs

namespace Sighash

/-! ### The digests -/

lemma previousBytes_skeleton (tx : Transaction) :
    previousBytes tx.skeleton = previousBytes tx := by
  rw [previousBytes, Transaction.skeleton, List.flatMap_map]
  rfl

lemma sequenceBytes_skeleton (tx : Transaction) :
    sequenceBytes tx.skeleton = sequenceBytes tx := by
  rw [sequenceBytes, Transaction.skeleton, List.flatMap_map]
  rfl

/-- Two inputs that are signed for one position are written alike when they
differ only in what unlocks them. -/
lemma encode_blankInput_bare (index : Nat) (scriptCode : Script) (position : Nat) (input : TxIn) :
    (blankInput index scriptCode position input.bare).encode
      = (blankInput index scriptCode position input).encode := rfl

/-- What is signed for a position is written like that of the skeleton. -/
lemma encodeStripped_blank_skeleton (tx : Transaction) (index : Nat) (scriptCode : Script) :
    (blank tx.skeleton index scriptCode).encodeStripped
      = (blank tx index scriptCode).encodeStripped := by
  have hinputs : (blank tx.skeleton index scriptCode).inputs.flatMap TxIn.encode
      = (blank tx index scriptCode).inputs.flatMap TxIn.encode := by
    rw [List.flatMap_def, List.flatMap_def]
    congr 1
    refine List.ext_getElem (by simp [blank, Transaction.skeleton]) fun i h₁ h₂ => ?_
    simp [blank, Transaction.skeleton, encode_blankInput_bare]
  have hlength : (blank tx.skeleton index scriptCode).inputs.length
      = (blank tx index scriptCode).inputs.length := by
    simp [blank, Transaction.skeleton]
  simp only [Transaction.encodeStripped, Transaction.encodeInputs, hinputs, hlength]
  rfl

/-- The digest outside witnesses is that of the skeleton. -/
lemma legacy_skeleton (tx : Transaction) (index : Nat) (scriptCode : Script) :
    legacy tx.skeleton index scriptCode = legacy tx index scriptCode := by
  rw [legacy, legacy, encodeStripped_blank_skeleton, Transaction.length_skeleton]

/-- The digest of witness programs of version zero is that of the skeleton. -/
lemma segwit_skeleton (tx : Transaction) (index : Nat) (keyHash : Bytes) (value : Amount) :
    segwit tx.skeleton index keyHash value = segwit tx index keyHash value := by
  have hinput : tx.skeleton.inputs[index]? = tx.inputs[index]?.map TxIn.bare := by
    simp [Transaction.skeleton]
  rw [segwit, hinput, segwit, previousBytes_skeleton, sequenceBytes_skeleton]
  cases tx.inputs[index]? with
  | none => rfl
  | some input => rfl

lemma taprootMessage_skeleton (tx : Transaction) (index : Nat) (prevouts : List TxOut)
    (leaf : Option Bytes) :
    taprootMessage tx.skeleton index prevouts leaf = taprootMessage tx index prevouts leaf := by
  rw [taprootMessage, taprootMessage, previousBytes_skeleton, sequenceBytes_skeleton]
  rfl

/-- The digest of output keys is that of the skeleton. -/
lemma taproot_skeleton (tx : Transaction) (index : Nat) (prevouts : List TxOut)
    (leaf : Option Bytes) :
    taproot tx.skeleton index prevouts leaf = taproot tx index prevouts leaf := by
  rw [taproot, taproot, taprootMessage_skeleton, Transaction.length_skeleton]

end Sighash

namespace Satisfaction

/-! ### Satisfactions -/

/-- The satisfaction of an input is that of the skeleton. -/
lemma ofPath_skeleton (tx : Transaction) (index : Nat) (path : SpendPath) (key : PrivateKey)
    (prevouts : List TxOut) :
    ofPath tx.skeleton index path key prevouts = ofPath tx index path key prevouts := by
  cases path <;>
    simp only [ofPath, keyHash, witnessKeyHash, keyPath, scriptPath, Sighash.legacy_skeleton,
      Sighash.segwit_skeleton, Sighash.taproot_skeleton]

/-- Transactions with one skeleton have the same satisfactions. -/
lemma ofPath_congr {tx other : Transaction} (h : tx.skeleton = other.skeleton) (index : Nat)
    (path : SpendPath) (key : PrivateKey) (prevouts : List TxOut) :
    ofPath tx index path key prevouts = ofPath other index path key prevouts := by
  rw [← ofPath_skeleton tx, h, ofPath_skeleton other]

end Satisfaction

end CoinSpend
