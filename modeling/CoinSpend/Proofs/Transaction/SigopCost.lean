import CoinSpend.Proofs.Outcome
import CoinSpend.Proofs.Script.Scan
import CoinSpend.Proofs.Sum
import CoinSpend.Transaction.SigopCost

/-!
The cost of the signature checks, by what is spent.

* `TxIn.sigopCost_of_isP2pkh`, `TxIn.sigopCost_of_isP2tr`: the hash of a key outside
  witnesses and an output key cost nothing to spend.
* `TxIn.sigopCost_of_isP2wpkh`, `TxIn.sigopCost_of_reveals`: the hash of a key in a witness
  costs one check, also under a script hash.
* `Transaction.inputCosts_eq_ok`, `Transaction.sigopCost_of_inputCosts`,
  `Transaction.effectiveSize_of_sigopCost`: the cost of the checks and what is paid for,
  if the scripts that the inputs open are known.
-/

namespace CoinSpend

/-! ### Inputs -/

/-- The one check of a program that is the hash of a key. -/
lemma programSigops_of_isP2wpkh {program : Script} (h : program.isP2wpkh) (witness : List Bytes) :
    programSigops program witness = 1 := by
  obtain ⟨keyHash, hlength, rfl⟩ := Script.isP2wpkh_iff.mp h
  rw [programSigops, if_pos (Script.witnessVersion?_p2wpkh hlength),
    if_pos (Script.length_of_isP2wpkh h)]

namespace TxIn

variable {prevScript program : Script}

/-- Where no script hash is spent, only the checks of a witness program count. -/
lemma sigopCost_of_length_ne (h : prevScript.length ≠ 23) (input : TxIn) :
    input.sigopCost prevScript
      = if prevScript.isWitnessProgram then programSigops prevScript input.witness else 0 := by
  have hsh : ¬prevScript.isP2sh := fun hsh => h (Script.length_of_isP2sh hsh)
  rw [sigopCost, if_neg hsh, Nat.zero_add, witnessSigops, if_neg hsh]

/-- Nothing is checked where the hash of a key is spent. -/
lemma sigopCost_of_isP2pkh (h : prevScript.isP2pkh) (input : TxIn) :
    input.sigopCost prevScript = 0 := by
  rw [sigopCost_of_length_ne (by rw [Script.length_of_isP2pkh h]; decide),
    if_neg (Script.not_isWitnessProgram_of_isP2pkh h)]

/-- No check is counted where an output key is spent. -/
lemma sigopCost_of_isP2tr (h : prevScript.isP2tr) (input : TxIn) :
    input.sigopCost prevScript = 0 := by
  have hprogram : programSigops prevScript input.witness = 0 := by
    obtain ⟨outputKey, hlength, rfl⟩ := Script.isP2tr_iff.mp h
    rw [programSigops, Script.witnessVersion?_p2tr hlength, if_neg (by decide)]
  rw [sigopCost_of_length_ne (by rw [Script.length_of_isP2tr h]; decide), hprogram, ite_self]

/-- The check of the hash of a key in a witness program. -/
lemma sigopCost_of_isP2wpkh (h : prevScript.isP2wpkh) (input : TxIn) :
    input.sigopCost prevScript = 1 := by
  rw [sigopCost_of_length_ne (by rw [Script.length_of_isP2wpkh h]; decide),
    if_pos (Script.isWitnessProgram_of_isP2wpkh h), programSigops_of_isP2wpkh h]

/-- The check of such a program under a script hash. The revealed program checks nothing
by itself. -/
lemma sigopCost_of_reveals {input : TxIn} (hsh : prevScript.isP2sh)
    (hreads : Script.Reads input.scriptSig ([program].map .push)) (hprogram : program.isP2wpkh) :
    input.sigopCost prevScript = 1 := by
  have hredeem : Script.redeemScript? input.scriptSig = some program :=
    Script.redeemScript?_of_pushes hreads
  have hredeemSigops : redeemSigops input.scriptSig = 0 := by
    obtain ⟨keyHash, hlength, rfl⟩ := Script.isP2wpkh_iff.mp hprogram
    simp only [redeemSigops, hredeem]
    exact Script.sigops_witnessProgram (Nat.zero_le 16) (by rw [hlength]; decide)
  have hwitness : witnessSigops input.scriptSig prevScript input.witness = 1 := by
    simp only [witnessSigops, if_neg (Script.not_isWitnessProgram_of_isP2sh hsh), if_pos hsh,
      hredeem, if_pos (Script.isWitnessProgram_of_isP2wpkh hprogram),
      programSigops_of_isP2wpkh hprogram]
  rw [sigopCost, if_pos hsh, hredeemSigops, hwitness, Nat.zero_mul]

end TxIn

/-! ### Transactions -/

namespace Transaction

variable {tx : Transaction}

/-- The costs of inputs add up if the scripts that they open are known. -/
lemma inputCosts_eq_ok {view : ScriptView} {cost : TxIn → ℕ} {index : ℕ} {inputs : List TxIn}
    (h : ∀ input ∈ inputs, ∃ script, view.get? input.previous = some script ∧
      input.sigopCost script = cost input) :
    inputCosts view index inputs = .ok (sumOf cost inputs) := by
  induction inputs generalizing index with
  | nil => rfl
  | cons input rest ih =>
      obtain ⟨script, hscript, hcost⟩ := h input List.mem_cons_self
      have hrest : inputCosts view (index + 1) rest = .ok (sumOf cost rest) :=
        ih fun other hother => h other (List.mem_cons_of_mem _ hother)
      simp only [inputCosts, hscript, hrest, hcost]
      rfl

/-- A transaction that spends output keys only costs the checks that its own
scripts hold. -/
lemma inputCosts_of_isP2tr {view : ScriptView} {index : ℕ} {inputs : List TxIn}
    (h : ∀ input ∈ inputs, ∃ script, view.get? input.previous = some script ∧ script.isP2tr) :
    inputCosts view index inputs = .ok 0 := by
  have hcosts : inputCosts view index inputs = .ok (sumOf (fun _ => 0) inputs) := by
    refine inputCosts_eq_ok fun input hinput => ?_
    obtain ⟨script, hscript, htr⟩ := h input hinput
    exact ⟨script, hscript, TxIn.sigopCost_of_isP2tr htr input⟩
  rw [hcosts, sumOf_eq_mul fun _ _ => rfl, Nat.zero_mul]

/-- To the costs of the inputs comes that of the checks in the transaction's own
scripts. -/
lemma sigopCost_of_inputCosts {view : ScriptView} {cost : ℕ}
    (h : inputCosts view 0 tx.inputs = .ok cost) :
    tx.sigopCost view false = .ok (tx.legacySigops * witnessScale + cost) := by
  rw [sigopCost, if_neg Bool.false_ne_true, bind_of_eq_ok h]
  rfl

/-- What is paid for is the larger of size and cost if some script is known. -/
lemma effectiveSize_of_sigopCost {view : ScriptView} (hview : view ≠ []) {cost : ℕ}
    (h : tx.sigopCost view false = .ok cost) :
    tx.effectiveSize view = .ok (max tx.virtualSize cost) := by
  rw [effectiveSize, if_neg (mt List.isEmpty_iff.mp hview), bind_of_eq_ok h]
  rfl

/-- What is paid for is the virtual size, if only the checks in the scripts of the
transaction itself cost anything, and these cost less than its bytes. -/
lemma effectiveSize_of_le {view : ScriptView} (hinputs : inputCosts view 0 tx.inputs = .ok 0)
    (hcost : tx.legacySigops * witnessScale ≤ tx.virtualSize) :
    tx.effectiveSize view = .ok tx.virtualSize := by
  by_cases hview : view = []
  · rw [effectiveSize, if_pos (List.isEmpty_iff.mpr hview)]
  · rw [effectiveSize_of_sigopCost hview (sigopCost_of_inputCosts hinputs), Nat.add_zero,
      Nat.max_eq_left hcost]

/-- Signature scripts that check nothing leave the checks in the outputs. -/
lemma legacySigops_of_silent (h : ∀ input ∈ tx.inputs, Script.sigops false input.scriptSig = 0) :
    tx.legacySigops = sumOf (fun output => Script.sigops false output.script) tx.outputs := by
  rw [legacySigops, sumOf_eq_mul h, Nat.zero_mul, Nat.zero_add]

/-- So do empty signature scripts. -/
lemma legacySigops_of_bare (h : ∀ input ∈ tx.inputs, input.scriptSig = []) :
    tx.legacySigops = sumOf (fun output => Script.sigops false output.script) tx.outputs := by
  refine legacySigops_of_silent fun input hinput => ?_
  rw [h input hinput, Script.sigops_nil]

end Transaction

end CoinSpend
