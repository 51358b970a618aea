import CoinSpend.Proofs.Transaction.SigopCost

/-!
Sizes of transactions that spend one output, or output keys.

* `Transaction.weight_of_lone`: the weight of a transaction with one input that has a
  witness.
* `Transaction.HoldsKeySignatures`: every input holds one signature of 64 bytes
  and nothing else.
* `Transaction.weight_of_holds`: the weight of such a transaction follows from
  the number of its inputs and the size of its outputs.
* `Transaction.virtualSize_congr`, `Transaction.virtualSize_le`: hence amounts and
  signatures do not change its virtual size, and fewer outputs do not enlarge it.
* `Transaction.effectiveSize_of_holds`: the checks of such signatures cost nothing,
  and next to no checks in the outputs cost less than the bytes.
-/

namespace CoinSpend

/-! ### Counts -/

/-- A byte string with its length in front has the counted size. -/
lemma length_sized (b : Bytes) : (sized b).length = sizedSize b := by
  rw [sized, List.length_append, CompactSize.length_encode, sizedSize]

/-- The written form of a witness has the counted size. -/
lemma length_encodeWitness (witness : List Bytes) :
    (encodeWitness witness).length = witnessSize witness := by
  rw [encodeWitness, List.length_append, CompactSize.length_encode,
    length_flatMap_eq length_sized, witnessSize]

/-- A larger count does not take fewer bytes. -/
lemma CompactSize.size_le_size {m n : ℕ} (h : m ≤ n) : size m ≤ size n := by
  unfold size
  split_ifs <;> omega

namespace Transaction

/-! ### The outputs -/

/-- The size of a list of outputs with its length in front. -/
def outputsSize (outputs : List TxOut) : ℕ :=
  CompactSize.size outputs.length + sumOf TxOut.size outputs

/-- The size of outputs is read off their scripts. -/
lemma outputsSize_congr {outputs others : List TxOut}
    (h : outputs.map TxOut.script = others.map TxOut.script) :
    outputsSize outputs = outputsSize others := by
  have hlength : outputs.length = others.length := by
    simpa using congrArg List.length h
  have hsize (xs : List TxOut) :
      sumOf TxOut.size xs = sumOf (fun script => 8 + sizedSize script) (xs.map TxOut.script) := by
    rw [sumOf_map]
    rfl
  rw [outputsSize, outputsSize, hlength, hsize outputs, hsize others, h]

/-- More outputs do not take fewer bytes. -/
lemma outputsSize_le_append (outputs more : List TxOut) :
    outputsSize outputs ≤ outputsSize (outputs ++ more) := by
  have hcount : CompactSize.size outputs.length ≤ CompactSize.size (outputs ++ more).length :=
    CompactSize.size_le_size (by simp)
  rw [outputsSize, outputsSize, sumOf_append]
  omega

/-! ### A lone input -/

/-- The one witness counts once, with marker and flag, and all other bytes four times. -/
lemma weight_of_lone {tx : Transaction} {input : TxIn} (hinput : tx.inputs = [input])
    (hwitness : input.witness ≠ []) :
    tx.weight = 4 * tx.baseSize + 2 + witnessSize input.witness := by
  have hform : tx.usesWitnessForm = true := by
    simp [usesWitnessForm, hinput, hwitness]
  rw [weight, totalSize, if_pos hform, hinput, witnessScale]
  simp only [sumOf]
  omega

/-! ### Inputs that hold a signature by an output key -/

/-- Every input holds one signature by an output key and nothing else. -/
def HoldsKeySignatures (tx : Transaction) : Prop :=
  ∀ input ∈ tx.inputs, input.scriptSig = [] ∧
    ∃ signature : Bytes, signature.length = 64 ∧ input.witness = [signature]

variable {tx other : Transaction}

/-- An input without a signature script takes 41 bytes. -/
lemma baseSize_of_holds (h : HoldsKeySignatures tx) :
    tx.baseSize = 8 + CompactSize.size tx.inputs.length + 41 * tx.inputs.length
      + outputsSize tx.outputs := by
  have hinput : ∀ input ∈ tx.inputs, input.baseSize = 41 := by
    intro input hinput
    rw [TxIn.baseSize, (h input hinput).1]
    rfl
  rw [baseSize, sumOf_eq_mul hinput, outputsSize]
  omega

/-- A witness that is one signature takes 66 bytes. -/
lemma totalSize_of_holds (h : HoldsKeySignatures tx) :
    tx.totalSize = tx.baseSize + 2 + 66 * tx.inputs.length := by
  have hwitness : ∀ input ∈ tx.inputs, witnessSize input.witness = 66 := by
    intro input hinput
    obtain ⟨-, signature, hlength, hwitness⟩ := h input hinput
    simp [hwitness, witnessSize, sumOf, sizedSize, hlength, CompactSize.size]
  have hform : tx.usesWitnessForm = true := by
    rw [usesWitnessForm, Bool.or_eq_true]
    by_cases hnil : tx.inputs = []
    · exact .inl (by rw [hnil]; rfl)
    · obtain ⟨input, hinput⟩ := List.exists_mem_of_ne_nil _ hnil
      obtain ⟨-, signature, -, hwitness⟩ := h input hinput
      exact .inr (List.any_eq_true.mpr ⟨input, hinput, by rw [hwitness]; rfl⟩)
  rw [totalSize, if_pos hform, sumOf_eq_mul hwitness]

/-- The weight is read off the number of inputs and the outputs. -/
lemma weight_of_holds (h : HoldsKeySignatures tx) :
    tx.weight = 4 * (8 + CompactSize.size tx.inputs.length + 41 * tx.inputs.length
      + outputsSize tx.outputs) + 2 + 66 * tx.inputs.length := by
  rw [weight, totalSize_of_holds h, baseSize_of_holds h, witnessScale]
  omega

/-- Amounts and signatures do not change the virtual size. -/
lemma virtualSize_congr (h : HoldsKeySignatures tx) (h' : HoldsKeySignatures other)
    (hinputs : tx.inputs.length = other.inputs.length)
    (houtputs : tx.outputs.map TxOut.script = other.outputs.map TxOut.script) :
    tx.virtualSize = other.virtualSize := by
  rw [virtualSize, virtualSize, weight_of_holds h, weight_of_holds h', hinputs,
    outputsSize_congr houtputs]

/-- Fewer outputs do not enlarge the virtual size. -/
lemma virtualSize_le (h : HoldsKeySignatures tx) (h' : HoldsKeySignatures other)
    (hinputs : tx.inputs.length = other.inputs.length) {more : List TxOut}
    (houtputs : other.outputs = tx.outputs ++ more) :
    tx.virtualSize ≤ other.virtualSize := by
  have hle := outputsSize_le_append tx.outputs more
  rw [virtualSize, virtualSize, weight_of_holds h, weight_of_holds h', hinputs, houtputs,
    witnessScale]
  omega

/-! ### The cost of the signature checks -/

/-- What is paid for is the virtual size, if the outputs hold no more than one
check of a signature. -/
lemma effectiveSize_of_holds {view : ScriptView} (h : HoldsKeySignatures tx)
    (hview : ∀ input ∈ tx.inputs,
      ∃ script, view.get? input.previous = some script ∧ script.isP2tr)
    (houtputs : sumOf (fun output => Script.sigops false output.script) tx.outputs ≤ 1) :
    tx.effectiveSize view = .ok tx.virtualSize := by
  refine effectiveSize_of_le (inputCosts_of_isP2tr hview) ?_
  have hweight := weight_of_holds h
  rw [legacySigops_of_bare fun input hinput => (h input hinput).1, virtualSize, witnessScale]
  omega

end Transaction

end CoinSpend
