import Mathlib.Algebra.Order.Floor.Div
import CoinSpend.Proofs.Transaction.Canonical
import CoinSpend.Proofs.Transaction.Size

/-!
Counted sizes are those of the written forms.

* `Transaction.length_encodeStripped`, `Transaction.length_encode`: the sizes that are
  counted part by part are the numbers of bytes of the two written forms.
* `Transaction.encode_stripped`: a transaction with an input, its witnesses taken away,
  is written in the form without witnesses.
* `Transaction.virtualSize_of_plain`, `Transaction.virtualSize_of_witnessed`: witnesses
  count for a quarter of their bytes, with marker and flag, rounded up once.
* `Transaction.sizes_of_encode`: hence weight, virtual size and the size of a text are
  read off the written forms.
-/

namespace CoinSpend

/-! ### Parts -/

/-- A reference takes an identifier and a position. -/
lemma OutPoint.length_encode (outpoint : OutPoint) : outpoint.encode.length = 36 := by
  rw [encode, List.length_append, outpoint.txid.length_eq, Bytes.length_ofNatLE]

lemma TxIn.length_encode (input : TxIn) : input.encode.length = input.baseSize := by
  rw [encode, List.length_append, List.length_append, OutPoint.length_encode, length_sized,
    Bytes.length_ofNatLE, baseSize]

lemma TxOut.length_encode (output : TxOut) : output.encode.length = output.size := by
  rw [encode, List.length_append, Bytes.length_ofNatLE, length_sized, size]

/-- An input without a witness still writes that there are no items. -/
lemma length_encodeWitnesses (inputs : List TxIn) :
    (encodeWitnesses inputs).length = sumOf (fun input => witnessSize input.witness) inputs := by
  have hwitness (input : TxIn) : (encodeWitness input.witness).length = witnessSize input.witness :=
    length_encodeWitness input.witness
  exact length_flatMap_eq hwitness inputs

namespace Transaction

variable {tx : Transaction}

/-! ### Written forms -/

/-- The form without witnesses has the counted size. -/
theorem length_encodeStripped (tx : Transaction) : tx.encodeStripped.length = tx.baseSize := by
  simp only [encodeStripped, encodeVersion, encodeInputs, encodeOutputs, encodeLockTime,
    List.length_append, Bytes.length_ofNatLE, CompactSize.length_encode,
    length_flatMap_eq TxIn.length_encode, length_flatMap_eq TxOut.length_encode, baseSize]
  omega

/-- The form with witnesses adds marker, flag and witnesses to the other one. -/
lemma length_encode_of_witnessForm (h : tx.usesWitnessForm = true) :
    tx.encode.length = tx.encodeStripped.length + 2 + (encodeWitnesses tx.inputs).length := by
  rw [encode, if_pos h, encodeStripped, encodeWitnesses]
  simp only [List.length_append, List.length_cons, List.length_nil]
  omega

/-- The written form has the counted size. -/
theorem length_encode (tx : Transaction) : tx.encode.length = tx.totalSize := by
  cases h : tx.usesWitnessForm with
  | true =>
      rw [length_encode_of_witnessForm h, length_encodeStripped, length_encodeWitnesses, totalSize,
        if_pos h]
  | false => rw [encode, h, if_neg Bool.false_ne_true, length_encodeStripped, totalSize, h,
      if_neg Bool.false_ne_true]

/-- With its witnesses taken away, a transaction that has an input is written without
them. One that has none would be marked as if it had witnesses. -/
lemma encode_stripped (hinputs : tx.inputs ≠ []) : tx.stripped.encode = tx.encodeStripped := by
  have hform : tx.stripped.usesWitnessForm = false := by
    rw [usesWitnessForm_eq_false_iff]
    simpa [stripped] using hinputs
  have hencode : tx.stripped.encodeInputs = tx.encodeInputs := by
    rw [encodeInputs, stripped, List.length_map, List.flatMap_map]
    rfl
  calc tx.stripped.encode
      = tx.encodeVersion ++ tx.stripped.encodeInputs ++ tx.encodeOutputs ++ tx.encodeLockTime := by
        rw [encode, hform, if_neg Bool.false_ne_true]
        rfl
    _ = tx.encodeStripped := by rw [hencode, encodeStripped]

/-! ### Virtual size -/

/-- Without witnesses every byte counts in full. -/
lemma virtualSize_of_plain (h : tx.usesWitnessForm = false) :
    tx.virtualSize = tx.encodeStripped.length := by
  rw [virtualSize, weight, totalSize, h, if_neg Bool.false_ne_true, length_encodeStripped,
    witnessScale]
  omega

/-- Only the witness part can fail to be a multiple of four, so that the whole is rounded
where this part is. -/
lemma virtualSize_of_witnessed (h : tx.usesWitnessForm = true) :
    tx.virtualSize
      = tx.encodeStripped.length + (2 + (encodeWitnesses tx.inputs).length) ⌈/⌉ 4 := by
  rw [Nat.ceilDiv_eq_add_pred_div, virtualSize, weight, ← length_encode,
    length_encode_of_witnessForm h, length_encodeStripped, witnessScale]
  omega

/-- **Sizes are those of the written forms.** The weight counts the bytes of the form
without witnesses three times and those of the written form once more. The size of a
text is that of what the text stands for, as far as witnesses can be read back. The
virtual size is the size of the form without witnesses and, where there is a witness,
a quarter of what the witnesses add to it, rounded up. -/
theorem sizes_of_encode (tx : Transaction) (hinputs : tx.inputs ≠ []) :
    tx.weight = 3 * tx.stripped.encode.length + tx.encode.length ∧
      (tx.Fits → tx.WitnessesFit → sizeOfHex tx.toHex = .ok tx.encode.length) ∧
      ((∀ input ∈ tx.inputs, input.witness = []) →
        tx.virtualSize = tx.stripped.encode.length) ∧
      ((∃ input ∈ tx.inputs, input.witness ≠ []) →
        tx.virtualSize = tx.stripped.encode.length
          + (2 + (encodeWitnesses tx.inputs).length) ⌈/⌉ 4) := by
  rw [encode_stripped hinputs]
  refine ⟨?_, fun hfits hwitnesses => ?_, fun hplain => ?_, fun ⟨input, hinput, hwitness⟩ => ?_⟩
  · rw [weight, length_encodeStripped, length_encode, witnessScale, Nat.mul_comm]
  · have hread : ofHex tx.toHex = .ok tx := by
      rw [ofHex, toHex, Hex.decodeMarked_encode]
      simp only [decode_encode hfits hwitnesses]
    rw [sizeOfHex, hread, length_encode]
    rfl
  · exact virtualSize_of_plain (usesWitnessForm_eq_false_iff.mpr ⟨hinputs, hplain⟩)
  · refine virtualSize_of_witnessed ?_
    by_contra hform
    have hplain := usesWitnessForm_eq_false_iff.mp (Bool.eq_false_of_not_eq_true hform)
    exact hwitness (hplain.2 input hinput)

/-- Two inputs, of which the first one alone has a witness. -/
def sampleHalfWitnessed : Transaction :=
  ⟨2, 0, [⟨⟨.zero, 7⟩, [], 0xfffffffd, [[], [1, 2, 3]]⟩, ⟨⟨.zero, 8⟩, [0x51], 0xffffffff, []⟩],
    [⟨1000, [0x51]⟩]⟩

/-- The witness takes six bytes, and one more says that the second input has none. -/
theorem sizes_of_encode_sample :
    sampleHalfWitnessed.Fits ∧ sampleHalfWitnessed.WitnessesFit ∧
      sampleHalfWitnessed.stripped.encode.length = 103 ∧
      sampleHalfWitnessed.weight = 3 * 103 + 112 ∧
      sizeOfHex sampleHalfWitnessed.toHex = .ok 112 ∧
      sampleHalfWitnessed.virtualSize = 103 + (2 + 7) ⌈/⌉ 4 ∧
      sampleHalfWitnessed.stripped.virtualSize = 103 := by
  have hfits : sampleHalfWitnessed.Fits := ⟨by decide, by decide, by decide, by decide⟩
  have hwitnesses : sampleHalfWitnessed.WitnessesFit := by
    rw [WitnessesFit]
    decide
  obtain ⟨hweight, htext, -, hvirtual⟩ :=
    sizes_of_encode sampleHalfWitnessed (by decide)
  obtain ⟨-, -, hplain, -⟩ := sizes_of_encode sampleHalfWitnessed.stripped (by decide)
  exact ⟨hfits, hwitnesses, by decide, hweight, htext hfits hwitnesses,
    hvirtual ⟨_, List.mem_cons_self, by decide⟩, hplain (by decide)⟩

end Transaction

end CoinSpend
