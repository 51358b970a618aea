import CoinSpend.Proofs.Signing.Signature

/-!
Transactions whose signatures got longer.

* `TxIn.LargerByExcess`: an input takes more room than another one by no more than its
  signature is longer. `TxIn.SignedAlike.largerByExcess`: this is so if both spend one
  output by one key.
* `Transaction.signatureExcess`: by how much signatures are longer than their
  counterparts, taken together.
* `Transaction.virtualSize_le_of_excess`: a transaction that has one output less is no
  larger in virtual size, unless this exceeds the size of the output.
-/

namespace CoinSpend

/-! ### Inputs -/

namespace TxIn

/-- By how much the signature of an input is longer than that of another one. -/
def excess (pair : TxIn × TxIn) : ℕ :=
  pair.1.signature.length - pair.2.signature.length

/-- The size of an input in which the bytes of its witness count once and others four
times. -/
def scaledSize (input : TxIn) : ℕ :=
  witnessScale * input.baseSize + witnessSize input.witness

/-- An input that takes more room than another one by no more than its signature is
longer, be it inside or outside the witness. -/
structure LargerByExcess (a b : TxIn) : Prop where
  base : a.baseSize ≤ b.baseSize + excess (a, b)
  scaled : a.scaledSize ≤ b.scaledSize + witnessScale * excess (a, b)
  bare : a.witness = [] ↔ b.witness = []

variable {lookup : Lookup} {a b : TxIn}

/-- Short byte strings differ in room as they do in length. -/
lemma sizedSize_le_add {short long : Bytes} (h : long.length < 253) {n : ℕ}
    (hle : long.length ≤ short.length + n) : sizedSize long ≤ sizedSize short + n := by
  have hone : CompactSize.size long.length = 1 := if_pos h
  have hcount : 1 ≤ CompactSize.size short.length := by
    unfold CompactSize.size
    split_ifs <;> omega
  rw [sizedSize, sizedSize]
  omega

/-- Inputs that spend one output by one key differ in room by their signatures. -/
lemma SignedAlike.largerByExcess (h : SignedAlike lookup a b) : LargerByExcess a b := by
  obtain @⟨source, prevout, key, index, path, sig, other, -, -, hsig, hother⟩ := h
  have hlength := hsig.length_le
  have hlength' := hother.length_le
  have hexcess : excess (source.satisfy (path.satisfaction key sig),
      source.satisfy (path.satisfaction key other)) = sig.length - other.length := by
    rw [excess, signature_satisfy hsig, signature_satisfy hother]
  -- a signature in a witness takes a byte for each of its bytes
  have hwitness (items : List Bytes) : witnessSize (sig :: items)
      ≤ witnessSize (other :: items) + (sig.length - other.length) := by
    have hitem : sizedSize sig ≤ sizedSize other + (sig.length - other.length) :=
      sizedSize_le_add (by omega) (by omega)
    rw [witnessSize, witnessSize, List.length_cons, List.length_cons, sumOf, sumOf]
    omega
  cases path with
  | p2pkh =>
      have hkey := key.publicKey.length_bytes_le
      have hscript : sizedSize (Script.push sig ++ Script.push key.publicKey.bytes)
          ≤ sizedSize (Script.push other ++ Script.push key.publicKey.bytes)
            + (sig.length - other.length) := by
        have hpush {data : Bytes} (h : data.length < 76) :
            (Script.push data).length = data.length + 1 := by
          rw [Script.push_of_lt h, List.length_cons]
        refine sizedSize_le_add ?_ ?_ <;>
          rw [List.length_append, hpush (by omega), hpush (by omega)]
        · omega
        · rw [List.length_append, hpush (by omega), hpush (by omega)]
          omega
      have hbase : (source.satisfy (SpendPath.p2pkh.satisfaction key sig)).baseSize
          ≤ (source.satisfy (SpendPath.p2pkh.satisfaction key other)).baseSize
            + (sig.length - other.length) := by
        simp only [baseSize, satisfy, SpendPath.satisfaction]
        omega
      refine ⟨hexcess ▸ hbase, ?_, Iff.rfl⟩
      rw [hexcess, scaledSize, scaledSize, witnessScale]
      simp only [satisfy, SpendPath.satisfaction] at hbase ⊢
      omega
  | p2wpkh | p2shP2wpkh | taprootKeyPath | taprootScriptPath =>
      refine ⟨Nat.le_add_right _ _, ?_, iff_of_false (List.cons_ne_nil _ _) (List.cons_ne_nil _ _)⟩
      rw [hexcess]
      refine Nat.le_trans (Nat.add_le_add_left (hwitness _) _) ?_
      simp only [scaledSize, baseSize, satisfy, SpendPath.satisfaction, witnessScale]
      omega

end TxIn

namespace Transaction

variable {t s : Transaction}

/-- By how much the signatures that are longer than their counterparts in another
transaction are so, taken together. -/
def signatureExcess (t s : Transaction) : ℕ :=
  sumOf TxIn.excess (t.inputs.zip s.inputs)

/-- Transactions whose inputs have witnesses alike are written in the same form. -/
lemma usesWitnessForm_congr (h : List.Forall₂ TxIn.LargerByExcess t.inputs s.inputs) :
    t.usesWitnessForm = s.usesWitnessForm := by
  have hbare (xs ys : List TxIn) (h : List.Forall₂ TxIn.LargerByExcess xs ys) :
      xs.any (fun input => !input.witness.isEmpty)
        = ys.any fun input => !input.witness.isEmpty := by
    induction h with
    | nil => rfl
    | @cons a b _ _ hab _ ih =>
        have hempty : a.witness.isEmpty = b.witness.isEmpty := by
          rw [Bool.eq_iff_iff, List.isEmpty_iff, List.isEmpty_iff]
          exact hab.bare
        rw [List.any_cons, List.any_cons, ih, hempty]
  have hempty : t.inputs.isEmpty = s.inputs.isEmpty := by
    rw [Bool.eq_iff_iff, List.isEmpty_iff_length_eq_zero, List.isEmpty_iff_length_eq_zero,
      h.length_eq]
  rw [usesWitnessForm, usesWitnessForm, hempty, hbare _ _ h]

/-- A transaction that lacks an output is no larger, unless its signatures are longer
by more than the output takes. -/
lemma virtualSize_le_of_excess (h : List.Forall₂ TxIn.LargerByExcess t.inputs s.inputs)
    {output : TxOut} (houtputs : s.outputs = t.outputs ++ [output])
    (hexcess : t.signatureExcess s ≤ output.size) : t.virtualSize ≤ s.virtualSize := by
  have hbase : sumOf TxIn.baseSize t.inputs
      ≤ sumOf TxIn.baseSize s.inputs + t.signatureExcess s :=
    sumOf_le_add_forall₂ (h.imp fun _ _ hab => hab.base)
  have hscaled : sumOf TxIn.scaledSize t.inputs
      ≤ sumOf TxIn.scaledSize s.inputs + witnessScale * t.signatureExcess s := by
    rw [signatureExcess, ← sumOf_mul]
    exact sumOf_le_add_forall₂ (h.imp fun _ _ hab => hab.scaled)
  have hsplit (inputs : List TxIn) : sumOf TxIn.scaledSize inputs
      = witnessScale * sumOf TxIn.baseSize inputs
        + sumOf (fun input => witnessSize input.witness) inputs := by
    rw [← sumOf_mul, sumOf_add]
    rfl
  have hroom : t.baseSize + sumOf TxIn.baseSize s.inputs + output.size
      ≤ s.baseSize + sumOf TxIn.baseSize t.inputs := by
    have hcount : CompactSize.size t.outputs.length ≤ CompactSize.size s.outputs.length :=
      CompactSize.size_le_size (by simp [houtputs])
    rw [baseSize, baseSize, h.length_eq, houtputs, sumOf_append, sumOf, sumOf]
    rw [houtputs] at hcount
    omega
  rw [hsplit, hsplit] at hscaled
  have hweight : t.weight ≤ s.weight := by
    rw [weight, weight, totalSize, totalSize, usesWitnessForm_congr h]
    simp only [witnessScale] at hscaled ⊢
    split_ifs <;> omega
  exact Nat.div_le_div_right (by omega)

end Transaction

end CoinSpend
