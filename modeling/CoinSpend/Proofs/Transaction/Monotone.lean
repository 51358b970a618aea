import CoinSpend.Proofs.Transaction.RoundTrip
import CoinSpend.Proofs.Transaction.Size

/-!
What grows with a transaction.

* `TxIn.NoLarger`: an input takes no more room than another one.
  `Transaction.virtualSize_le_of_noLarger`: a transaction with such inputs, whose
  outputs take no more room either, is no larger in virtual size.
* `TxIn.NoCostlier`: an input spends the same output as another one, and its checks
  cost no more. `Transaction.exists_inputCosts_le`: then the costs of the inputs are
  known as well, and no higher.
* `Transaction.exists_effectiveSize_le`: so it is with the size that is paid for.
-/

namespace CoinSpend

/-! ### Room -/

/-- An input that takes no more room than another one. Only an input that has a
witness stands against one that has. -/
structure TxIn.NoLarger (a b : TxIn) : Prop where
  scriptSig : a.scriptSig.length ≤ b.scriptSig.length
  witness : witnessSize a.witness ≤ witnessSize b.witness
  bare : b.witness = [] → a.witness = []

/-- A longer byte string takes no less room. -/
lemma sizedSize_le {a b : Bytes} (h : a.length ≤ b.length) : sizedSize a ≤ sizedSize b :=
  Nat.add_le_add (CompactSize.size_le_size h) h

lemma TxIn.NoLarger.baseSize_le {a b : TxIn} (h : NoLarger a b) : a.baseSize ≤ b.baseSize :=
  Nat.add_le_add_right (Nat.add_le_add_left (sizedSize_le h.scriptSig) 36) 4

namespace Transaction

variable {t s : Transaction}

lemma baseSize_le_of_noLarger (hinputs : List.Forall₂ TxIn.NoLarger t.inputs s.inputs)
    (houtputs : outputsSize t.outputs ≤ outputsSize s.outputs) : t.baseSize ≤ s.baseSize := by
  have hsizes : sumOf TxIn.baseSize t.inputs ≤ sumOf TxIn.baseSize s.inputs :=
    sumOf_le_forall₂ (hinputs.imp fun _ _ h => h.baseSize_le)
  rw [outputsSize, outputsSize] at houtputs
  rw [baseSize, baseSize, hinputs.length_eq]
  omega

/-- A transaction is written without witnesses if the larger one is. -/
lemma usesWitnessForm_of_noLarger (hinputs : List.Forall₂ TxIn.NoLarger t.inputs s.inputs)
    (h : s.usesWitnessForm = false) : t.usesWitnessForm = false := by
  obtain ⟨hne, hbare⟩ := usesWitnessForm_eq_false_iff.mp h
  refine usesWitnessForm_eq_false_iff.mpr ⟨?_, fun input hinput => ?_⟩
  · rintro hnil
    rw [hnil, List.forall₂_nil_left_iff] at hinputs
    exact hne hinputs
  · obtain ⟨i, hi⟩ := List.mem_iff_getElem?.mp hinput
    obtain ⟨other, hother, hle⟩ := exists_getElem?_of_forall₂ hinputs hi
    exact hle.bare (hbare other (List.mem_of_getElem? hother))

lemma totalSize_le_of_noLarger (hinputs : List.Forall₂ TxIn.NoLarger t.inputs s.inputs)
    (houtputs : outputsSize t.outputs ≤ outputsSize s.outputs) : t.totalSize ≤ s.totalSize := by
  have hbase := baseSize_le_of_noLarger hinputs houtputs
  have hwitness : sumOf (fun input => witnessSize input.witness) t.inputs
      ≤ sumOf (fun input => witnessSize input.witness) s.inputs :=
    sumOf_le_forall₂ (hinputs.imp fun _ _ h => h.witness)
  rw [totalSize, totalSize]
  split_ifs with ht hs hs
  · omega
  · -- the larger one has no witness, and hence neither of them has
    rw [usesWitnessForm_of_noLarger hinputs (by simpa using hs)] at ht
    cases ht
  · omega
  · exact hbase

/-- No larger inputs and outputs make no larger virtual size. -/
lemma virtualSize_le_of_noLarger (hinputs : List.Forall₂ TxIn.NoLarger t.inputs s.inputs)
    (houtputs : outputsSize t.outputs ≤ outputsSize s.outputs) :
    t.virtualSize ≤ s.virtualSize := by
  have hbase := baseSize_le_of_noLarger hinputs houtputs
  have htotal := totalSize_le_of_noLarger hinputs houtputs
  have hweight : t.weight ≤ s.weight :=
    Nat.add_le_add (Nat.mul_le_mul_right _ hbase) htotal
  exact Nat.div_le_div_right (by omega)

end Transaction

/-! ### The cost of the checks -/

/-- An input that spends the same output as another one, at no higher cost. -/
structure TxIn.NoCostlier (view : ScriptView) (a b : TxIn) : Prop where
  previous_eq : a.previous = b.previous
  scriptSig : Script.sigops false a.scriptSig ≤ Script.sigops false b.scriptSig
  cost : ∀ script, view.get? b.previous = some script → a.sigopCost script ≤ b.sigopCost script

/-- What an input costs is read off its signature script and the end of its
witness. -/
lemma TxIn.sigopCost_congr {a b : TxIn} (hscriptSig : a.scriptSig = b.scriptSig)
    (hwitness : a.witness.getLast? = b.witness.getLast?) (prevScript : Script) :
    a.sigopCost prevScript = b.sigopCost prevScript := by
  have hprogram (program : Script) :
      programSigops program a.witness = programSigops program b.witness := by
    simp only [programSigops, hwitness]
  simp only [sigopCost, witnessSigops, hscriptSig, hprogram]

namespace Transaction

variable {t s : Transaction} {view : ScriptView}

/-- The costs of inputs that cost no more are known if those of the others are. -/
lemma exists_inputCosts_le {inputs others : List TxIn}
    (h : List.Forall₂ (TxIn.NoCostlier view) inputs others) {index cost : ℕ}
    (hcost : inputCosts view index others = .ok cost) :
    ∃ less ≤ cost, inputCosts view index inputs = .ok less := by
  induction h generalizing index cost with
  | nil => exact ⟨cost, Nat.le_refl cost, hcost⟩
  | @cons a b as bs hab _ ih =>
      rw [inputCosts] at hcost
      cases hscript : view.get? b.previous with
      | none => simp [hscript] at hcost
      | some script =>
          simp only [hscript, bind_eq_ok_iff, pure_eq_ok_iff] at hcost
          obtain ⟨rest, hrest, rfl⟩ := hcost
          obtain ⟨less, hle, hless⟩ := ih hrest
          refine ⟨a.sigopCost script + less, Nat.add_le_add (hab.cost script hscript) hle, ?_⟩
          rw [inputCosts, hab.previous_eq, hscript]
          simp only [bind_eq_ok_iff, pure_eq_ok_iff]
          exact ⟨less, hless, rfl⟩

/-- The size that is paid for is known if that of a transaction with no smaller
virtual size and no lower costs is. -/
lemma exists_effectiveSize_le (hsize : t.virtualSize ≤ s.virtualSize)
    (hinputs : List.Forall₂ (TxIn.NoCostlier view) t.inputs s.inputs)
    (houtputs : sumOf (fun output => Script.sigops false output.script) t.outputs
      ≤ sumOf (fun output => Script.sigops false output.script) s.outputs)
    {size : ℕ} (h : s.effectiveSize view = .ok size) :
    ∃ less ≤ size, t.effectiveSize view = .ok less := by
  have hscriptSigs : sumOf (fun input => Script.sigops false input.scriptSig) t.inputs
      ≤ sumOf (fun input => Script.sigops false input.scriptSig) s.inputs :=
    sumOf_le_forall₂ (hinputs.imp fun _ _ hle => hle.scriptSig)
  have hlegacy : t.legacySigops * witnessScale ≤ s.legacySigops * witnessScale :=
    Nat.mul_le_mul_right _ (Nat.add_le_add hscriptSigs houtputs)
  rw [effectiveSize] at h ⊢
  split_ifs at h ⊢ with hview
  · cases h
    exact ⟨_, hsize, rfl⟩
  · simp only [sigopCost, Bool.false_eq_true, if_false, bind_eq_ok_iff, pure_eq_ok_iff] at h ⊢
    obtain ⟨_, ⟨cost, hcost, rfl⟩, rfl⟩ := h
    obtain ⟨less, hle, hless⟩ := exists_inputCosts_le hinputs hcost
    exact ⟨_, Nat.max_le.mpr ⟨Nat.le_trans hsize (Nat.le_max_left _ _),
      Nat.le_trans (Nat.add_le_add hlegacy hle) (Nat.le_max_right _ _)⟩, _, ⟨less, hless, rfl⟩, rfl⟩

end Transaction

end CoinSpend
