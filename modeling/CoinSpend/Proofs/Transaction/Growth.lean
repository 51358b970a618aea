import Mathlib.Logic.Relation
import CoinSpend.Proofs.Transaction.Monotone

/-!
Growing a transaction, one piece at a time.

* `TxIn.Grows`: an input gets one more witness item, a longer witness item or a
  longer signature script. `TxIn.Grows.noLarger`: it took no more room before.
* `Transaction.Grows`: a transaction gets one more output or a longer output script,
  or one of its inputs grows.
* `Transaction.virtualSize_le_of_grows`, `Transaction.virtualSize_le_of_reflTransGen`:
  the virtual size does not decrease in one step, nor in any number of steps.
* `Transaction.exists_effectiveSize_of_outputs`: neither does the size that is paid
  for when outputs are appended, and it stays known.
-/

namespace CoinSpend

/-! ### Inputs -/

/-- One step in which an input grows. -/
inductive TxIn.Grows : TxIn → TxIn → Prop where
  /-- The witness gets one more item, which may be the first one. -/
  | item (input : TxIn) (last : Bytes) :
      Grows input { input with witness := input.witness ++ [last] }
  /-- An item of the witness gets longer. -/
  | longerItem (input : TxIn) (before after : List Bytes) {short long : Bytes}
      (h : short.length ≤ long.length) :
      Grows { input with witness := before ++ short :: after }
        { input with witness := before ++ long :: after }
  /-- The signature script gets longer. -/
  | longerScriptSig (input : TxIn) {script : Script}
      (h : input.scriptSig.length ≤ script.length) :
      Grows input { input with scriptSig := script }

/-- One more item does not make a witness smaller. -/
lemma witnessSize_le_append (witness more : List Bytes) :
    witnessSize witness ≤ witnessSize (witness ++ more) := by
  have hcount : CompactSize.size witness.length ≤ CompactSize.size (witness ++ more).length :=
    CompactSize.size_le_size (by simp)
  rw [witnessSize, witnessSize, sumOf_append]
  omega

/-- A longer item does not make a witness smaller, wherever it stands. -/
lemma witnessSize_le_of_length_le (before after : List Bytes) {short long : Bytes}
    (h : short.length ≤ long.length) :
    witnessSize (before ++ short :: after) ≤ witnessSize (before ++ long :: after) := by
  have hitem := sizedSize_le h
  have hcount : (before ++ short :: after).length = (before ++ long :: after).length := by simp
  rw [witnessSize, witnessSize, hcount, sumOf_append, sumOf_append, sumOf, sumOf]
  omega

namespace TxIn

variable {a b : TxIn}

/-- Every input is as large as itself. -/
lemma NoLarger.refl (input : TxIn) : NoLarger input input :=
  ⟨Nat.le_refl _, Nat.le_refl _, id⟩

/-- So inputs take as much room as themselves. -/
lemma forall₂_noLarger (inputs : List TxIn) : List.Forall₂ NoLarger inputs inputs :=
  List.forall₂_same.mpr fun input _ => .refl input

/-- An input that grows takes no less room, and keeps a witness if it had one. -/
lemma Grows.noLarger (h : Grows a b) : NoLarger a b := by
  cases h with
  | item input last =>
      refine ⟨Nat.le_refl _, witnessSize_le_append _ _, fun hnil => ?_⟩
      exact (List.append_eq_nil_iff.mp hnil).1
  | longerItem input before after h =>
      refine ⟨Nat.le_refl _, witnessSize_le_of_length_le before after h, fun hnil => ?_⟩
      exact absurd (List.append_eq_nil_iff.mp hnil).2 (List.cons_ne_nil _ _)
  | longerScriptSig _ h => exact ⟨h, Nat.le_refl _, id⟩

end TxIn

/-! ### Transactions -/

namespace Transaction

/-- One step in which a transaction grows. -/
inductive Grows : Transaction → Transaction → Prop where
  /-- One more output. -/
  | output (tx : Transaction) (last : TxOut) :
      Grows tx { tx with outputs := tx.outputs ++ [last] }
  /-- The script of an output gets longer. -/
  | longerScript (tx : Transaction) (before after : List TxOut) (output : TxOut) {script : Script}
      (h : output.script.length ≤ script.length) :
      Grows { tx with outputs := before ++ output :: after }
        { tx with outputs := before ++ { output with script := script } :: after }
  /-- An input grows. -/
  | input (tx : Transaction) (before after : List TxIn) {a b : TxIn} (h : a.Grows b) :
      Grows { tx with inputs := before ++ a :: after }
        { tx with inputs := before ++ b :: after }

variable {t s : Transaction}

/-- A longer script does not make the outputs smaller, wherever it stands. -/
lemma outputsSize_le_of_length_le (before after : List TxOut) (output : TxOut) {script : Script}
    (h : output.script.length ≤ script.length) :
    outputsSize (before ++ output :: after)
      ≤ outputsSize (before ++ { output with script := script } :: after) := by
  have hsize : output.size ≤ TxOut.size { output with script := script } :=
    Nat.add_le_add_left (sizedSize_le h) 8
  simp only [outputsSize, List.length_append, List.length_cons, sumOf_append, sumOf]
  omega

/-- One input among others that take as much room as before. -/
lemma noLarger_of_split (before after : List TxIn) {a b : TxIn} (h : a.NoLarger b) :
    List.Forall₂ TxIn.NoLarger (before ++ a :: after) (before ++ b :: after) :=
  List.rel_append (TxIn.forall₂_noLarger before) (.cons h (TxIn.forall₂_noLarger after))

/-- A step of growth does not decrease the virtual size: counts and lengths that get
larger are not written in fewer bytes, and a first witness adds to the written form. -/
lemma virtualSize_le_of_grows (h : Grows t s) : t.virtualSize ≤ s.virtualSize := by
  cases h with
  | output last =>
      exact virtualSize_le_of_noLarger (TxIn.forall₂_noLarger _) (outputsSize_le_append _ _)
  | longerScript tx before after output h =>
      exact virtualSize_le_of_noLarger (TxIn.forall₂_noLarger tx.inputs)
        (outputsSize_le_of_length_le before after output h)
  | input tx before after h =>
      exact virtualSize_le_of_noLarger (noLarger_of_split before after h.noLarger)
        (Nat.le_refl _)

/-- Nor does any number of steps. -/
lemma virtualSize_le_of_reflTransGen (h : Relation.ReflTransGen Grows t s) :
    t.virtualSize ≤ s.virtualSize := by
  induction h with
  | refl => exact Nat.le_refl _
  | tail _ hstep ih => exact Nat.le_trans ih (virtualSize_le_of_grows hstep)

/-! ### The size that is paid for -/

/-- Appended outputs do not change what is spent, so the size that is paid for stays
known, and it does not decrease. -/
lemma exists_effectiveSize_of_outputs {tx : Transaction} {view : ScriptView} {size : ℕ}
    (h : tx.effectiveSize view = .ok size) (more : List TxOut) :
    ∃ larger ≥ size, { tx with outputs := tx.outputs ++ more }.effectiveSize view = .ok larger := by
  have hsize : tx.virtualSize ≤ virtualSize { tx with outputs := tx.outputs ++ more } :=
    virtualSize_le_of_noLarger (TxIn.forall₂_noLarger tx.inputs)
      (outputsSize_le_append _ _)
  have hlegacy : tx.legacySigops ≤ legacySigops { tx with outputs := tx.outputs ++ more } := by
    rw [legacySigops, legacySigops, sumOf_append]
    exact Nat.add_le_add_left (Nat.le_add_right _ _) _
  rw [effectiveSize] at h ⊢
  split_ifs at h ⊢ with hview
  · cases h
    exact ⟨_, hsize, rfl⟩
  · simp only [sigopCost, Bool.false_eq_true, if_false, bind_eq_ok_iff, pure_eq_ok_iff] at h ⊢
    obtain ⟨_, ⟨cost, hcost, rfl⟩, rfl⟩ := h
    have hcosts := Nat.add_le_add_right (Nat.mul_le_mul_right witnessScale hlegacy) cost
    exact ⟨_, max_le_max hsize hcosts, _, ⟨cost, hcost, rfl⟩, rfl⟩

end Transaction

end CoinSpend
