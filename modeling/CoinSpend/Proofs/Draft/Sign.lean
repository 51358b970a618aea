import CoinSpend.Draft.Sign
import CoinSpend.Proofs.Draft.Basic
import CoinSpend.Proofs.Signing.Refusal
import CoinSpend.Proofs.Transaction.Table

/-!
Signing a draft by the locks of its spends.

* `Draft.keyedSpend_eq_ok_iff`: what is known of a spend.
* `Draft.Covered`: the outputs are not worth more than the spends.
* `Draft.prepare_eq_ok_iff`, `Draft.sign_eq_ok_iff`: a draft can be prepared if and
  only if it has its parts, all spends are known, and it is covered. What is signed
  is the unsigned transaction.
  `Draft.exists_sign_of_signable`: when this is so.
* `Draft.scriptView_of_readSpends`: the scripts of known spends are known without their
  keys; `Draft.get?_scriptView`: they are those that signing looks up.
-/

namespace CoinSpend

namespace Draft

variable {draft : Draft}

/-- What is known of a spend is what it says of itself, its script and its key. -/
lemma keyedSpend_eq_ok_iff {index : ℕ} {spend : Spend} {keyed : KeyedSpend} :
    draft.keyedSpend index spend = .ok keyed ↔
      ∃ script key, spend.lock.toScript draft.params = .ok script ∧
        spend.key draft.params index = .ok key ∧
        keyed = ⟨spend.outpoint, ⟨spend.amount, script⟩, key⟩ := by
  simp only [keyedSpend, bind_eq_ok_iff, pure_eq_ok_iff]
  constructor
  · rintro ⟨script, hscript, key, hkey, rfl⟩
    exact ⟨script, key, hscript, hkey, rfl⟩
  · rintro ⟨script, key, hscript, hkey, rfl⟩
    exact ⟨script, hscript, key, hkey, rfl⟩

/-- The outputs are not worth more than the spends, whose total is an amount. -/
structure Covered (draft : Draft) : Prop where
  le : Amount.total ((draft.payments.filter draft.keeps).map Payment.amount)
    ≤ Amount.total (draft.spends.map Spend.amount)
  lt : Amount.total (draft.spends.map Spend.amount) < UInt64.size

section Known

variable {spends : List KeyedSpend}

/-- The spends that are known are those of the draft, in order. -/
lemma map_outpoint_of_readSpends (h : readSpends draft.keyedSpend 0 draft.spends = .ok spends) :
    draft.spends.map Spend.outpoint = spends.map KeyedSpend.outpoint := by
  refine map_of_readSpends h fun index spend keyed hkeyed => ?_
  obtain ⟨script, key, -, -, rfl⟩ := keyedSpend_eq_ok_iff.mp hkeyed
  rfl

/-- Their amounts are taken as they are given. -/
lemma map_amount_of_readSpends (h : readSpends draft.keyedSpend 0 draft.spends = .ok spends) :
    draft.spends.map Spend.amount = spends.map fun s => s.output.value := by
  refine map_of_readSpends h fun index spend keyed hkeyed => ?_
  obtain ⟨script, key, -, -, rfl⟩ := keyedSpend_eq_ok_iff.mp hkeyed
  rfl

/-- A draft can be prepared if and only if it has its parts, all spends are known, and
it is covered. -/
lemma prepare_eq_ok_iff {prepared : Transaction × List KeyedSpend} :
    draft.prepare = .ok prepared ↔
      draft.requireParts = .ok () ∧ draft.Covered ∧
        ∃ spends outputs, readSpends draft.keyedSpend 0 draft.spends = .ok spends ∧
          draft.keptOutputs = .ok outputs ∧ prepared = (draft.unsigned outputs, spends) := by
  have hunsigned {spends : List KeyedSpend} (outputs : List TxOut)
      (h : readSpends draft.keyedSpend 0 draft.spends = .ok spends) :
      draft.transactionWith (spends.map fun s => finalInput s.outpoint []) outputs
        = draft.unsigned outputs := by
    have hinputs := congrArg (List.map (finalInput · [])) (map_outpoint_of_readSpends h)
    rw [List.map_map, List.map_map] at hinputs
    exact congrArg (draft.transactionWith · outputs) hinputs.symm
  simp only [prepare, bind_eq_ok_iff, guard_eq_ok_iff, pure_eq_ok_iff, spendTotal,
    Amount.checkedTotal_eq_ok_iff]
  constructor
  · rintro ⟨⟨⟩, hparts, spends, hspends, outputs, houtputs, totalIn, hin, totalOut, hout, hle, rfl⟩
    rw [map_value_of_keptOutputs houtputs] at hout
    rw [UInt64.not_lt, UInt64.le_iff_toNat_le, hin, hout] at hle
    exact ⟨hparts, ⟨hle, hin ▸ totalIn.toNat_lt⟩, spends, outputs, hspends, houtputs,
      by rw [hunsigned outputs hspends]⟩
  · rintro ⟨hparts, ⟨hle, hlt⟩, spends, outputs, hspends, houtputs, rfl⟩
    obtain ⟨totalIn, -, hin⟩ := Amount.exists_checked hlt
    obtain ⟨totalOut, -, hout⟩ := Amount.exists_checked (Nat.lt_of_le_of_lt hle hlt)
    refine ⟨(), hparts, spends, hspends, outputs, houtputs, totalIn, hin, totalOut, ?_, ?_,
      by rw [hunsigned outputs hspends]⟩
    · rw [hout, map_value_of_keptOutputs houtputs]
    · rw [UInt64.not_lt, UInt64.le_iff_toNat_le, hin, hout]
      exact hle

/-- A draft is signed if and only if it can be prepared and all inputs of the unsigned
transaction can be signed. -/
lemma sign_eq_ok_iff {t : Transaction} :
    draft.sign.outcome = .ok t ↔
      draft.requireParts = .ok () ∧ draft.Covered ∧
        ∃ spends outputs, readSpends draft.keyedSpend 0 draft.spends = .ok spends ∧
          draft.keptOutputs = .ok outputs ∧ (draft.unsigned outputs).trialSigned
            (spends.map KeyedSpend.key) (lookup spends) = .ok t := by
  simp only [sign, Metered.outcome_bind, Metered.outcome_liftM, Metered.outcome_record,
    Metered.outcome_pure, bind_eq_ok_iff, prepare_eq_ok_iff, Transaction.outcome_sign]
  constructor
  · rintro ⟨_, ⟨hparts, hcovered, spends, outputs, hspends, houtputs, rfl⟩, signed, hsigned, -,
      -, ht⟩
    obtain rfl := Except.ok.inj ht
    exact ⟨hparts, hcovered, spends, outputs, hspends, houtputs, hsigned⟩
  · rintro ⟨hparts, hcovered, spends, outputs, hspends, houtputs, hsigned⟩
    exact ⟨_, ⟨hparts, hcovered, spends, outputs, hspends, houtputs, rfl⟩, t, hsigned, (), trivial,
      rfl⟩

/-- A draft that can be prepared is signed if the keys of its spends sign for their locks. -/
lemma exists_sign_of_signable
    (h : draft.prepare.toOption.any fun prepared =>
      prepared.1.Signable (prepared.2.map KeyedSpend.key) (lookup prepared.2)) :
    ∃ t, draft.sign.outcome = .ok t := by
  obtain ⟨⟨tx, spends⟩, hprepare, hsignable⟩ := exists_eq_ok_of_any h
  obtain ⟨hparts, hcovered, _, outputs, hspends, houtputs, heq⟩ := prepare_eq_ok_iff.mp hprepare
  cases heq
  obtain ⟨t, ht⟩ := Transaction.exists_trialSigned_iff.mpr (of_decide_eq_true hsignable)
  exact ⟨t, sign_eq_ok_iff.mpr ⟨hparts, hcovered, spends, outputs, hspends, houtputs, ht⟩⟩

/-! ### What is known of the scripts -/

/-- The scripts of known spends are known without their keys. -/
lemma scriptView_of_readSpends (h : readSpends draft.keyedSpend 0 draft.spends = .ok spends) :
    draft.scriptView = .ok (spends.map fun s => (s.outpoint, s.output.script)) := by
  have hentries : draft.spends.map draft.viewEntry
      = spends.map fun s => (.ok (s.outpoint, s.output.script)) := by
    refine map_of_readSpends h fun index spend keyed hkeyed => ?_
    obtain ⟨script, key, hscript, -, rfl⟩ := keyedSpend_eq_ok_iff.mp hkeyed
    rw [viewEntry, hscript]
    rfl
  rw [scriptView, mapM_eq_ok_iff, List.forall₂_map_right_iff]
  exact forall₂_image_iff.mpr hentries

/-- They are those of the outputs that signing looks up. -/
lemma get?_scriptView (spends : List KeyedSpend) (outpoint : OutPoint) :
    OutPoint.Table.get? (spends.map fun s => (s.outpoint, s.output.script)) outpoint
      = (lookup spends outpoint).map TxOut.script := by
  rw [lookup, ← OutPoint.Table.get?_map, List.map_map]
  rfl

end Known

end Draft

end CoinSpend
