import CoinSpend.Proofs.Address.Lock
import CoinSpend.Proofs.Inscription.Finish
import CoinSpend.Proofs.Signing.KeyPath

/-!
How a commit transaction is funded by output keys.

* `InscriptionPlan.PaysByOutputKeys`: output keys lock everything that pays.
* `FundedCommit.signedSize`: the virtual size of a commit transaction once it is
  signed. It depends neither on the change nor on the signatures, and leaving
  the change out does not enlarge it.
* `FundedCommit.signsToSize`: signing succeeds, and this is the size that is paid
  for.
* `FundedCommit.outcome_of_outputKeys`: hence the funds decide between a failure,
  no change and change at two thresholds.
-/

namespace CoinSpend

open QuotedReveals (Quotes)

namespace InscriptionPlan

/-- Output keys lock everything that pays. -/
def PaysByOutputKeys (plan : InscriptionPlan) : Prop :=
  ∀ input ∈ plan.funding, input.output.script.isP2tr

/-- This is so if every paying address stands for an output key. -/
lemma Resolves.paysByOutputKeys {request : InscriptionRequest} {params : ChainParams}
    {plan : InscriptionPlan} (h : Resolves request params plan)
    (hlocks : ∀ output ∈ request.funding, ∃ script,
      Address.toScript output.address params = .ok script ∧ script.isP2tr) :
    plan.PaysByOutputKeys := by
  intro input hinput
  obtain ⟨i, hi⟩ := List.mem_iff_getElem?.mp hinput
  obtain ⟨output, houtput, hof⟩ := exists_getElem?_of_forall₂ h.funding.flip hi
  obtain ⟨script, hscript, htr⟩ := hlocks output (List.mem_of_getElem? houtput)
  obtain ⟨other, key, hother, -, rfl⟩ := fundingInput_eq_ok_iff.mp hof
  obtain rfl := Except.ok.inj (hscript.symm.trans hother)
  exact htr

end InscriptionPlan

namespace FundedCommit

/-! ### Sizes of commit transactions -/

/-- A transaction with zeros for the signatures by output keys. -/
def withBlankSignatures (tx : Transaction) : Transaction :=
  { tx with inputs := tx.inputs.map fun input => input.satisfy ⟨[], [List.replicate 64 0]⟩ }

/-- The virtual size of the commit transaction with the given change once each
input holds one signature by an output key. -/
def signedSize (quoted : QuotedReveals) (change : Option Amount) : ℕ :=
  (withBlankSignatures (commitWith quoted change)).virtualSize

lemma holdsKeySignatures_withBlankSignatures (tx : Transaction) :
    (withBlankSignatures tx).HoldsKeySignatures := by
  intro input hinput
  obtain ⟨source, -, rfl⟩ := List.mem_map.mp hinput
  exact ⟨rfl, _, List.length_replicate, rfl⟩

/-- A commit transaction has this size whatever its signatures are. -/
lemma virtualSize_of_skeleton {quoted : QuotedReveals} {change : Option Amount} {t : Transaction}
    (hskeleton : t.skeleton = (commitWith quoted change).skeleton)
    (hholds : t.HoldsKeySignatures) : t.virtualSize = signedSize quoted change := by
  have hinputs : t.inputs.length = (commitWith quoted change).inputs.length := by
    rw [← t.length_skeleton, hskeleton, Transaction.length_skeleton]
  have houtputs := Transaction.outputs_of_skeleton hskeleton
  refine Transaction.virtualSize_congr hholds (holdsKeySignatures_withBlankSignatures _) ?_ ?_
  · rw [hinputs, withBlankSignatures, List.length_map]
  · rw [houtputs]
    rfl

/-- The size does not depend on the value of the change. -/
lemma signedSize_some (quoted : QuotedReveals) (a b : Amount) :
    signedSize quoted (some a) = signedSize quoted (some b) := by
  refine Transaction.virtualSize_congr (holdsKeySignatures_withBlankSignatures _)
    (holdsKeySignatures_withBlankSignatures _) ?_ ?_
  · rfl
  · simp [withBlankSignatures, commitWith]

/-- Without change the transaction is no larger. -/
lemma signedSize_none_le (quoted : QuotedReveals) (a : Amount) :
    signedSize quoted none ≤ signedSize quoted (some a) := by
  have houtputs : (withBlankSignatures (commitWith quoted (some a))).outputs
      = (withBlankSignatures (commitWith quoted none)).outputs
        ++ [⟨a, quoted.plan.changeScript⟩] := by
    simp [withBlankSignatures, commitWith]
  exact Transaction.virtualSize_le (holdsKeySignatures_withBlankSignatures _)
    (holdsKeySignatures_withBlankSignatures _) rfl houtputs

/-! ### Signed commit transactions -/

/-- Signing gives every input one signature by an output key and leaves the
outputs as they are; the size that is paid for is the virtual size. -/
def SignsToSize (funded : FundedCommit) (size : ℕ) : Prop :=
  ∃ commit, (SignedCommit.ofFunded funded).outcome = .ok commit ∧
    commit.commitTx.HoldsKeySignatures ∧ commit.commitTx.outputs = funded.commitTx.outputs ∧
    commit.commitTx.virtualSize = size ∧
    commit.commitTx.effectiveSize funded.plan.scriptView = .ok size

section OutputKeys

variable {request : InscriptionRequest} {params : ChainParams} {plan : InscriptionPlan}
  {quoted : QuotedReveals}

/-- What pays is found by its reference, under an output key. -/
lemma exists_funding_of_mem (hpays : plan.PaysByOutputKeys) {input : TxIn}
    (h : input ∈ plan.funding.map fun f => replaceableInput f.outpoint) :
    (∃ output, plan.lookup input.previous = some output ∧ output.script.isP2tr) ∧
      ∃ script, plan.scriptView.get? input.previous = some script ∧ script.isP2tr := by
  obtain ⟨f, hf, rfl⟩ := List.mem_map.mp h
  constructor
  · obtain ⟨output, houtput, hmem⟩ := OutPoint.Table.exists_get?_of_mem
      (List.mem_map_of_mem (f := fun f : FundingInput => (f.outpoint, f.output)) hf)
    obtain ⟨g, hg, heq⟩ := List.mem_map.mp hmem
    obtain ⟨-, rfl⟩ := Prod.mk.inj heq
    exact ⟨_, houtput, hpays g hg⟩
  · obtain ⟨script, hscript, hmem⟩ := OutPoint.Table.exists_get?_of_mem
      (List.mem_map_of_mem (f := fun f : FundingInput => (f.outpoint, f.output.script)) hf)
    obtain ⟨g, hg, heq⟩ := List.mem_map.mp hmem
    obtain ⟨-, rfl⟩ := Prod.mk.inj heq
    exact ⟨_, hscript, hpays g hg⟩

/-- The outputs of a commit transaction check at most one signature, that of the
change. -/
lemma sigops_outputs_le (hresolves : InscriptionPlan.Resolves request params plan)
    (hquotes : Quotes plan quoted) (change : Option Amount) :
    sumOf (fun output => Script.sigops false output.script) (commitWith quoted change).outputs
      ≤ 1 := by
  have hreveals : ∀ output ∈ revealOutputs quoted, Script.sigops false output.script = 0 := by
    intro output houtput
    obtain ⟨i, hi⟩ := List.mem_iff_getElem?.mp houtput
    obtain ⟨item, quote, hitem, -, rfl⟩ := List.getElem?_zipWith_eq_some.mp hi
    rw [hquotes.plan_eq] at hitem
    obtain ⟨inscription, -, hcarries⟩ :=
      exists_getElem?_of_forall₂ hresolves.items.flip hitem
    rw [hcarries.lockScript]
    exact Script.sigops_witnessProgram (by decide)
      (by rw [XOnlyKey.length_eq, Script.maxPush]; decide)
  have hchange := Address.sigops_le_of_toScript hresolves.changeScript
  rw [commitWith, sumOf_append, sumOf_eq_mul hreveals, Nat.zero_mul, hquotes.plan_eq]
  cases change with
  | none => exact Nat.zero_le 1
  | some a => simpa [sumOf] using hchange

/-- Signing a commit transaction succeeds, and the result has its size. -/
lemma exists_signed_commitWith (hresolves : InscriptionPlan.Resolves request params plan)
    (hpays : plan.PaysByOutputKeys) (hquotes : Quotes plan quoted) (change : Option Amount) :
    ∃ t, (commitWith quoted change).trialSigned plan.keys plan.lookup = .ok t ∧
      t.HoldsKeySignatures ∧ t.outputs = (commitWith quoted change).outputs ∧
      t.virtualSize = signedSize quoted change ∧
      t.effectiveSize plan.scriptView = .ok (signedSize quoted change) := by
  have hinputs : (commitWith quoted change).inputs
      = plan.funding.map fun f => replaceableInput f.outpoint := by
    rw [commitWith, hquotes.plan_eq]
  have hkeys : (commitWith quoted change).inputs.length ≤ plan.keys.length := by
    rw [hinputs, InscriptionPlan.keys, List.length_map, List.length_map]
  obtain ⟨t, ht, hskeleton, hholds⟩ := Transaction.exists_trialSigned_of_isP2tr hkeys
    fun input hinput => (exists_funding_of_mem hpays (hinputs ▸ hinput)).1
  have houtputs := Transaction.outputs_of_skeleton hskeleton
  have hsize := virtualSize_of_skeleton hskeleton hholds
  refine ⟨t, ht, hholds, houtputs, hsize, ?_⟩
  rw [← hsize]
  refine Transaction.effectiveSize_of_holds hholds (fun input hinput => ?_) ?_
  · have hprevious : input.previous ∈ (commitWith quoted change).inputs.map TxIn.previous :=
      Transaction.map_previous_of_skeleton hskeleton ▸ List.mem_map_of_mem hinput
    obtain ⟨source, hsource, heq⟩ := List.mem_map.mp hprevious
    rw [← heq]
    exact (exists_funding_of_mem hpays (hinputs ▸ hsource)).2
  · rw [houtputs]
    exact sigops_outputs_le hresolves hquotes change

/-- The fee of a commit transaction is the rate for its size. -/
lemma trialFee_commitWith (hresolves : InscriptionPlan.Resolves request params plan)
    (hpays : plan.PaysByOutputKeys) (hquotes : Quotes plan quoted) (change : Option Amount) :
    trialFee quoted.plan (commitWith quoted change)
      = Amount.checked (signedSize quoted change * request.commitFeeRate.toNat) := by
  obtain ⟨t, ht, -, -, -, hsize⟩ := exists_signed_commitWith hresolves hpays hquotes change
  rw [trialFee, hquotes.plan_eq, bind_of_eq_ok ht, bind_of_eq_ok hsize, hresolves.commitFeeRate]

/-- A funded commit transaction is signed, and its size is the one that the fee
was reckoned with. -/
lemma signsToSize (hresolves : InscriptionPlan.Resolves request params plan)
    (hpays : plan.PaysByOutputKeys) (hquotes : Quotes plan quoted) {funded : FundedCommit}
    {change : Option Amount} (hplan : funded.plan = quoted.plan)
    (hcommitTx : funded.commitTx = commitWith quoted change) :
    funded.SignsToSize (signedSize quoted change) := by
  obtain ⟨t, ht, hholds, houtputs, hsize, heffective⟩ :=
    exists_signed_commitWith hresolves hpays hquotes change
  rw [hquotes.plan_eq] at hplan
  refine ⟨⟨funded.plan, funded.reveals, t⟩, ?_, hholds, ?_, hsize, ?_⟩
  · refine SignedCommit.ofFunded_eq_ok_iff.mpr ⟨t, ?_, rfl⟩
    rw [hcommitTx, hplan, ht]
  · rw [hcommitTx, houtputs]
  · rw [hplan]
    exact heffective

end OutputKeys

/-! ### The two thresholds -/

section Thresholds

variable {quoted : QuotedReveals} {totalIn totalLocked fee feeWithoutChange required : Amount}

/-- Funds that pay the fee and leave the least change give it back. -/
lemma ofQuoted_eq_withChange (hin : Amount.checkedTotal quoted.plan.amounts = .ok totalIn)
    (hlocked : Amount.checkedTotal quoted.lockedValues = .ok totalLocked)
    (hfee : trialFee quoted.plan (commitWith quoted (some 0)) = .ok fee)
    (h : totalLocked.toNat + fee.toNat + quoted.plan.minChange.toNat ≤ totalIn.toNat) :
    ofQuoted quoted = .ok (withChange quoted (totalIn - totalLocked - fee) fee) := by
  have hcovers : totalLocked.toNat + fee.toNat ≤ totalIn.toNat := by omega
  have hrest := toNat_sub_sub hcovers
  have hchange : quoted.plan.minChange ≤ totalIn - totalLocked - fee := by
    rw [UInt64.le_iff_toNat_le, hrest]
    omega
  rw [ofQuoted, bind_of_eq_ok hin, bind_of_eq_ok hlocked, bind_of_eq_ok hfee,
    if_pos hcovers, if_pos hchange]
  rfl

/-- Funds that pay the fee without change, and leave less than the least change
after the fee with change, go into the fee. -/
lemma ofQuoted_eq_withoutChange (hin : Amount.checkedTotal quoted.plan.amounts = .ok totalIn)
    (hlocked : Amount.checkedTotal quoted.lockedValues = .ok totalLocked)
    (hfee : trialFee quoted.plan (commitWith quoted (some 0)) = .ok fee)
    (hless : trialFee quoted.plan (commitWith quoted none) = .ok feeWithoutChange)
    (hrequired : required.toNat = totalLocked.toNat + feeWithoutChange.toNat)
    (hle : required.toNat ≤ totalIn.toNat)
    (hlt : totalIn.toNat < totalLocked.toNat + fee.toNat + quoted.plan.minChange.toNat) :
    ofQuoted quoted = .ok (withoutChange quoted totalIn totalLocked) := by
  rw [ofQuoted, bind_of_eq_ok hin, bind_of_eq_ok hlocked, bind_of_eq_ok hfee]
  by_cases hcovers : totalLocked.toNat + fee.toNat ≤ totalIn.toNat
  · -- the fee with change leaves less than the least change
    have hrest := toNat_sub_sub hcovers
    have hchange : ¬quoted.plan.minChange ≤ totalIn - totalLocked - fee := by
      rw [UInt64.le_iff_toNat_le, hrest]
      omega
    rw [if_pos hcovers, if_neg hchange]
    rfl
  · have hcovered : ensureCovered quoted totalIn totalLocked fee = .ok () := by
      have hnot : ¬totalIn < required := by
        rw [UInt64.lt_iff_toNat_lt]
        omega
      rw [ensureCovered, bind_of_eq_ok hless,
        bind_of_eq_ok (Amount.checked_eq_ok_iff.mpr hrequired), if_neg hnot]
      rfl
    rw [if_neg hcovers, bind_of_eq_ok hcovered]
    rfl

/-- Funds that do not pay the fee without change are reported with what is
required and with the fee with change. -/
lemma ofQuoted_eq_error (hin : Amount.checkedTotal quoted.plan.amounts = .ok totalIn)
    (hlocked : Amount.checkedTotal quoted.lockedValues = .ok totalLocked)
    (hfee : trialFee quoted.plan (commitWith quoted (some 0)) = .ok fee)
    (hless : trialFee quoted.plan (commitWith quoted none) = .ok feeWithoutChange)
    (hrequired : required.toNat = totalLocked.toNat + feeWithoutChange.toNat)
    (hle : feeWithoutChange.toNat ≤ fee.toNat) (hlt : totalIn.toNat < required.toNat) :
    ofQuoted quoted = .error (.insufficientBalance totalIn required fee) := by
  have hcovered : ensureCovered quoted totalIn totalLocked fee
      = .error (.insufficientBalance totalIn required fee) := by
    rw [ensureCovered, bind_of_eq_ok hless,
      bind_of_eq_ok (Amount.checked_eq_ok_iff.mpr hrequired),
      if_pos (UInt64.lt_iff_toNat_lt.mpr hlt)]
    rfl
  rw [ofQuoted, bind_of_eq_ok hin, bind_of_eq_ok hlocked, bind_of_eq_ok hfee,
    if_neg (by omega), hcovered]
  rfl

end Thresholds

/-- **Funding by output keys has two thresholds.** Let output keys lock all that
pays. Let `T` be the sum of the funds, `R` what the reveals need, `r` the rate, `m`
the least change, and `V₁` and `V₀` the virtual sizes of the signed commit
transaction with and without change. If the funds do not pay the fee without
change, this is reported. If they do, but the fee with change leaves less than the
least change, there is no change. Otherwise all that is left of the fee with change
is given back. The transaction that is then signed has the size that its fee was
reckoned with. -/
theorem outcome_of_outputKeys {request : InscriptionRequest} {params : ChainParams}
    {plan : InscriptionPlan} {quoted : QuotedReveals} {T R r m V₀ V₁ : ℕ}
    (hplan : InscriptionPlan.IsPlanFor request params plan)
    (hlocks : ∀ output ∈ request.funding, ∃ script,
      Address.toScript output.address params = .ok script ∧ script.isP2tr)
    (hquoted : QuotedReveals.ofPlan plan = .ok quoted)
    (hT : T = Amount.total (request.funding.map FundingOutput.amount))
    (hR : R = Amount.total (quoted.quotes.map RevealQuote.lockedValue))
    (hr : r = request.commitFeeRate.toNat) (hm : m = plan.minChange.toNat)
    (hV₀ : V₀ = signedSize quoted none) (hV₁ : V₁ = signedSize quoted (some 0))
    (hfunds : T < UInt64.size) (hfits : r * V₁ + R + m < UInt64.size) :
    (T < R + r * V₀ → ∃ available required requiredFee,
        ofQuoted quoted = .error (.insufficientBalance available required requiredFee) ∧
        available.toNat = T ∧ required.toNat = R + r * V₀ ∧ requiredFee.toNat = r * V₁) ∧
      (R + r * V₀ ≤ T → T < R + r * V₁ + m → ∃ funded, ofQuoted quoted = .ok funded ∧
        funded.commitTx.outputs = revealOutputs quoted ∧
        funded.commitFee.toNat = T - R ∧ funded.SignsToSize V₀) ∧
      (R + r * V₁ + m ≤ T → ∃ funded change, ofQuoted quoted = .ok funded ∧
        funded.commitTx.outputs = revealOutputs quoted ++ [⟨change, plan.changeScript⟩] ∧
        change.toNat = T - R - r * V₁ ∧
        funded.commitFee.toNat = r * V₁ ∧ funded.SignsToSize V₁) := by
  have hresolves := hplan.resolves
  have hpays := hresolves.paysByOutputKeys hlocks
  have hquotes := QuotedReveals.quotes_of_ofPlan hquoted
  -- leaving the change out does not raise the fee
  have hless : r * V₀ ≤ r * V₁ :=
    Nat.mul_le_mul_left r (by rw [hV₀, hV₁]; exact signedSize_none_le quoted 0)
  obtain ⟨totalIn, hin, hinNat⟩ := Amount.exists_checked hfunds
  obtain ⟨totalLocked, hlocked, hlockedNat⟩ :=
    Amount.exists_checked (n := R) (by omega)
  obtain ⟨fee, hfee, hfeeNat⟩ := Amount.exists_checked (n := r * V₁) (by omega)
  obtain ⟨feeWithoutChange, hfee₀, hfee₀Nat⟩ := Amount.exists_checked (n := r * V₀) (by omega)
  obtain ⟨required, -, hrequired⟩ := Amount.exists_checked (n := R + r * V₀) (by omega)
  rw [hT, ← hresolves.amounts_eq, ← hquotes.plan_eq] at hin
  rw [hR] at hlocked
  rw [hV₁, hr, Nat.mul_comm, ← trialFee_commitWith hresolves hpays hquotes] at hfee
  rw [hV₀, hr, Nat.mul_comm, ← trialFee_commitWith hresolves hpays hquotes] at hfee₀
  rw [← hquotes.plan_eq] at hm
  rw [← hlockedNat, ← hfee₀Nat] at hrequired
  refine ⟨fun hshort => ?_, fun henough hbelow => ?_, fun hchange => ?_⟩
  · refine ⟨totalIn, required, fee, ofQuoted_eq_error hin hlocked hfee hfee₀ hrequired ?_ ?_,
      hinNat, ?_, hfeeNat⟩ <;> omega
  · refine ⟨_, ofQuoted_eq_withoutChange hin hlocked hfee hfee₀ hrequired ?_ ?_, ?_, ?_, ?_⟩
    · omega
    · omega
    · simp [withoutChange, commitWith]
    · rw [withoutChange, toNat_sub_of_total (by omega), hinNat, hlockedNat]
    · rw [hV₀]
      exact signsToSize hresolves hpays hquotes rfl rfl
  · refine ⟨_, totalIn - totalLocked - fee, ofQuoted_eq_withChange hin hlocked hfee ?_,
      ?_, ?_, hfeeNat, ?_⟩
    · omega
    · simp [withChange, commitWith, hquotes.plan_eq]
    · rw [toNat_sub_sub (by omega), hinNat, hlockedNat, hfeeNat]
    · rw [hV₁, signedSize_some quoted 0 (totalIn - totalLocked - fee)]
      exact signsToSize hresolves hpays hquotes rfl rfl

/-- An output key pays for `sampleRequest`. -/
lemma exists_lock_sampleRequest : ∀ output ∈ sampleRequest.funding, ∃ script,
    Address.toScript output.address Chain.bitcoinRegtest.params = .ok script ∧
      script.isP2tr := by
  have hlock : (Address.toScript sampleAddress Chain.bitcoinRegtest.params).toOption.any
      Script.isP2tr := by decide +kernel
  intro output houtput
  obtain rfl := List.mem_singleton.mp houtput
  exact exists_eq_ok_of_any hlock

/-- A request whose funds leave change: with it the commit transaction has 197
virtual bytes and pays two units for each. -/
theorem outcome_of_outputKeys_sample :
    ∃ plan quoted funded change,
      InscriptionPlan.IsPlanFor sampleRequest Chain.bitcoinRegtest.params plan ∧
      QuotedReveals.ofPlan plan = .ok quoted ∧ ofQuoted quoted = .ok funded ∧
      funded.commitTx.outputs = revealOutputs quoted ++ [⟨change, plan.changeScript⟩] ∧
      change.toNat = 97305 ∧ funded.commitFee.toNat = 394 ∧ funded.SignsToSize 197 := by
  have hrun : (InscriptionPlan.ofRequest sampleRequest Chain.bitcoinRegtest.params
      >>= QuotedReveals.ofPlan).toOption.any (fun quoted => decide (
        2301 = Amount.total (quoted.quotes.map RevealQuote.lockedValue) ∧
        546 = quoted.plan.minChange.toNat ∧ 154 = signedSize quoted none ∧
        197 = signedSize quoted (some 0))) = true := by decide +kernel
  obtain ⟨quoted, hquoted, hsizes⟩ := exists_eq_ok_of_any hrun
  obtain ⟨plan, hplan, hquoted⟩ := bind_eq_ok_iff.mp hquoted
  obtain ⟨hR, hm, hV₀, hV₁⟩ := of_decide_eq_true hsizes
  rw [(QuotedReveals.quotes_of_ofPlan hquoted).plan_eq] at hm
  obtain ⟨-, -, hchange⟩ := outcome_of_outputKeys (T := 100000) (r := 2) (.inl hplan)
    exists_lock_sampleRequest hquoted rfl hR rfl hm hV₀ hV₁ (by decide) (by decide)
  obtain ⟨funded, change, hfunded, houtputs, hvalue, hfee, hsigns⟩ := hchange (by decide)
  exact ⟨plan, quoted, funded, change, .inl hplan, hquoted, hfunded, houtputs, hvalue, hfee,
    hsigns⟩

end FundedCommit

end CoinSpend
