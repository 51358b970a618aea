import CoinSpend.Inscription.Inscribe
import CoinSpend.Proofs.Inscription.Finish

/-!
No coin is made or lost by an inscription.

* `FundedCommit.Conserved`: a commit transaction locks the quoted values, one
  for each inscription, and at most one change that is worth an output; nothing
  it or a reveal pays is zero; the funds are what it pays and its fee.
* `SignedReveals.fees_of_finishes`: the fees read off the finished transactions
  are those that were fixed when the commit transaction was funded.
* `FundedCommit.conserved_of_run`: both hold for every run that gets so far.
-/

namespace CoinSpend

open QuotedReveals (Quotes QuoteOf blankReveal)

/-! ### Values -/

lemma Amount.total_append (xs ys : List Amount) :
    Amount.total (xs ++ ys) = Amount.total xs + Amount.total ys :=
  sumOf_append UInt64.toNat xs ys

/-- Every value to lock is more than what the reveal leaves. -/
lemma QuotedReveals.Quotes.lockedValue_pos {plan : InscriptionPlan} {quoted : QuotedReveals}
    (h : Quotes plan quoted) (hpos : 0 < plan.revealValue.toNat) :
    ∀ value ∈ quoted.lockedValues, 0 < value.toNat := by
  intro value hvalue
  obtain ⟨quote, hquote, rfl⟩ := List.mem_map.mp hvalue
  obtain ⟨i, hi, rfl⟩ := List.mem_iff_getElem.mp hquote
  obtain ⟨entry, -, hof⟩ :=
    exists_getElem?_of_forall₂ h.quotes.flip (List.getElem?_eq_getElem hi)
  have hlocked := hof.lockedValue
  omega

namespace FundedCommit

/-- The outputs of a commit transaction lock the quoted values, the change
behind them. -/
lemma map_value_commitWith {plan : InscriptionPlan} {quoted : QuotedReveals}
    (h : Quotes plan quoted) (change : Option Amount) :
    (commitWith quoted change).outputs.map TxOut.value
      = quoted.lockedValues ++ change.toList := by
  have hlength : quoted.plan.items.length = quoted.quotes.length := by
    rw [h.plan_eq, h.length_quotes]
  have hreveals : (revealOutputs quoted).map TxOut.value = quoted.lockedValues := by
    refine List.ext_getElem (by simp [revealOutputs, QuotedReveals.lockedValues, hlength])
      fun i h₁ h₂ => ?_
    simp [revealOutputs, QuotedReveals.lockedValues]
  simp [commitWith, hreveals, Function.comp_def]

/-- What a commit transaction locks, pays and leaves as its fee. -/
structure Conserved (request : InscriptionRequest) (quoted : QuotedReveals)
    (funded : FundedCommit) (change : Option Amount) : Prop where
  length_eq : quoted.quotes.length = request.inscriptions.length
  values_eq : funded.commitTx.outputs.map TxOut.value
    = quoted.quotes.map RevealQuote.lockedValue ++ change.toList
  minChange_le : ∀ value ∈ change, funded.plan.minChange ≤ value
  output_pos : ∀ output ∈ funded.commitTx.outputs, 0 < output.value
  reveal_pos : ∀ reveal ∈ funded.reveals, ∀ output ∈ reveal.outputs, 0 < output.value
  total_eq : Amount.total (request.funding.map FundingOutput.amount)
    = Amount.total (funded.commitTx.outputs.map TxOut.value) + funded.commitFee.toNat
  total_lt : Amount.total (request.funding.map FundingOutput.amount) < UInt64.size

/-- A commit transaction that is funded neither makes nor loses coin. -/
lemma conserved_of_funds {request : InscriptionRequest} {params : ChainParams}
    {plan : InscriptionPlan} {quoted : QuotedReveals} {funded : FundedCommit}
    {change : Option Amount} (hresolves : InscriptionPlan.Resolves request params plan)
    (hquotes : Quotes plan quoted) (hfunds : Funds quoted funded change) :
    Conserved request quoted funded change := by
  have hvalues := map_value_commitWith hquotes change
  rw [← hfunds.commitTx_eq] at hvalues
  have hbalance := hfunds.balance
  have hlt := hfunds.total_lt
  rw [hquotes.plan_eq, hresolves.amounts_eq] at hbalance hlt
  refine ⟨?_, hvalues, ?_, ?_, ?_, ?_, hlt⟩
  · rw [hquotes.length_quotes, hresolves.items.length_eq]
  · rw [hfunds.plan_eq]
    exact hfunds.minChange_le
  · intro output houtput
    have hmem : output.value ∈ quoted.lockedValues ++ change.toList :=
      hvalues ▸ List.mem_map_of_mem houtput
    rw [UInt64.lt_iff_toNat_lt]
    rcases List.mem_append.mp hmem with hlocked | hchange
    · exact hquotes.lockedValue_pos hresolves.revealValue_pos _ hlocked
    · have hle := hfunds.minChange_le _ (Option.mem_toList.mp hchange)
      rw [hquotes.plan_eq, UInt64.le_iff_toNat_le] at hle
      exact Nat.lt_of_lt_of_le hresolves.minChange_pos hle
  · intro reveal hreveal output houtput
    rw [hfunds.reveals_eq, hquotes.reveals_eq] at hreveal
    obtain ⟨entry, -, rfl⟩ := List.mem_map.mp hreveal
    obtain rfl := List.mem_singleton.mp houtput
    exact UInt64.lt_iff_toNat_lt.mpr hresolves.revealValue_pos
  · rw [hvalues, Amount.total_append, hbalance]

end FundedCommit

/-! ### Fees -/

namespace SignedReveals

/-- A difference is found if and only if it is an amount. -/
lemma difference_eq_ok_iff {a b c : Amount} :
    difference a b = .ok c ↔ b.toNat + c.toNat = a.toNat := by
  rw [difference]
  split_ifs with hlt
  · rw [UInt64.lt_iff_toNat_lt] at hlt
    simp only [false_iff]
    omega
  · rw [UInt64.lt_iff_toNat_lt] at hlt
    have hsub : (a - b).toNat = a.toNat - b.toNat := FundedCommit.toNat_sub_of_total (by omega)
    rw [Except.ok.injEq, ← UInt64.toNat_inj, hsub]
    omega

/-- The fee of a finished reveal is the one that was quoted. -/
lemma revealFee_eq_ok {plan : InscriptionPlan} {commitTx reveal : Transaction}
    {entry : PlannedItem × ℕ} {quote : RevealQuote} {output : TxOut}
    (hfinish : FinishOf plan commitTx entry reveal) (hquote : QuoteOf plan entry quote)
    (houtput : output.value = quote.lockedValue) : revealFee (reveal, output) = .ok quote.fee := by
  obtain ⟨_, _, -, -, rfl⟩ := hfinish
  simp only [revealFee, finishedReveal, List.map_cons, List.map_nil, bind_eq_ok_iff,
    Amount.checkedTotal_eq_ok_iff, difference_eq_ok_iff, houtput]
  refine ⟨plan.revealValue, ?_, hquote.lockedValue.symm⟩
  simp [Amount.total, sumOf]

/-- The fees read off the finished transactions are those that were fixed
before. -/
lemma fees_of_finishes {plan : InscriptionPlan} {quoted : QuotedReveals} {funded : FundedCommit}
    {commit : SignedCommit} {signed : SignedReveals} {change : Option Amount}
    (hquotes : Quotes plan quoted) (hfunds : FundedCommit.Funds quoted funded change)
    (hplan : commit.plan = plan)
    (houtputs : commit.commitTx.outputs = funded.commitTx.outputs)
    (hfinishes : Finishes commit signed) :
    signed.fees = .ok (funded.commitFee, quoted.quotes.map RevealQuote.fee) := by
  have hbalance := hfunds.balance
  have hlt := hfunds.total_lt
  rw [hquotes.plan_eq] at hbalance hlt
  have hvalues := FundedCommit.map_value_commitWith hquotes change
  have htotal : Amount.total ((FundedCommit.commitWith quoted change).outputs.map TxOut.value)
      = Amount.total quoted.lockedValues + Amount.total change.toList := by
    rw [hvalues, Amount.total_append]
  obtain ⟨commitIn, hin, hinNat⟩ := Amount.exists_checked hlt
  have htotal_lt : Amount.total ((FundedCommit.commitWith quoted change).outputs.map TxOut.value)
      < UInt64.size := by omega
  obtain ⟨commitOut, hout, houtNat⟩ := Amount.exists_checked htotal_lt
  simp only [fees, hfinishes.plan_eq, hfinishes.commitTx_eq, hplan, houtputs,
    hfunds.commitTx_eq, bind_eq_ok_iff, pure_eq_ok_iff]
  refine ⟨commitIn, hin, commitOut, hout, funded.commitFee,
    difference_eq_ok_iff.mpr (by omega), quoted.quotes.map RevealQuote.fee, ?_, rfl⟩
  have hreveals := hfinishes.reveals
  rw [hplan] at hreveals
  have hlength := congrArg List.length hvalues
  rw [List.length_map, List.length_append, QuotedReveals.lockedValues, List.length_map,
    hquotes.length_quotes] at hlength
  refine mapM_eq_ok_iff.mpr (forall₂_of_getElem? ?_ fun i pair fee hpair hfee => ?_)
  · rw [List.length_zip, List.length_map, hquotes.length_quotes, ← hreveals.length_eq,
      List.length_zipIdx, hlength]
    omega
  · rw [List.getElem?_map, Option.map_eq_some_iff] at hfee
    obtain ⟨quote, hquote, rfl⟩ := hfee
    obtain ⟨hreveal, houtput⟩ := List.getElem?_zip_eq_some.mp hpair
    obtain ⟨entry, hentry, hfinish⟩ := exists_getElem?_of_forall₂ hreveals.flip hreveal
    obtain ⟨quote', hquote', hof⟩ := exists_getElem?_of_forall₂ hquotes.quotes hentry
    obtain rfl : quote' = quote := Option.some.inj (hquote'.symm.trans hquote)
    have hvalue : ((FundedCommit.commitWith quoted change).outputs.map TxOut.value)[i]?
        = some quote'.lockedValue := by
      obtain ⟨hi, -⟩ := List.getElem?_eq_some_iff.mp hquote
      rw [hvalues, List.getElem?_append_left (by simpa [QuotedReveals.lockedValues] using hi)]
      simp [QuotedReveals.lockedValues, hquote]
    rw [List.getElem?_map, houtput, Option.map_some, Option.some.injEq] at hvalue
    exact revealFee_eq_ok hfinish hof hvalue

/-- Nothing that a finished reveal pays is zero. -/
lemma pos_of_finishes {commit : SignedCommit} {signed : SignedReveals}
    (hpos : 0 < commit.plan.revealValue.toNat) (hfinishes : Finishes commit signed) :
    ∀ reveal ∈ signed.reveals, ∀ output ∈ reveal.outputs, 0 < output.value := by
  intro reveal hreveal output houtput
  obtain ⟨i, hi, rfl⟩ := List.mem_iff_getElem.mp hreveal
  obtain ⟨entry, -, _, _, -, -, hreveal⟩ :=
    exists_getElem?_of_forall₂ hfinishes.reveals.flip (List.getElem?_eq_getElem hi)
  rw [hreveal] at houtput
  obtain rfl := List.mem_singleton.mp houtput
  exact UInt64.lt_iff_toNat_lt.mpr hpos

/-- The receipt shows the fees. -/
lemma exists_receipt_of_fees {signed : SignedReveals} {commitFee : Amount}
    {revealFees : List Amount} (h : signed.fees = .ok (commitFee, revealFees)) :
    ∃ receipt, signed.toReceipt = .ok receipt ∧ receipt.commitFee = commitFee ∧
      receipt.revealFees = revealFees := by
  simp only [toReceipt, h, bind_eq_ok_iff, pure_eq_ok_iff]
  exact ⟨_, ⟨_, rfl, rfl⟩, rfl, rfl⟩

end SignedReveals

/-! ### Runs -/

/-- **Value is conserved.** A commit transaction that is funded locks exactly the
quoted values, one for each inscription, and behind them at most one change of
at least the least change; no output of it or of a reveal is zero; and the funds
are the sum of its outputs and its fee, which no amount exceeds. If the run goes
on to the end, the fees that the receipt shows are the one fixed then and those
that were quoted. -/
theorem FundedCommit.conserved_of_run {request : InscriptionRequest} {params : ChainParams}
    {plan : InscriptionPlan} {quoted : QuotedReveals} {funded : FundedCommit}
    (hplan : InscriptionPlan.IsPlanFor request params plan)
    (hquoted : QuotedReveals.ofPlan plan = .ok quoted)
    (hfunded : FundedCommit.ofQuoted quoted = .ok funded) :
    (∃ change, Conserved request quoted funded change) ∧
      ∀ commit signed, (SignedCommit.ofFunded funded).outcome = .ok commit →
        (SignedReveals.ofCommit commit).outcome = .ok signed →
        (∀ reveal ∈ signed.reveals, ∀ output ∈ reveal.outputs, 0 < output.value) ∧
          signed.fees = .ok (funded.commitFee, quoted.quotes.map RevealQuote.fee) ∧
          ∃ receipt, signed.toReceipt = .ok receipt ∧ receipt.commitFee = funded.commitFee ∧
            receipt.revealFees = quoted.quotes.map RevealQuote.fee := by
  have hresolves := hplan.resolves
  have hquotes := QuotedReveals.quotes_of_ofPlan hquoted
  obtain ⟨change, hfunds⟩ := funds_of_ofQuoted hfunded
  refine ⟨⟨change, conserved_of_funds hresolves hquotes hfunds⟩, ?_⟩
  intro commit signed hcommit hsigned
  have hfinishes := SignedReveals.finishes_of_run hquotes hfunds hcommit hsigned
  have hplan_eq := SignedCommit.plan_of_run hquotes hfunds hcommit
  have hfees := SignedReveals.fees_of_finishes hquotes hfunds hplan_eq
    (SignedCommit.outputs_of_ofFunded hcommit) hfinishes
  refine ⟨SignedReveals.pos_of_finishes ?_ hfinishes, hfees,
    SignedReveals.exists_receipt_of_fees hfees⟩
  rw [hplan_eq]
  exact hresolves.revealValue_pos

/-- A run that comes to its end, with change. -/
theorem FundedCommit.conserved_of_run_sample :
    ∃ plan quoted funded commit signed,
      InscriptionPlan.IsPlanFor sampleRequest Chain.bitcoinRegtest.params plan ∧
      QuotedReveals.ofPlan plan = .ok quoted ∧ FundedCommit.ofQuoted quoted = .ok funded ∧
      (SignedCommit.ofFunded funded).outcome = .ok commit ∧
      (SignedReveals.ofCommit commit).outcome = .ok signed ∧
      (∃ change, Conserved sampleRequest quoted funded change) ∧
      signed.fees = .ok (funded.commitFee, quoted.quotes.map RevealQuote.fee) := by
  obtain ⟨plan, quoted, funded, commit, signed, hplan, hquoted, hfunded, hcommit, hsigned⟩ :=
    exists_run_sampleRequest
  obtain ⟨hconserved, hfees⟩ := conserved_of_run (.inl hplan) hquoted hfunded
  exact ⟨plan, quoted, funded, commit, signed, .inl hplan, hquoted, hfunded, hcommit, hsigned,
    hconserved, (hfees commit signed hcommit hsigned).2.1⟩

end CoinSpend
