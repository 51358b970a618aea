import CoinSpend.Proofs.Address.Lock
import CoinSpend.Proofs.Inscription.Conservation
import CoinSpend.Proofs.Taproot

/-!
The size of finished reveals.

* `SignedReveals.weight_of_finishOf`: the finished reveal has the weight that was
  foreseen, whatever its signature is.
* `SignedReveals.virtualSize_of_finishOf`: hence its virtual size is the size that its
  quote pays for.
* `SignedReveals.effectiveSize_of_finishOf`: the checks of signatures in a
  finished reveal cost less than its bytes.
* `SignedReveals.paysForSize_of_run`: hence every reveal of a run pays the rate
  for exactly its own virtual size.
-/

namespace CoinSpend

open QuotedReveals (blankReveal)

namespace SignedReveals

/-! ### One reveal -/

section Finished

variable {params : ChainParams} {plan : InscriptionPlan} {commitTx reveal : Transaction}
  {inscription : Inscription} {item : PlannedItem} {position : ℕ}

/-- Pointing a reveal at a transaction and putting its witness in leaves its size
without witnesses as it is. -/
lemma weight_finishedReveal (plan : InscriptionPlan) (txid : Txid) (vout : ℕ)
    (item : PlannedItem) (signature : Bytes) :
    (finishedReveal plan txid vout item signature).weight
      = 4 * (blankReveal plan vout item).baseSize + 2
        + witnessSize [signature, item.output.envelope, item.output.controlBlock.encode] := by
  have hbase : (finishedReveal plan txid vout item signature).baseSize
      = (blankReveal plan vout item).baseSize := rfl
  rw [Transaction.weight_of_lone rfl (List.cons_ne_nil _ _), hbase]

/-- The witness of a finished reveal has the size that was assumed for it. -/
lemma witnessSize_of_carries (hcarries : item.Carries params plan.revealKey.xOnly inscription)
    {signature : Bytes} (h64 : signature.length = 64) :
    witnessSize [signature, item.output.envelope, item.output.controlBlock.encode]
      = witnessSize (RevealQuote.witness item.output.envelope) := by
  have h33 : item.output.controlBlock.encode.length = 33 := by
    rw [hcarries.controlBlock, ControlBlock.length_encode_single]
  exact RevealQuote.witnessSize_of_length h64 h33 item.output.envelope

/-- The weight of a finished reveal was known before it was signed. -/
lemma weight_of_finishOf (hcarries : item.Carries params plan.revealKey.xOnly inscription)
    (h : FinishOf plan commitTx (item, position) reveal) :
    reveal.weight
      = RevealQuote.signedWeight (blankReveal plan position item) item.output.envelope := by
  obtain ⟨_, digest, -, -, rfl⟩ := h
  rw [weight_finishedReveal, witnessSize_of_carries hcarries (Schnorr.length_sign _ _),
    RevealQuote.signedWeight, length_encodeWitness]

/-- The size that was paid for is the virtual size of the finished reveal. -/
lemma virtualSize_of_finishOf (hcarries : item.Carries params plan.revealKey.xOnly inscription)
    (h : FinishOf plan commitTx (item, position) reveal) :
    reveal.virtualSize
      = RevealQuote.paidSize (blankReveal plan position item) item.output.envelope := by
  rw [Transaction.virtualSize, weight_of_finishOf hcarries h, RevealQuote.paidSize_eq]
  rfl

/-- A finished reveal checks no signature but the one its receiver may ask for,
which costs less than its bytes. -/
lemma effectiveSize_of_finishOf (hcarries : item.Carries params plan.revealKey.xOnly inscription)
    (h : FinishOf plan commitTx (item, position) reveal) :
    reveal.effectiveSize
        [(⟨commitTx.txid, UInt32.ofNat position⟩, item.output.lockScript)]
      = .ok reveal.virtualSize := by
  have hvirtual := virtualSize_of_finishOf hcarries h
  obtain ⟨_, digest, -, -, rfl⟩ := h
  have htr : item.output.lockScript.isP2tr := by
    rw [hcarries.lockScript]
    exact Script.isP2tr_iff.mpr ⟨_, XOnlyKey.length_eq _, rfl⟩
  have hsigops := Address.sigops_le_of_toScript hcarries.receiver
  refine Transaction.effectiveSize_of_le
    (Transaction.inputCosts_of_isP2tr fun input hinput => ?_) ?_
  · obtain rfl := List.mem_singleton.mp hinput
    exact ⟨_, by simp [OutPoint.Table.get?], htr⟩
  · rw [hvirtual, Transaction.legacySigops_of_bare (by simp [finishedReveal]),
      RevealQuote.paidSize, RevealQuote.discountedSize, Transaction.baseSize, witnessScale]
    simp only [finishedReveal, sumOf]
    omega

end Finished

/-! ### Runs -/

/-- The reveal at a position pays the rate for exactly its virtual size, and this is
what is paid for where the script of the commit output that it spends is known. -/
structure PaysForSize (commitTx : Transaction) (position : ℕ) (rate : UInt64)
    (reveal : Transaction) (fee : Amount) : Prop where
  fee_eq : fee.toNat = rate.toNat * reveal.virtualSize
  effectiveSize_eq : ∃ input spent, reveal.inputs = [input] ∧
    input.previous.txid = commitTx.txid ∧ input.previous.vout.toNat = position ∧
    commitTx.outputs[position]? = some spent ∧
    reveal.effectiveSize [(input.previous, spent.script)] = .ok reveal.virtualSize

/-- **Reveals pay for exactly their size.** After a whole run there is one fee for
each inscription. The fee of the reveal at a position is the one that was quoted
before anything was known of the commit transaction; it is the rate for the
virtual size of the finished reveal, which no check of signatures exceeds when the
script of the commit output at this position is known. -/
theorem paysForSize_of_run {request : InscriptionRequest} {params : ChainParams}
    {plan : InscriptionPlan} {quoted : QuotedReveals} {funded : FundedCommit}
    {commit : SignedCommit} {signed : SignedReveals}
    (hplan : InscriptionPlan.IsPlanFor request params plan)
    (hquoted : QuotedReveals.ofPlan plan = .ok quoted)
    (hfunded : FundedCommit.ofQuoted quoted = .ok funded)
    (hcommit : (SignedCommit.ofFunded funded).outcome = .ok commit)
    (hsigned : (SignedReveals.ofCommit commit).outcome = .ok signed) :
    ∃ receipt, signed.toReceipt = .ok receipt ∧
      receipt.revealFees = quoted.quotes.map RevealQuote.fee ∧
      receipt.revealFees.length = request.inscriptions.length ∧
      signed.reveals.length = request.inscriptions.length ∧
      ∀ (i : ℕ) reveal, signed.reveals[i]? = some reveal →
        ∃ fee, receipt.revealFees[i]? = some fee ∧
          PaysForSize signed.commitTx i request.revealFeeRate reveal fee := by
  have hresolves := hplan.resolves
  have hquotes := QuotedReveals.quotes_of_ofPlan hquoted
  obtain ⟨change, hfunds⟩ := FundedCommit.funds_of_ofQuoted hfunded
  have hplan_eq := SignedCommit.plan_of_run hquotes hfunds hcommit
  have houtputs := SignedCommit.outputs_of_ofFunded hcommit
  have hfinishes := finishes_of_run hquotes hfunds hcommit hsigned
  obtain ⟨receipt, hreceipt, -, hfees⟩ :=
    exists_receipt_of_fees (fees_of_finishes hquotes hfunds hplan_eq houtputs hfinishes)
  have hreveals := hfinishes.reveals
  rw [hplan_eq] at hreveals
  refine ⟨receipt, hreceipt, hfees, ?_, ?_, fun i reveal hi => ?_⟩
  · rw [hfees, List.length_map, hquotes.length_quotes, hresolves.items.length_eq]
  · rw [← hreveals.length_eq, List.length_zipIdx, hresolves.items.length_eq]
  · obtain ⟨⟨item, position⟩, hentry, hfinish⟩ := exists_getElem?_of_forall₂ hreveals.flip hi
    obtain ⟨hitem, rfl⟩ : plan.items[i]? = some item ∧ i = position := by
      simpa [List.getElem?_zipIdx] using hentry
    obtain ⟨inscription, -, hcarries⟩ := exists_getElem?_of_forall₂ hresolves.items.flip hitem
    obtain ⟨quote, hquote, hof, houtput⟩ :=
      FundedCommit.exists_output_of_item hquotes change hitem
    have hlt : i < UInt32.size :=
      hquotes.lt_size i (List.getElem?_eq_some_iff.mp hitem).1
    rw [← hfunds.commitTx_eq, ← houtputs] at houtput
    rw [hfinishes.commitTx_eq]
    refine ⟨quote.fee, by rw [hfees, List.getElem?_map, hquote]; rfl, ?_, ?_⟩
    · rw [virtualSize_of_finishOf hcarries hfinish, hof.fee, hresolves.revealFeeRate,
        Nat.mul_comm]
    · have heffective := effectiveSize_of_finishOf hcarries hfinish
      obtain ⟨_, _, -, -, rfl⟩ := hfinish
      exact ⟨_, _, rfl, rfl, UInt32.toNat_ofNat_of_lt' hlt, houtput, heffective⟩

/-- A run for two inscriptions, and the fee of its second reveal, whose body takes
two pieces. -/
theorem paysForSize_of_run_sample :
    ∃ plan quoted funded commit signed,
      InscriptionPlan.IsPlanFor sampleRequest Chain.bitcoinRegtest.params plan ∧
      QuotedReveals.ofPlan plan = .ok quoted ∧ FundedCommit.ofQuoted quoted = .ok funded ∧
      (SignedCommit.ofFunded funded).outcome = .ok commit ∧
      (SignedReveals.ofCommit commit).outcome = .ok signed ∧
      ∃ receipt reveal fee, signed.toReceipt = .ok receipt ∧ signed.reveals[1]? = some reveal ∧
        receipt.revealFees[1]? = some fee ∧ PaysForSize signed.commitTx 1 3 reveal fee := by
  obtain ⟨plan, quoted, funded, commit, signed, hplan, hquoted, hfunded, hcommit, hsigned⟩ :=
    exists_run_sampleRequest
  obtain ⟨receipt, hreceipt, -, -, hlength, hpays⟩ :=
    paysForSize_of_run (.inl hplan) hquoted hfunded hcommit hsigned
  obtain ⟨reveal, hreveal⟩ : ∃ reveal, signed.reveals[1]? = some reveal :=
    ⟨_, List.getElem?_eq_getElem (hlength ▸ by decide)⟩
  obtain ⟨fee, hfee, hpaysFor⟩ := hpays 1 _ hreveal
  exact ⟨plan, quoted, funded, commit, signed, .inl hplan, hquoted, hfunded, hcommit, hsigned,
    receipt, _, fee, hreceipt, hreveal, hfee, hpaysFor⟩

end SignedReveals

end CoinSpend
