import CoinSpend.Proofs.Inscription.Finish
import CoinSpend.Proofs.Taproot

/-!
Finished reveals spend the commit transaction along its scripts.

* `SignedReveals.Opened`: a reveal spends the output of the commit transaction
  at its own position, and its witness shows the envelope of its inscription
  with the proof that opens this output.
* `SignedReveals.opened_of_run`: after a whole run this is so for every
  inscription of the request. The reveals point at the transaction with all its
  signatures, whatever kinds of output pay for it.
-/

namespace CoinSpend

namespace SignedReveals

/-- A reveal at a position spends the output of the commit transaction at the
same position, which locks the quoted value with the script of the planned
envelope, and its witness is a signature, the envelope and a proof that opens
the output for the envelope. -/
structure Opened (commitTx : Transaction) (position : ℕ) (envelope lockScript : Script)
    (quote : RevealQuote) (reveal : Transaction) : Prop where
  output : commitTx.outputs[position]? = some ⟨quote.lockedValue, lockScript⟩
  input : ∃ input, reveal.inputs = [input] ∧
    input.previous.txid = commitTx.txid ∧ input.previous.vout.toNat = position ∧
    ∃ signature proof, input.witness = [signature, envelope, proof] ∧
      signature.length = 64 ∧ proof.length = 33 ∧ Taproot.Opens proof envelope lockScript

/-- The reveal of an item of a plan opens the output at its position. -/
lemma opened_of_finishOf {params : ChainParams} {plan : InscriptionPlan} {commitTx : Transaction}
    {position : ℕ} {inscription : Inscription} {item : PlannedItem} {quote : RevealQuote}
    {reveal : Transaction} (hcarries : item.Carries params plan.revealKey.xOnly inscription)
    (hposition : position < UInt32.size)
    (houtput : commitTx.outputs[position]? = some ⟨quote.lockedValue, item.output.lockScript⟩)
    (h : FinishOf plan commitTx (item, position) reveal) :
    Opened commitTx position item.output.envelope item.output.lockScript quote reveal := by
  obtain ⟨_, digest, -, -, rfl⟩ := h
  refine ⟨houtput, _, rfl, rfl, UInt32.toNat_ofNat_of_lt' hposition, _, _, rfl,
    Schnorr.length_sign _ _, ?_, ?_⟩
  · rw [hcarries.controlBlock, ControlBlock.length_encode_single]
  · rw [hcarries.controlBlock, hcarries.lockScript]
    exact Taproot.opens_single plan.revealKey.lifts_xOnly _

/-- **Every reveal opens its commit output.** After a whole run there is one
reveal for each inscription. The one at the position of an inscription spends
the output at this position of the commit transaction that is handed out; the
output locks what was quoted with the script that commits to the envelope of the
inscription, and the witness opens it for this envelope. -/
theorem opened_of_run {request : InscriptionRequest} {params : ChainParams}
    {plan : InscriptionPlan} {quoted : QuotedReveals} {funded : FundedCommit}
    {commit : SignedCommit} {signed : SignedReveals}
    (hplan : InscriptionPlan.IsPlanFor request params plan)
    (hquoted : QuotedReveals.ofPlan plan = .ok quoted)
    (hfunded : FundedCommit.ofQuoted quoted = .ok funded)
    (hcommit : (SignedCommit.ofFunded funded).outcome = .ok commit)
    (hsigned : (SignedReveals.ofCommit commit).outcome = .ok signed) :
    signed.reveals.length = request.inscriptions.length ∧
      ∀ i inscription, request.inscriptions[i]? = some inscription →
        ∃ item quote reveal, plan.items[i]? = some item ∧ quoted.quotes[i]? = some quote ∧
          signed.reveals[i]? = some reveal ∧
          item.output.envelope = Envelope.script inscription plan.revealKey.xOnly ∧
          Opened signed.commitTx i item.output.envelope item.output.lockScript quote reveal := by
  have hresolves := hplan.resolves
  have hquotes := QuotedReveals.quotes_of_ofPlan hquoted
  obtain ⟨change, hfunds⟩ := FundedCommit.funds_of_ofQuoted hfunded
  have houtputs := SignedCommit.outputs_of_ofFunded hcommit
  have hfinishes := finishes_of_run hquotes hfunds hcommit hsigned
  have hreveals := hfinishes.reveals
  rw [hfinishes.commitTx_eq]
  rw [SignedCommit.plan_of_run hquotes hfunds hcommit] at hreveals
  refine ⟨?_, fun i inscription hi => ?_⟩
  · rw [← hreveals.length_eq, List.length_zipIdx, hresolves.items.length_eq]
  · obtain ⟨item, hitem, hcarries⟩ := exists_getElem?_of_forall₂ hresolves.items hi
    have hlt : i < plan.items.length := (List.getElem?_eq_some_iff.mp hitem).1
    obtain ⟨quote, hquote, -, houtput⟩ :=
      FundedCommit.exists_output_of_item hquotes change hitem
    have hentry : plan.items.zipIdx[i]? = some (item, i) := by simp [hitem]
    obtain ⟨reveal, hreveal, hfinish⟩ := exists_getElem?_of_forall₂ hreveals hentry
    refine ⟨item, quote, reveal, hitem, hquote, hreveal, hcarries.envelope, ?_⟩
    rw [hfunds.commitTx_eq] at houtputs
    exact opened_of_finishOf hcarries (hquotes.lt_size i hlt) (houtputs ▸ houtput) hfinish

/-- A run for two inscriptions, and its second reveal. -/
theorem opened_of_run_sample :
    ∃ plan quoted funded commit signed,
      InscriptionPlan.IsPlanFor sampleRequest Chain.bitcoinRegtest.params plan ∧
      QuotedReveals.ofPlan plan = .ok quoted ∧ FundedCommit.ofQuoted quoted = .ok funded ∧
      (SignedCommit.ofFunded funded).outcome = .ok commit ∧
      (SignedReveals.ofCommit commit).outcome = .ok signed ∧
      signed.reveals.length = 2 ∧
      ∃ item quote reveal, plan.items[1]? = some item ∧ quoted.quotes[1]? = some quote ∧
        signed.reveals[1]? = some reveal ∧
        item.output.envelope = Envelope.script sampleInscription plan.revealKey.xOnly ∧
        Opened signed.commitTx 1 item.output.envelope item.output.lockScript quote reveal := by
  obtain ⟨plan, quoted, funded, commit, signed, hplan, hquoted, hfunded, hcommit, hsigned⟩ :=
    exists_run_sampleRequest
  obtain ⟨hlength, hopened⟩ := opened_of_run (.inl hplan) hquoted hfunded hcommit hsigned
  exact ⟨plan, quoted, funded, commit, signed, .inl hplan, hquoted, hfunded, hcommit, hsigned,
    hlength, hopened 1 sampleInscription rfl⟩

end SignedReveals

end CoinSpend
