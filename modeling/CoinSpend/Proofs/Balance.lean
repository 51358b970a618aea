import Mathlib.Data.List.Dedup
import CoinSpend.Proofs.Draft.Sign
import CoinSpend.Proofs.Inscription.Conservation

/-!
What a transaction pays is covered by what it spends.

* `Transaction.spentValue`: the value of the outputs that a transaction spends, each
  of them counted once. By `Transaction.spentValue_of_distinct` it is the sum of the
  values that are known of them, if none is spent twice.
* `Draft.Balances`: the totals of a draft are those of its spends as they are listed.
* `MadeOf`: the transaction of a signed draft or of a funded inscription, with the
  outputs that are named for it and what is looked up for them.
* `outputs_le_spentValue`: if no output is named twice, such a transaction is covered
  by what it spends.
* `spentValue_lt_outputs_of_repeated`: an output that is named twice counts twice in
  the total, so that the transaction may pay more than it spends.
-/

namespace CoinSpend

namespace Transaction

/-- The sum of the values that are known of the outputs that a transaction spends.
However many inputs spend an output, it counts once. -/
def spentValue (tx : Transaction) (lookup : Lookup) : ℕ :=
  sumOf (fun outpoint => (lookup outpoint).elim 0 fun output => output.value.toNat)
    (tx.inputs.map TxIn.previous).dedup

/-- The value depends on what is spent alone. -/
lemma spentValue_of_skeleton {tx other : Transaction} (h : tx.skeleton = other.skeleton)
    (lookup : Lookup) : tx.spentValue lookup = other.spentValue lookup := by
  rw [spentValue, map_previous_of_skeleton h, spentValue]

/-- If no output is spent twice, the value is the sum of what is known of them. -/
lemma spentValue_of_distinct {tx : Transaction} {entries : OutPoint.Table TxOut}
    (h : tx.inputs.map TxIn.previous = entries.map Prod.fst)
    (hdistinct : (entries.map Prod.fst).Nodup) :
    tx.spentValue entries.get? = Amount.total (entries.map fun entry => entry.2.value) := by
  rw [spentValue, h, List.Nodup.dedup hdistinct, OutPoint.Table.sumOf_get? _ hdistinct,
    Amount.total, sumOf_map]

end Transaction

/-! ### Drafts -/

namespace Draft

/-- What the unsigned transaction of a draft and the outputs that are looked up for
it have in common with the spends as they are listed. -/
structure Balances (draft : Draft) (tx : Transaction) (spends : List KeyedSpend) : Prop where
  previous_eq : tx.inputs.map TxIn.previous = draft.spends.map Spend.outpoint
  outpoints_eq : spends.map KeyedSpend.outpoint = draft.spends.map Spend.outpoint
  values_eq : spends.map (fun spend => spend.output.value) = draft.spends.map Spend.amount
  total_le : Amount.total (tx.outputs.map TxOut.value)
    ≤ Amount.total (draft.spends.map Spend.amount)

/-- A draft is prepared only if its spends as they are listed cover its outputs. -/
lemma balances_of_prepare {draft : Draft} {tx : Transaction} {spends : List KeyedSpend}
    (h : draft.prepare = .ok (tx, spends)) : draft.Balances tx spends := by
  obtain ⟨-, hcovered, _, outputs, hspends, houtputs, heq⟩ := prepare_eq_ok_iff.mp h
  obtain ⟨rfl, rfl⟩ := Prod.mk.inj heq
  refine ⟨draft.map_previous_unsigned outputs, (map_outpoint_of_readSpends hspends).symm,
    (map_amount_of_readSpends hspends).symm, ?_⟩
  calc Amount.total (outputs.map TxOut.value)
      = Amount.total ((draft.payments.filter draft.keeps).map Payment.amount) := by
        rw [map_value_of_keptOutputs houtputs]
    _ ≤ Amount.total (draft.spends.map Spend.amount) := hcovered.le

/-- A signed draft is the prepared transaction, signed. -/
lemma exists_prepare_of_sign {draft : Draft} {t : Transaction} (h : draft.sign.outcome = .ok t) :
    ∃ tx spends, draft.prepare = .ok (tx, spends) ∧ t.skeleton = tx.skeleton := by
  obtain ⟨hparts, hcovered, spends, outputs, hspends, houtputs, hsigned⟩ := sign_eq_ok_iff.mp h
  exact ⟨_, spends, prepare_eq_ok_iff.mpr
    ⟨hparts, hcovered, spends, outputs, hspends, houtputs, rfl⟩,
    Transaction.skeleton_of_trialSigned hsigned⟩

/-- Spends of different outputs are worth what is looked up for them. -/
lemma Balances.spentValue_eq {draft : Draft} {tx : Transaction} {spends : List KeyedSpend}
    (h : draft.Balances tx spends) (hdistinct : (draft.spends.map Spend.outpoint).Nodup) :
    tx.spentValue (lookup spends) = Amount.total (draft.spends.map Spend.amount) := by
  have hkeys : (spends.map fun spend => (spend.outpoint, spend.output)).map Prod.fst
      = draft.spends.map Spend.outpoint := by
    rw [List.map_map, ← h.outpoints_eq]
    rfl
  rw [lookup, Transaction.spentValue_of_distinct (h.previous_eq.trans hkeys.symm)
    (hkeys ▸ hdistinct), List.map_map, ← h.values_eq]
  rfl

end Draft

/-! ### Inscriptions -/

/-- Funds at different outputs are worth what is looked up for them. -/
lemma FundedCommit.Funds.spentValue_eq {request : InscriptionRequest} {params : ChainParams}
    {plan : InscriptionPlan} {quoted : QuotedReveals} {funded : FundedCommit}
    {change : Option Amount} (hresolves : InscriptionPlan.Resolves request params plan)
    (hquotes : QuotedReveals.Quotes plan quoted) (hfunds : Funds quoted funded change)
    (hdistinct : (request.funding.map FundingOutput.outpoint).Nodup) :
    funded.commitTx.spentValue plan.lookup = Amount.total plan.amounts := by
  have hentries : (plan.funding.map fun f => (f.outpoint, f.output)).map Prod.fst
      = plan.funding.map FundingInput.outpoint := List.map_map
  have hprevious : funded.commitTx.inputs.map TxIn.previous
      = plan.funding.map FundingInput.outpoint := by
    rw [hfunds.commitTx_eq, commitWith, hquotes.plan_eq, List.map_map]
    rfl
  rw [InscriptionPlan.lookup, Transaction.spentValue_of_distinct (hprevious.trans hentries.symm)
    (hentries ▸ hresolves.outpoints_eq ▸ hdistinct), List.map_map]
  rfl

/-! ### Both -/

/-- What is looked up for the spends of a draft when it is signed. -/
def Draft.knownOutputs (draft : Draft) : Lookup :=
  match draft.prepare with
  | .ok (_, spends) => lookup spends
  | .error _ => fun _ => none

/-- A transaction that spends the outputs named for it: that of a signed draft, or the
commit transaction of a request. The outputs are looked up by their references. -/
inductive MadeOf : List OutPoint → Lookup → Transaction → Prop where
  | draft {draft : Draft} {t : Transaction} (hsign : draft.sign.outcome = .ok t) :
      MadeOf (draft.spends.map Spend.outpoint) draft.knownOutputs t
  | inscription {request : InscriptionRequest} {params : ChainParams} {plan : InscriptionPlan}
      {quoted : QuotedReveals} {funded : FundedCommit}
      (hplan : InscriptionPlan.IsPlanFor request params plan)
      (hquoted : QuotedReveals.ofPlan plan = .ok quoted)
      (hfunded : FundedCommit.ofQuoted quoted = .ok funded) :
      MadeOf (request.funding.map FundingOutput.outpoint) plan.lookup funded.commitTx

/-- **Outputs that are named once count once.** If no output is named twice for a
signed draft or a funded inscription, then what the transaction pays is not worth more
than the different outputs that it spends, by the values that are looked up for
these. -/
theorem outputs_le_spentValue {named : List OutPoint} {lookup : Lookup} {t : Transaction}
    (h : MadeOf named lookup t) (hdistinct : named.Nodup) :
    Amount.total (t.outputs.map TxOut.value) ≤ t.spentValue lookup := by
  cases h with
  | draft hsign =>
      obtain ⟨tx, spends, hprepare, hskeleton⟩ := Draft.exists_prepare_of_sign hsign
      have hbalances := Draft.balances_of_prepare hprepare
      rw [Draft.knownOutputs, hprepare, Transaction.outputs_of_skeleton hskeleton,
        Transaction.spentValue_of_skeleton hskeleton, hbalances.spentValue_eq hdistinct]
      exact hbalances.total_le
  | inscription hplan hquoted hfunded =>
      have hresolves := hplan.resolves
      have hquotes := QuotedReveals.quotes_of_ofPlan hquoted
      obtain ⟨change, hfunds⟩ := FundedCommit.funds_of_ofQuoted hfunded
      have htotal := (FundedCommit.conserved_of_funds hresolves hquotes hfunds).total_eq
      rw [hfunds.spentValue_eq hresolves hquotes hdistinct, hresolves.amounts_eq]
      omega

/-- Two spends of a thousand units each and a payment of both. The second spend is
of the output `vout`, the first one of the output zero of the same transaction. -/
def Draft.ofPair (vout : UInt32) : Draft where
  version := 2
  params := Chain.bitcoin.params
  dustFloor := 546
  spends := [0, vout].map fun vout => {
    txid := .zero
    vout
    amount := 1000
    lock := .script "76a914751e76e8199196d454941c45d1b3a323f1433bd688ac"
    privateKey := some "0000000000000000000000000000000000000000000000000000000000000001" }
  payments := [⟨.script "76a914751e76e8199196d454941c45d1b3a323f1433bd688ac", 2000, false⟩]

/-- Such a draft is signed; what is found for the spends is worth as much as the
payment if they are different, and half of it if they are one. -/
lemma Draft.exists_sign_ofPair (vout : UInt32) (value : ℕ)
    (h : (Draft.ofPair vout).prepare.toOption.any (fun (tx, spends) =>
      tx.spentValue (lookup spends) = value ∧ Amount.total (tx.outputs.map TxOut.value) = 2000 ∧
      tx.Signable (spends.map KeyedSpend.key) (lookup spends))) :
    ∃ t, (Draft.ofPair vout).sign.outcome = .ok t ∧
      t.spentValue (Draft.ofPair vout).knownOutputs = value ∧
      Amount.total (t.outputs.map TxOut.value) = 2000 := by
  obtain ⟨⟨tx, spends⟩, hprepare, htest⟩ := exists_eq_ok_of_any h
  obtain ⟨hvalue, htotal, hsignable⟩ := of_decide_eq_true htest
  obtain ⟨t, ht⟩ := Transaction.exists_trialSigned_iff.mpr hsignable
  have hskeleton := Transaction.skeleton_of_trialSigned ht
  refine ⟨t, ?_, ?_, ?_⟩
  · simp only [sign, Metered.outcome_bind, Metered.outcome_liftM, Metered.outcome_record,
      Metered.outcome_pure, bind_eq_ok_iff, Transaction.outcome_sign]
    exact ⟨(tx, spends), hprepare, t, ht, (), trivial, rfl⟩
  · rw [knownOutputs, hprepare, Transaction.spentValue_of_skeleton hskeleton, hvalue]
  · rw [Transaction.outputs_of_skeleton hskeleton, htotal]

/-- The two spends of a draft are different, and the one funding output of a request
is named once. -/
theorem outputs_le_spentValue_sample :
    (∃ t, (Draft.ofPair 1).sign.outcome = .ok t ∧
      Amount.total (t.outputs.map TxOut.value) ≤ t.spentValue (Draft.ofPair 1).knownOutputs) ∧
    ∃ plan quoted funded,
      InscriptionPlan.IsPlanFor sampleRequest Chain.bitcoinRegtest.params plan ∧
      QuotedReveals.ofPlan plan = .ok quoted ∧ FundedCommit.ofQuoted quoted = .ok funded ∧
      Amount.total (funded.commitTx.outputs.map TxOut.value)
        ≤ funded.commitTx.spentValue plan.lookup := by
  constructor
  · obtain ⟨t, hsign, -⟩ := Draft.exists_sign_ofPair 1 2000 (by decide +kernel)
    have hdistinct : ((Draft.ofPair 1).spends.map Spend.outpoint).Nodup := by decide
    exact ⟨t, hsign, outputs_le_spentValue (.draft hsign) hdistinct⟩
  · obtain ⟨plan, quoted, funded, _, _, hplan, hquoted, hfunded, -⟩ := exists_run_sampleRequest
    have hdistinct : (sampleRequest.funding.map FundingOutput.outpoint).Nodup :=
      List.nodup_singleton _
    exact ⟨plan, quoted, funded, .inl hplan, hquoted, hfunded,
      outputs_le_spentValue (.inscription (.inl hplan) hquoted hfunded) hdistinct⟩

/-- **An output that is named twice counts twice.** A draft that names an output of a
thousand units twice is signed, and the transaction pays two thousand units. -/
theorem spentValue_lt_outputs_of_repeated :
    ∃ t, (Draft.ofPair 0).sign.outcome = .ok t ∧
      t.spentValue (Draft.ofPair 0).knownOutputs = 1000 ∧
      Amount.total (t.outputs.map TxOut.value) = 2000 :=
  Draft.exists_sign_ofPair 0 1000 (by decide +kernel)

end CoinSpend
