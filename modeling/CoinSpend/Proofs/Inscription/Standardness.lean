import CoinSpend.Proofs.Inscription.RevealSize
import CoinSpend.Proofs.Signing.Refusal

/-!
What can go wrong once an inscription is funded.

* `FirstHeavy`: the least position of a list of weights at which one is larger
  than what is relayed.
* `QuotedReveals.signedWeights`: the weights that the reveals will have, before
  anything is funded or signed.
* `FundedCommit.exists_ofFunded`: a funded commit transaction can be signed, since
  its fee was reckoned with a signed copy.
* `SignedReveals.exists_signFrom`: its reveals can be signed, since every one of
  them finds the output that it spends.
* `FundedCommit.stops_only_at_weight`: hence the weights alone decide about the
  rest of the run, and were known before it.
-/

namespace CoinSpend

open QuotedReveals (Quotes blankReveal)
open FundedCommit (Funds)

/-! ### Weights in order -/

/-- The weight at a position is too large, and every earlier one is not. -/
structure FirstHeavy (weights : List ℕ) (position weight : ℕ) : Prop where
  weight_eq : weights[position]? = some weight
  heavy : maxStandardWeight < weight
  earlier : ∀ (j : ℕ) other, j < position → weights[j]? = some other →
    other ≤ maxStandardWeight

section Weights

variable {weights : List ℕ} {head position weight : ℕ}

lemma firstHeavy_cons_of_lt (h : maxStandardWeight < head) :
    FirstHeavy (head :: weights) position weight ↔ position = 0 ∧ weight = head := by
  constructor
  · rintro ⟨hweight, -, hearlier⟩
    cases position with
    | zero => exact ⟨rfl, by simpa [eq_comm] using hweight⟩
    | succ position => exact absurd (hearlier 0 head (by omega) rfl) (by omega)
  · rintro ⟨rfl, rfl⟩
    exact ⟨rfl, h, fun j _ hj => absurd hj (by omega)⟩

lemma firstHeavy_cons_of_le (h : head ≤ maxStandardWeight) :
    FirstHeavy (head :: weights) position weight ↔
      ∃ i, position = i + 1 ∧ FirstHeavy weights i weight := by
  constructor
  · rintro ⟨hweight, hheavy, hearlier⟩
    cases position with
    | zero =>
        obtain rfl : head = weight := by simpa using hweight
        omega
    | succ i =>
        refine ⟨i, rfl, by simpa using hweight, hheavy, fun j other hj hother => ?_⟩
        exact hearlier (j + 1) other (by omega) (by simpa using hother)
  · rintro ⟨i, rfl, hweight, hheavy, hearlier⟩
    refine ⟨by simpa using hweight, hheavy, fun j other hj hother => ?_⟩
    cases j with
    | zero =>
        obtain rfl : head = other := by simpa using hother
        exact h
    | succ j => exact hearlier j other (by omega) (by simpa using hother)

end Weights

namespace SignedReveals

variable {reveals : List Transaction} {index : ℕ}

/-- The check succeeds if no reveal is too heavy. -/
lemma checkWeights_eq_ok_iff :
    checkWeights index reveals = .ok () ↔
      ∀ weight ∈ reveals.map Transaction.weight, weight ≤ maxStandardWeight := by
  induction reveals generalizing index with
  | nil => simp [checkWeights]
  | cons reveal rest ih =>
      rw [checkWeights, List.map_cons, List.forall_mem_cons]
      split_ifs with hheavy
      · simp only [false_iff]
        omega
      · rw [ih]
        exact ⟨fun h => ⟨by omega, h⟩, fun h => h.2⟩

/-- The check fails with the first reveal that is too heavy, and with nothing
else. -/
lemma checkWeights_eq_error_iff {e : TxError} :
    checkWeights index reveals = .error e ↔
      ∃ i weight, FirstHeavy (reveals.map Transaction.weight) i weight ∧
        e = .standardnessViolation (index + i) weight maxStandardWeight := by
  induction reveals generalizing index with
  | nil =>
      simp only [checkWeights, List.map_nil, reduceCtorEq, false_iff]
      rintro ⟨i, weight, hfirst, -⟩
      simpa using hfirst.weight_eq
  | cons reveal rest ih =>
      rw [checkWeights, List.map_cons]
      split_ifs with hheavy
      · simp only [firstHeavy_cons_of_lt hheavy, Except.error.injEq]
        constructor
        · rintro rfl
          exact ⟨0, _, ⟨rfl, rfl⟩, rfl⟩
        · rintro ⟨_, _, ⟨rfl, rfl⟩, rfl⟩
          rfl
      · simp only [firstHeavy_cons_of_le (Nat.le_of_not_lt hheavy), ih]
        constructor
        · rintro ⟨i, weight, hfirst, rfl⟩
          exact ⟨i + 1, weight, ⟨i, rfl, hfirst⟩, by rw [Nat.add_assoc, Nat.add_comm 1]⟩
        · rintro ⟨_, weight, ⟨i, rfl, hfirst⟩, rfl⟩
          exact ⟨i, weight, hfirst, by rw [Nat.add_assoc, Nat.add_comm 1]⟩

end SignedReveals

/-- The weights that reveals will have once they are signed, in order. -/
def QuotedReveals.signedWeights (quoted : QuotedReveals) : List ℕ :=
  List.zipWith (fun reveal item => RevealQuote.signedWeight reveal item.output.envelope)
    quoted.reveals quoted.plan.items

/-! ### Signing what is funded -/

/-- A commit transaction that is funded was signed before, with other outputs. -/
lemma FundedCommit.exists_ofFunded {quoted : QuotedReveals} {funded : FundedCommit}
    (h : ofQuoted quoted = .ok funded) :
    ∃ commit, (SignedCommit.ofFunded funded).outcome = .ok commit := by
  obtain ⟨change, hfunds⟩ := funds_of_ofQuoted h
  simp only [ofQuoted, trialFee, bind_eq_ok_iff] at h
  obtain ⟨_, -, _, -, _, ⟨signed, hsigned, -⟩, -⟩ := h
  have hinputs : (commitWith quoted (some 0)).inputs = funded.commitTx.inputs := by
    rw [hfunds.commitTx_eq]
    rfl
  obtain ⟨t, ht⟩ := Transaction.exists_trialSigned_congr hinputs hsigned
  rw [← hfunds.plan_eq] at ht
  exact ⟨_, SignedCommit.ofFunded_eq_ok_iff.mpr ⟨t, ht, rfl⟩⟩

/-- A lone input can always be signed for a script. -/
lemma Transaction.exists_signLeaf {tx : Transaction} {input : TxIn} (hinput : tx.inputs = [input])
    (leafScript : Script) (block : ControlBlock) (key : PrivateKey) (output : TxOut) :
    ∃ t, (tx.signLeaf 0 leafScript block key [output]).outcome = .ok t := by
  have hlength : [output].length = tx.inputs.length := by rw [hinput]; rfl
  rw [signLeaf_of_valid hlength (hlength ▸ Nat.one_pos)]
  exact ⟨_, rfl⟩

namespace SignedReveals

/-- The reveals of items can be signed if there is an output for each of them. -/
lemma exists_signFrom (plan : InscriptionPlan) (commitTx : Transaction) (index : ℕ)
    (items : List PlannedItem) (h : ∀ i < items.length, index + i < commitTx.outputs.length) :
    ∃ reveals, (signFrom plan.revealKey commitTx index
      ((items.zipIdx index).map fun entry => (blankReveal plan entry.2 entry.1, entry.1))).outcome
        = .ok reveals := by
  induction items generalizing index with
  | nil => exact ⟨[], rfl⟩
  | cons item rest ih =>
      have hindex : index < commitTx.outputs.length := by
        simpa using h 0 (by simp)
      obtain ⟨others, hothers⟩ := ih (index + 1) fun i hi => by
        have := h (i + 1) (by simpa using hi)
        omega
      have hinput : (pointAt commitTx.txid (blankReveal plan index item)).inputs = [_] := rfl
      obtain ⟨signed, hsigned⟩ := Transaction.exists_signLeaf hinput item.output.envelope
        item.output.controlBlock plan.revealKey commitTx.outputs[index]
      refine ⟨signed :: others, ?_⟩
      simp only [List.zipIdx_cons, List.map_cons, signFrom, List.getElem?_eq_getElem hindex,
        Metered.outcome_bind, hsigned, hothers]
      rfl

/-- The reveals of a commit transaction with an output for each of them are
finished; what is left to do is to check their weights. -/
lemma exists_finishes {commit : SignedCommit}
    (hreveals : commit.reveals
      = commit.plan.items.zipIdx.map fun entry => blankReveal commit.plan entry.2 entry.1)
    (houtputs : commit.plan.items.length ≤ commit.commitTx.outputs.length) :
    ∃ signed, Finishes commit signed ∧
      (ofCommit commit).outcome = checkWeights 0 signed.reveals >>= fun _ => .ok signed := by
  obtain ⟨reveals, hsigned⟩ := exists_signFrom commit.plan commit.commitTx 0 commit.plan.items
    fun i hi => by omega
  refine ⟨⟨commit.plan, reveals, commit.commitTx⟩, ⟨rfl, rfl, signFrom_eq_ok hsigned⟩, ?_⟩
  simp only [ofCommit, zip_items_of_reveals hreveals, Metered.outcome_bind, hsigned,
    Metered.outcome_liftM, Metered.outcome_pure]
  rfl

/-- The commit transaction of a run has an output for each reveal. -/
lemma length_items_le_of_run {plan : InscriptionPlan} {quoted : QuotedReveals}
    {change : Option Amount} {funded : FundedCommit} {commit : SignedCommit}
    (hquotes : Quotes plan quoted) (hfunds : Funds quoted funded change)
    (hcommit : (SignedCommit.ofFunded funded).outcome = .ok commit) :
    commit.plan.items.length ≤ commit.commitTx.outputs.length := by
  have hreveals : (FundedCommit.revealOutputs quoted).length = plan.items.length := by
    rw [FundedCommit.revealOutputs, List.length_zipWith, hquotes.plan_eq,
      hquotes.length_quotes, Nat.min_self]
  rw [SignedCommit.plan_of_run hquotes hfunds hcommit,
    SignedCommit.outputs_of_ofFunded hcommit, hfunds.commitTx_eq, FundedCommit.commitWith,
    List.length_append, hreveals]
  exact Nat.le_add_right _ _

/-- So nothing but the check of the weights is left to fail. -/
lemma exists_finishes_of_run {plan : InscriptionPlan} {quoted : QuotedReveals}
    {change : Option Amount} {funded : FundedCommit} {commit : SignedCommit}
    (hquotes : Quotes plan quoted) (hfunds : Funds quoted funded change)
    (hcommit : (SignedCommit.ofFunded funded).outcome = .ok commit) :
    ∃ signed, Finishes commit signed ∧
      (ofCommit commit).outcome = checkWeights 0 signed.reveals >>= fun _ => .ok signed :=
  exists_finishes (SignedCommit.reveals_of_run hquotes hfunds hcommit)
    (length_items_le_of_run hquotes hfunds hcommit)

/-- Finished reveals have the weights that were known before. -/
lemma map_weight_of_finishes {request : InscriptionRequest} {params : ChainParams}
    {plan : InscriptionPlan} {quoted : QuotedReveals} {commit : SignedCommit}
    {signed : SignedReveals} (hresolves : InscriptionPlan.Resolves request params plan)
    (hquotes : Quotes plan quoted) (hplan : commit.plan = plan)
    (hfinishes : Finishes commit signed) :
    signed.reveals.map Transaction.weight = quoted.signedWeights := by
  have hreveals := hfinishes.reveals
  rw [hplan] at hreveals
  have hlength : quoted.reveals.length = plan.items.length := by
    rw [hquotes.reveals_eq, List.length_map, List.length_zipIdx]
  rw [← List.forall₂_eq_eq_eq, List.forall₂_map_left_iff]
  refine forall₂_of_getElem? ?_ fun i reveal weight hreveal hweight => ?_
  · rw [← hreveals.length_eq, List.length_zipIdx, QuotedReveals.signedWeights,
      List.length_zipWith, hquotes.plan_eq, hlength, Nat.min_self]
  · obtain ⟨blank, item, hblank, hitem, rfl⟩ := List.getElem?_zipWith_eq_some.mp hweight
    rw [hquotes.plan_eq] at hitem
    have hentry : plan.items.zipIdx[i]? = some (item, i) := by simp [hitem]
    obtain ⟨found, hfound, hfinish⟩ := exists_getElem?_of_forall₂ hreveals hentry
    obtain rfl : found = reveal := Option.some.inj (hfound.symm.trans hreveal)
    obtain ⟨inscription, -, hcarries⟩ := exists_getElem?_of_forall₂ hresolves.items.flip hitem
    rw [hquotes.reveals_eq, List.getElem?_map, hentry, Option.map_some, Option.some.injEq]
      at hblank
    rw [weight_of_finishOf hcarries hfinish, ← hblank]

end SignedReveals

/-! ### Runs -/

/-- **Only the weights can stop a funded inscription.** Every reveal has the input
that is pointed at the commit transaction, which can be signed. The reveals are
refused if and only if one of the weights that were known before is larger than
what is relayed; they are refused with the first of these and for no other cause.
Otherwise the receipt can be written, and every reveal is relayed. -/
theorem FundedCommit.stops_only_at_weight {request : InscriptionRequest} {params : ChainParams}
    {plan : InscriptionPlan} {quoted : QuotedReveals} {funded : FundedCommit}
    (hplan : InscriptionPlan.IsPlanFor request params plan)
    (hquoted : QuotedReveals.ofPlan plan = .ok quoted)
    (hfunded : FundedCommit.ofQuoted quoted = .ok funded) :
    (∀ reveal ∈ funded.reveals, ∃ input, reveal.inputs = [input]) ∧
      ∃ commit, (SignedCommit.ofFunded funded).outcome = .ok commit ∧
        ((∃ e, (SignedReveals.ofCommit commit).outcome = .error e) ↔
          ∃ weight ∈ quoted.signedWeights, maxStandardWeight < weight) ∧
        (∀ e, (SignedReveals.ofCommit commit).outcome = .error e →
          ∃ i weight, FirstHeavy quoted.signedWeights i weight ∧
            e = .standardnessViolation i weight maxStandardWeight) ∧
        ∀ signed, (SignedReveals.ofCommit commit).outcome = .ok signed →
          (∃ receipt, signed.toReceipt = .ok receipt) ∧
            ∀ reveal ∈ signed.reveals, reveal.weight ≤ maxStandardWeight := by
  have hresolves := hplan.resolves
  have hquotes := QuotedReveals.quotes_of_ofPlan hquoted
  obtain ⟨change, hfunds⟩ := funds_of_ofQuoted hfunded
  refine ⟨?_, ?_⟩
  · intro reveal hreveal
    rw [hfunds.reveals_eq, hquotes.reveals_eq] at hreveal
    obtain ⟨entry, -, rfl⟩ := List.mem_map.mp hreveal
    exact ⟨_, rfl⟩
  · obtain ⟨commit, hcommit⟩ := exists_ofFunded hfunded
    have hplan_eq := SignedCommit.plan_of_run hquotes hfunds hcommit
    have houtputs := SignedCommit.outputs_of_ofFunded hcommit
    obtain ⟨signed, hfinishes, houtcome⟩ :=
      SignedReveals.exists_finishes_of_run hquotes hfunds hcommit
    have hweights := SignedReveals.map_weight_of_finishes hresolves hquotes hplan_eq hfinishes
    refine ⟨commit, hcommit, ?_⟩
    rw [houtcome, ← hweights]
    cases hcheck : SignedReveals.checkWeights 0 signed.reveals with
    | error e =>
        obtain ⟨i, weight, hfirst, rfl⟩ := SignedReveals.checkWeights_eq_error_iff.mp hcheck
        refine ⟨⟨fun _ => ?_, fun _ => ⟨_, rfl⟩⟩, ?_, ?_⟩
        · exact ⟨weight, List.mem_of_getElem? hfirst.weight_eq, hfirst.heavy⟩
        · rintro _ ⟨⟩
          exact ⟨i, weight, hfirst, by rw [Nat.zero_add]⟩
        · rintro _ ⟨⟩
    | ok u =>
        have hle := SignedReveals.checkWeights_eq_ok_iff.mp hcheck
        refine ⟨⟨?_, ?_⟩, ?_, ?_⟩
        · rintro ⟨_, ⟨⟩⟩
        · rintro ⟨weight, hmem, hheavy⟩
          exact absurd (hle weight hmem) (by omega)
        · rintro _ ⟨⟩
        · rintro _ ⟨⟩
          obtain ⟨receipt, hreceipt, -⟩ := SignedReveals.exists_receipt_of_fees
            (SignedReveals.fees_of_finishes hquotes hfunds hplan_eq houtputs hfinishes)
          exact ⟨⟨receipt, hreceipt⟩, fun reveal hreveal =>
            hle _ (List.mem_map_of_mem hreveal)⟩

/-- A funded request for two inscriptions, both of which are relayed. -/
theorem FundedCommit.stops_only_at_weight_sample :
    ∃ plan quoted funded commit signed receipt,
      InscriptionPlan.IsPlanFor sampleRequest Chain.bitcoinRegtest.params plan ∧
      QuotedReveals.ofPlan plan = .ok quoted ∧ FundedCommit.ofQuoted quoted = .ok funded ∧
      (SignedCommit.ofFunded funded).outcome = .ok commit ∧
      (SignedReveals.ofCommit commit).outcome = .ok signed ∧
      (∀ weight ∈ quoted.signedWeights, weight ≤ maxStandardWeight) ∧
      signed.toReceipt = .ok receipt ∧
      ∀ reveal ∈ signed.reveals, reveal.weight ≤ maxStandardWeight := by
  obtain ⟨plan, quoted, funded, commit, signed, hplan, hquoted, hfunded, hcommit, hsigned⟩ :=
    exists_run_sampleRequest
  obtain ⟨-, found, hfound, hstops, -, hfinished⟩ :=
    stops_only_at_weight (.inl hplan) hquoted hfunded
  obtain rfl : found = commit := Except.ok.inj (hfound.symm.trans hcommit)
  obtain ⟨⟨receipt, hreceipt⟩, hrelayed⟩ := hfinished signed hsigned
  have hlight : ∀ weight ∈ quoted.signedWeights, weight ≤ maxStandardWeight := by
    intro weight hweight
    by_contra hheavy
    obtain ⟨e, he⟩ := hstops.mpr ⟨weight, hweight, Nat.lt_of_not_le hheavy⟩
    rw [hsigned] at he
    cases he
  exact ⟨plan, quoted, funded, found, signed, receipt, .inl hplan, hquoted, hfunded, hcommit,
    hsigned, hlight, hreceipt, hrelayed⟩

end CoinSpend
