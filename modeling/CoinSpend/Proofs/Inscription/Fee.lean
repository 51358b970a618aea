import CoinSpend.Proofs.Inscription.Change
import CoinSpend.Proofs.Inscription.KeyHash

/-!
The fee of a commit transaction and the size it is paid for.

* `FundedCommit.reckonedChange`: the change in the copy whose size decides the fee.
* `FundedCommit.Reckons`: the commit transaction has change only if this copy has,
  and pays at least the fee of the copy. `FundedCommit.reckons_of_ofQuoted`: this is so
  whenever the funds suffice.
* `Transaction.NoLongerSigned`: no signature is longer than its counterpart.
  `FundedCommit.noLongerSigned_of_paysByOutputKeys`: this is so where output keys pay for
  everything. `FundedCommit.noLongerSigned_iff_of_lengths`: where the hashes of keys do,
  the lengths of the signature scripts decide.
* `SignedCommit.fee_covers_size`: unless a signature is longer than that of the copy,
  the fee covers the size of the signed commit transaction.
-/

namespace CoinSpend

namespace FundedCommit

/-! ### What the fee is reckoned with -/

/-- The change in the copy whose size decides the fee: zero, or no change at all if
the funds do not cover the fee with change. -/
def reckonedChange (quoted : QuotedReveals) (fee : Amount) : Option Amount :=
  if Amount.total quoted.lockedValues + fee.toNat ≤ Amount.total quoted.plan.amounts then some 0
  else none

/-- A commit transaction that pays at least the fee of the copy that decides it. -/
structure Reckons (quoted : QuotedReveals) (funded : FundedCommit) (fee : Amount)
    (change : Option Amount) : Prop where
  plan_eq : funded.plan = quoted.plan
  commitTx_eq : funded.commitTx = commitWith quoted change
  fee_eq : trialFee quoted.plan (commitWith quoted (some 0)) = .ok fee
  change_eq_none : reckonedChange quoted fee = none → change = none
  exists_le : ∃ least, trialFee quoted.plan (commitWith quoted (reckonedChange quoted fee))
    = .ok least ∧ least.toNat ≤ funded.commitFee.toNat

/-- Funds that are found to cover the reveals cover the fee without change. -/
lemma exists_trialFee_of_ensureCovered {quoted : QuotedReveals}
    {totalIn totalLocked fee : Amount}
    (h : ensureCovered quoted totalIn totalLocked fee = .ok ()) :
    ∃ least, trialFee quoted.plan (commitWith quoted none) = .ok least ∧
      totalLocked.toNat + least.toNat ≤ totalIn.toNat := by
  simp only [ensureCovered, bind_eq_ok_iff, Amount.checked_eq_ok_iff] at h
  obtain ⟨least, hleast, required, hrequired, h⟩ := h
  split_ifs at h with hlt
  rw [UInt64.lt_iff_toNat_lt] at hlt
  exact ⟨least, hleast, by omega⟩

/-- Every way in which a commit transaction is funded. -/
lemma reckons_of_ofQuoted {quoted : QuotedReveals} {funded : FundedCommit}
    (h : ofQuoted quoted = .ok funded) : ∃ fee change, Reckons quoted funded fee change := by
  simp only [ofQuoted, bind_eq_ok_iff, Amount.checkedTotal_eq_ok_iff] at h
  obtain ⟨totalIn, hin, totalLocked, hlocked, fee, hfee, h⟩ := h
  have hreckoned : reckonedChange quoted fee
      = if totalLocked.toNat + fee.toNat ≤ totalIn.toNat then some 0 else none := by
    rw [reckonedChange, hin, hlocked]
  split_ifs at h hreckoned with hcovers hchange
  · cases h
    refine ⟨fee, some (totalIn - totalLocked - fee), rfl, rfl, hfee, ?_, fee, ?_, Nat.le_refl _⟩
    · rw [hreckoned]
      exact fun hnone => absurd hnone (Option.some_ne_none 0)
    · rw [hreckoned, hfee]
  · -- the change falls below its least value, and goes into the fee
    cases h
    refine ⟨fee, none, rfl, rfl, hfee, fun _ => rfl, fee, by rw [hreckoned, hfee], ?_⟩
    rw [withoutChange, toNat_sub_of_total (by omega)]
    omega
  · simp only [bind_eq_ok_iff] at h
    obtain ⟨⟨⟩, hcovered, h⟩ := h
    cases h
    obtain ⟨least, hleast, hle⟩ := exists_trialFee_of_ensureCovered hcovered
    refine ⟨fee, none, rfl, rfl, hfee, fun _ => rfl, least, by rw [hreckoned, hleast], ?_⟩
    rw [withoutChange, toNat_sub_of_total (by omega)]
    omega

/-! ### Outputs with and without change -/

/-- The outputs take no more room, and hold no more checks, when the change has
another value or is left out. -/
lemma outputs_commitWith_le (quoted : QuotedReveals) {change other : Option Amount}
    (h : other = none → change = none) :
    Transaction.outputsSize (commitWith quoted change).outputs
        ≤ Transaction.outputsSize (commitWith quoted other).outputs ∧
      sumOf (fun output => Script.sigops false output.script) (commitWith quoted change).outputs
        ≤ sumOf (fun output => Script.sigops false output.script)
          (commitWith quoted other).outputs := by
  cases change with
  | none =>
      have hbare : (commitWith quoted none).outputs = revealOutputs quoted := by
        simp [commitWith]
      rw [hbare]
      refine ⟨Transaction.outputsSize_le_append _ _, ?_⟩
      rw [commitWith, sumOf_append]
      exact Nat.le_add_right _ _
  | some value =>
      cases other with
      | none => cases h rfl
      | some value' =>
          refine ⟨Nat.le_of_eq (Transaction.outputsSize_congr ?_), Nat.le_of_eq ?_⟩
          · simp [commitWith]
          · simp [commitWith, sumOf_append, sumOf]

end FundedCommit

/-! ### The signed commit transaction -/

/-- No signature of a transaction is longer than the one at the same position of
another. -/
def Transaction.NoLongerSigned (t s : Transaction) : Prop :=
  ∀ (i : ℕ) a b, t.inputs[i]? = some a → s.inputs[i]? = some b →
    a.signature.length ≤ b.signature.length

namespace FundedCommit

section Copies

variable {plan : InscriptionPlan} {quoted : QuotedReveals} {change other : Option Amount}
  {t s : Transaction}

/-- Whatever the change, the signed commit transactions differ in nothing but the
signatures of their inputs. -/
lemma signedAlike_commitWith
    (ht : (commitWith quoted change).trialSigned plan.keys plan.lookup = .ok t)
    (hs : (commitWith quoted other).trialSigned plan.keys plan.lookup = .ok s) :
    List.Forall₂ (TxIn.SignedAlike plan.lookup) t.inputs s.inputs := by
  have hinputs : (commitWith quoted change).inputs = (commitWith quoted other).inputs := rfl
  exact Transaction.signedAlike_of_trialSigned hinputs ht hs

/-- The checks of the one cost no more than those of the other. -/
lemma noCostlier_commitWith
    (ht : (commitWith quoted change).trialSigned plan.keys plan.lookup = .ok t)
    (hs : (commitWith quoted other).trialSigned plan.keys plan.lookup = .ok s) :
    List.Forall₂ (TxIn.NoCostlier plan.scriptView) t.inputs s.inputs :=
  (signedAlike_commitWith ht hs).imp fun _ _ hab => hab.noCostlier plan.get?_scriptView

/-- Signatures that are not longer do not make the signed commit transaction larger
than the copy, nor its checks costlier. -/
lemma exists_effectiveSize_commitWith {size : ℕ} (hchange : other = none → change = none)
    (ht : (commitWith quoted change).trialSigned plan.keys plan.lookup = .ok t)
    (hs : (commitWith quoted other).trialSigned plan.keys plan.lookup = .ok s)
    (hshorter : t.NoLongerSigned s) (hsize : s.effectiveSize plan.scriptView = .ok size) :
    ∃ less ≤ size, t.effectiveSize plan.scriptView = .ok less := by
  have halike := signedAlike_commitWith ht hs
  have hlarger : List.Forall₂ TxIn.NoLarger t.inputs s.inputs :=
    forall₂_of_getElem? halike.length_eq fun i a b ha hb =>
      (rel_of_forall₂ halike ha hb).noLarger (hshorter i a b ha hb)
  obtain ⟨hroom, hchecks⟩ := outputs_commitWith_le quoted hchange
  rw [← Transaction.outputs_of_skeleton (Transaction.skeleton_of_trialSigned ht),
    ← Transaction.outputs_of_skeleton (Transaction.skeleton_of_trialSigned hs)] at hroom hchecks
  exact Transaction.exists_effectiveSize_le (Transaction.virtualSize_le_of_noLarger hlarger hroom)
    (noCostlier_commitWith ht hs) hchecks hsize

/-- Under output keys no signature is longer than its counterpart. -/
lemma noLongerSigned_of_paysByOutputKeys (hpays : plan.PaysByOutputKeys)
    (ht : (commitWith quoted change).trialSigned plan.keys plan.lookup = .ok t)
    (hs : (commitWith quoted other).trialSigned plan.keys plan.lookup = .ok s) :
    t.NoLongerSigned s := by
  intro i a b ha hb
  have halike := rel_of_forall₂ (signedAlike_commitWith ht hs) ha hb
  obtain ⟨output, hlookup⟩ := halike.exists_lookup
  obtain ⟨f, hf, hentry⟩ := List.mem_map.mp (OutPoint.Table.mem_of_get? hlookup)
  have houtput : f.output = output := congrArg Prod.snd hentry
  obtain ⟨hlength, hlength'⟩ := halike.length_of_isP2tr hlookup (houtput ▸ hpays f hf)
  rw [hlength, hlength']

/-- Where the hashes of keys pay for everything, the lengths of the signature scripts decide
whether a signature is longer. -/
lemma noLongerSigned_iff_of_lengths {lengths others : List ℕ}
    (hpaid : quoted.outline.PaidByKeyHashes)
    (hlengths : quoted.outline.scriptSigLengths change = lengths.map some)
    (hothers : quoted.outline.scriptSigLengths other = others.map some)
    (ht : (commitWith quoted change).trialSigned quoted.plan.keys quoted.plan.lookup = .ok t)
    (hs : (commitWith quoted other).trialSigned quoted.plan.keys quoted.plan.lookup = .ok s) :
    t.NoLongerSigned s ↔ List.Forall₂ (· ≤ ·) lengths others := by
  have halike := signedAlike_commitWith ht hs
  have hscripts (i : ℕ) (a b : TxIn) (ha : t.inputs[i]? = some a) (hb : s.inputs[i]? = some b) :
      a.scriptSig.length ≤ b.scriptSig.length ↔ a.signature.length ≤ b.signature.length := by
    obtain ⟨source, prevout, key, path, sig, hsource, -, -, -, -, rfl⟩ :=
      Transaction.exists_satisfaction_of_trialSigned ht ha
    obtain ⟨_, -, output, houtput, hscript⟩ :=
      exists_getElem?_of_forall₂ (spendsKeyHash_commitWith hpaid change) hsource
    exact (rel_of_forall₂ halike ha hb).length_scriptSig_le_iff houtput
      (hscript ▸ Script.isP2pkh_iff.mpr ⟨_, length_hash160 _, rfl⟩)
  rw [← map_length_scriptSig hpaid hlengths ht, ← map_length_scriptSig hpaid hothers hs,
    List.forall₂_map_left_iff, List.forall₂_map_right_iff]
  refine ⟨fun h => forall₂_of_getElem? halike.length_eq fun i a b ha hb => ?_,
    fun h i a b ha hb => ?_⟩
  · exact (hscripts i a b ha hb).mpr (h i a b ha hb)
  · exact (hscripts i a b ha hb).mp (rel_of_forall₂ h ha hb)

end Copies

end FundedCommit

namespace SignedCommit

/-- The commit transaction is signed with the change that was decided on. -/
lemma trialSigned_of_reckons {plan : InscriptionPlan} {quoted : QuotedReveals}
    {funded : FundedCommit} {fee : Amount} {change : Option Amount} {commit : SignedCommit}
    (hquotes : QuotedReveals.Quotes plan quoted)
    (hreckons : FundedCommit.Reckons quoted funded fee change)
    (hcommit : (ofFunded funded).outcome = .ok commit) :
    (FundedCommit.commitWith quoted change).trialSigned plan.keys plan.lookup
      = .ok commit.commitTx := by
  obtain ⟨t, ht, rfl⟩ := ofFunded_eq_ok_iff.mp hcommit
  rwa [hreckons.plan_eq, hquotes.plan_eq, hreckons.commitTx_eq] at ht

open FundedCommit (commitWith trialFee reckonedChange ofQuoted withChange trialFee_of_lengths)

/-- **The fee covers the size, unless a signature grew.** Let a request be funded and
its commit transaction signed. The copy whose size decided the fee has change of
value zero or, if the funds do not cover the fee with change, none. If no signature
of the signed commit transaction is longer than that of the copy at the same
position, then its fee is at least the rate for the size that is paid for. The
signatures by output keys all have 64 bytes; and where the funds did not cover the
fee with change, the copy is the signed commit transaction itself. -/
theorem fee_covers_size {request : InscriptionRequest} {params : ChainParams}
    {plan : InscriptionPlan} {quoted : QuotedReveals} {funded : FundedCommit}
    {commit : SignedCommit} (hplan : InscriptionPlan.IsPlanFor request params plan)
    (hquoted : QuotedReveals.ofPlan plan = .ok quoted) (hfunded : ofQuoted quoted = .ok funded)
    (hcommit : (ofFunded funded).outcome = .ok commit) :
    ∃ fee copy, trialFee plan (commitWith quoted (some 0)) = .ok fee ∧
      (commitWith quoted (reckonedChange quoted fee)).trialSigned plan.keys plan.lookup
        = .ok copy ∧
      (commit.commitTx.NoLongerSigned copy →
        ∃ size, commit.commitTx.effectiveSize plan.scriptView = .ok size ∧
          request.commitFeeRate.toNat * size ≤ funded.commitFee.toNat) ∧
      (∀ (i : ℕ) a b output, commit.commitTx.inputs[i]? = some a → copy.inputs[i]? = some b →
        plan.lookup a.previous = some output → output.script.isP2tr →
        a.signature.length = 64 ∧ b.signature.length = 64) ∧
      (Amount.total (request.funding.map FundingOutput.amount)
          < Amount.total (quoted.quotes.map RevealQuote.lockedValue) + fee.toNat →
        commit.commitTx = copy) := by
  have hresolves := hplan.resolves
  have hquotes := QuotedReveals.quotes_of_ofPlan hquoted
  obtain ⟨fee, change, hreckons⟩ := FundedCommit.reckons_of_ofQuoted hfunded
  obtain ⟨least, hleast, hle⟩ := hreckons.exists_le
  have hfee := hreckons.fee_eq
  have ht := trialSigned_of_reckons hquotes hreckons hcommit
  rw [hquotes.plan_eq] at hleast hfee
  simp only [trialFee, bind_eq_ok_iff, Amount.checked_eq_ok_iff] at hleast
  obtain ⟨copy, hcopy, size, hsize, hrate⟩ := hleast
  have halike := FundedCommit.signedAlike_commitWith ht hcopy
  refine ⟨fee, copy, hfee, hcopy, fun hshorter => ?_, fun i a b output ha hb => ?_, fun hshort => ?_⟩
  · obtain ⟨less, hless, heffective⟩ := FundedCommit.exists_effectiveSize_commitWith
      hreckons.change_eq_none ht hcopy hshorter hsize
    refine ⟨less, heffective, ?_⟩
    calc request.commitFeeRate.toNat * less
        ≤ request.commitFeeRate.toNat * size := Nat.mul_le_mul_left _ hless
      _ = least.toNat := by rw [hrate, hresolves.commitFeeRate, Nat.mul_comm]
      _ ≤ funded.commitFee.toNat := hle
  · exact (rel_of_forall₂ halike ha hb).length_of_isP2tr
  · have hnone : reckonedChange quoted fee = none := by
      rw [reckonedChange, hquotes.plan_eq, hresolves.amounts_eq]
      exact if_neg (Nat.not_le.mpr hshort)
    rw [hreckons.change_eq_none hnone, ← hnone] at ht
    exact Except.ok.inj (ht.symm.trans hcopy)

/-- One inscription that the hash of a key pays for. -/
def keyHashRequest : InscriptionRequest where
  funding := [{
    txid := .zero
    vout := 1
    amount := 2950
    address := "mrcNu71ztWjAQA6ww9kHiW3zBWSQidHXTQ"
    privateKey := "0101010101010101010101010101010101010101010101010101010101010101" }]
  commitFeeRate := 2
  revealFeeRate := 3
  inscriptions := [⟨"text/plain", [104, 105], sampleAddress⟩]
  revealValue := none
  changeAddress := sampleAddress
  minChange := none

/-- What decides the commit transaction of the request. -/
def keyHashOutline : CommitOutline where
  funding := [{
    outpoint := ⟨.zero, 1⟩
    output := ⟨2950, Script.p2pkh (Bytes.ofNatBE 20 0x79b000887626b294a914501a4cd226b58b235983)⟩
    key := ⟨⟨0x0101010101010101010101010101010101010101010101010101010101010101,
      by decide, by decide⟩, true, .test⟩ }]
  commitFeeRate := 2
  minChange := defaultValue
  changeScript := Script.p2tr (List.replicate 32 7)
  revealOutputs := [⟨951, Script.p2tr
    (Bytes.ofNatBE 32 0x507f6bd3122a7f9d6abc3c0f594fc814bbf61bc259570ed7c7157f2990cc0360)⟩]
  lockedValues := [951]

/-- The request is quoted. The digests on the way are made with numbers. -/
lemma exists_quoted_keyHashRequest :
    ∃ plan quoted, InscriptionPlan.ofRequest keyHashRequest Chain.bitcoinRegtest.params = .ok plan ∧
      QuotedReveals.ofPlan plan = .ok quoted ∧ quoted.outline = keyHashOutline := by
  refine QuotedReveals.exists_of_outline ?_
  unfold InscriptionPlan.ofRequest InscriptionPlan.fundingInput InscriptionPlan.plannedItem
    EnvelopeOutput.ofInscription XOnlyKey.commit Taproot.tweak Taproot.leafHash taggedHash
    Address.toScript Address.scriptOfBase58 Base58.decodeCheck Base58.checksum doubleSha256
  simp only [sha256_eq_digest]
  decide +kernel

/-- The hash is that of the key, which is in its short form. -/
lemma paidByKeyHashes_keyHashOutline : keyHashOutline.PaidByKeyHashes := by
  have hkey : ∀ f ∈ keyHashOutline.funding,
      f.output.script = Script.p2pkh f.key.publicKey.hash ∧ f.key.compressed := by
    simp only [PublicKey.hash, hash160, sha256_eq_digest]
    decide +kernel
  exact ⟨by decide, hkey⟩

/-- The signature of the copy. -/
lemma scriptSigLengths_keyHashCopy :
    keyHashOutline.scriptSigLengths (some 0) = [106].map some := by
  decide +kernel

/-- That of the commit transaction happens to be a byte shorter. -/
lemma scriptSigLengths_keyHashCommit :
    keyHashOutline.scriptSigLengths (some 1513) = [105].map some := by
  decide +kernel

section KeyHash

variable {quoted : QuotedReveals} (h : quoted.outline = keyHashOutline)
include h

/-- The fee of the copy. -/
lemma trialFee_of_keyHashOutline :
    trialFee quoted.plan (commitWith quoted (some 0)) = .ok 486 := by
  have hpaid : quoted.outline.PaidByKeyHashes := h ▸ paidByKeyHashes_keyHashOutline
  rw [trialFee_of_lengths hpaid (h ▸ scriptSigLengths_keyHashCopy) (by rw [h]; decide +kernel), h]
  decide +kernel

/-- The funds cover it. -/
lemma reckonedChange_of_keyHashOutline : reckonedChange quoted 486 = some 0 := by
  rw [reckonedChange, quoted.amounts_outline, quoted.lockedValues_outline, h]
  decide

/-- The request is funded, with change. -/
lemma ofQuoted_of_keyHashOutline : ofQuoted quoted = .ok (withChange quoted 1513 486) := by
  have hin : Amount.checkedTotal quoted.plan.amounts = .ok 2950 := by
    rw [quoted.amounts_outline, h]
    decide +kernel
  have hlocked : Amount.checkedTotal quoted.lockedValues = .ok 951 := by
    rw [quoted.lockedValues_outline, h]
    decide +kernel
  have hchange : quoted.plan.minChange ≤ 2950 - 951 - 486 := by
    change quoted.outline.minChange ≤ _
    rw [h]
    decide
  rw [ofQuoted, bind_of_eq_ok hin, bind_of_eq_ok hlocked,
    bind_of_eq_ok (trialFee_of_keyHashOutline h), if_pos (by decide), if_pos hchange]
  rfl

end KeyHash

/-- An output key pays for `sampleRequest`, and two units for each byte are paid. The hash
of a key pays for `keyHashRequest`: the signature is shorter than that of the copy, and two
units for each byte are paid as well. -/
theorem fee_covers_size_sample :
    (∃ plan quoted funded commit size,
      InscriptionPlan.ofRequest sampleRequest Chain.bitcoinRegtest.params = .ok plan ∧
      QuotedReveals.ofPlan plan = .ok quoted ∧ ofQuoted quoted = .ok funded ∧
      (ofFunded funded).outcome = .ok commit ∧
      commit.commitTx.effectiveSize plan.scriptView = .ok size ∧
      2 * size ≤ funded.commitFee.toNat) ∧
    ∃ plan quoted funded commit copy size,
      InscriptionPlan.ofRequest keyHashRequest Chain.bitcoinRegtest.params = .ok plan ∧
      QuotedReveals.ofPlan plan = .ok quoted ∧ ofQuoted quoted = .ok funded ∧
      (ofFunded funded).outcome = .ok commit ∧
      (commitWith quoted (some 0)).trialSigned plan.keys plan.lookup = .ok copy ∧
      commit.commitTx.NoLongerSigned copy ∧ ¬copy.NoLongerSigned commit.commitTx ∧
      commit.commitTx.effectiveSize plan.scriptView = .ok size ∧
      2 * size ≤ funded.commitFee.toNat := by
  refine ⟨?_, ?_⟩
  · obtain ⟨plan, quoted, funded, commit, -, hplan, hquoted, hfunded, hcommit, -⟩ :=
      exists_run_sampleRequest
    have hpays := (InscriptionPlan.resolves_of_ofRequest hplan).paysByOutputKeys
      FundedCommit.exists_lock_sampleRequest
    obtain ⟨fee, change, hreckons⟩ := FundedCommit.reckons_of_ofQuoted hfunded
    have ht := trialSigned_of_reckons (QuotedReveals.quotes_of_ofPlan hquoted) hreckons hcommit
    obtain ⟨_, copy, -, hcopy, hcovers, -⟩ :=
      fee_covers_size (.inl hplan) hquoted hfunded hcommit
    obtain ⟨size, hsize, hle⟩ :=
      hcovers (FundedCommit.noLongerSigned_of_paysByOutputKeys hpays ht hcopy)
    exact ⟨plan, quoted, funded, commit, size, hplan, hquoted, hfunded, hcommit, hsize, hle⟩
  · obtain ⟨plan, quoted, hplan, hquoted, houtline⟩ := exists_quoted_keyHashRequest
    have hpaid : quoted.outline.PaidByKeyHashes := houtline ▸ paidByKeyHashes_keyHashOutline
    have hsigned (change : Option Amount) :=
      FundedCommit.trialSigned_of_keyHashes (FundedCommit.spendsKeyHash_commitWith hpaid change)
    have hfunded := ofQuoted_of_keyHashOutline houtline
    have hcommit : (ofFunded (withChange quoted 1513 486)).outcome = .ok _ :=
      ofFunded_eq_ok_iff.mpr ⟨_, hsigned (some 1513), rfl⟩
    obtain rfl : quoted.plan = plan := (QuotedReveals.quotes_of_ofPlan hquoted).plan_eq
    obtain ⟨fee, copy, hfee, hcopy, hcovers, -⟩ :=
      fee_covers_size (.inl hplan) hquoted hfunded hcommit
    obtain rfl : 486 = fee := Except.ok.inj ((trialFee_of_keyHashOutline houtline).symm.trans hfee)
    rw [reckonedChange_of_keyHashOutline houtline] at hcopy
    have hcopied := houtline ▸ scriptSigLengths_keyHashCopy
    have hmade := houtline ▸ scriptSigLengths_keyHashCommit
    have hshorter := (FundedCommit.noLongerSigned_iff_of_lengths hpaid hmade hcopied
      (hsigned (some 1513)) hcopy).mpr (by decide)
    have hlonger := FundedCommit.noLongerSigned_iff_of_lengths hpaid hcopied hmade hcopy
      (hsigned (some 1513))
    obtain ⟨size, hsize, hle⟩ := hcovers hshorter
    exact ⟨quoted.plan, quoted, _, _, copy, size, hplan, hquoted, hfunded, hcommit, hcopy, hshorter,
      fun h => absurd (hlonger.mp h) (by decide), hsize, hle⟩

end SignedCommit

end CoinSpend
