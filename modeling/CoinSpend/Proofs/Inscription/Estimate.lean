import CoinSpend.Proofs.Inscription.Fee
import CoinSpend.Proofs.Signing.Excess
import CoinSpend.Proofs.Signing.Refusal
import CoinSpend.Proofs.Transaction.Growth

/-!
The fee of the copy without change, next to that of the copy with change.

The copy without change is signed anew, and a new signature may be longer than the
one in its place.

* `FundedCommit.exists_trialFee_none_le`: the fee without change is no higher, unless the
  signatures got longer by more than the change output takes.
* `FundedCommit.sizes_monotone`: sizes are monotone, and what follows for the fee.
* `FundedCommit.fee_raised_without_change`: a request whose fee is higher without change.
-/

namespace CoinSpend

/-! ### The fee without change -/

/-- Nothing is exceeded where no signature is longer than its counterpart. -/
lemma Transaction.signatureExcess_eq_zero {t s : Transaction} (h : t.NoLongerSigned s) :
    t.signatureExcess s = 0 := by
  have hzero : ∀ pair ∈ t.inputs.zip s.inputs, TxIn.excess pair = 0 := by
    intro pair hpair
    obtain ⟨i, hi⟩ := List.mem_iff_getElem?.mp hpair
    obtain ⟨ha, hb⟩ := List.getElem?_zip_eq_some.mp hi
    exact Nat.sub_eq_zero_of_le (h i _ _ ha hb)
  rw [signatureExcess, sumOf_eq_mul hzero, Nat.zero_mul]

namespace FundedCommit

variable {plan : InscriptionPlan} {quoted : QuotedReveals} {value fee : Amount}
  {copy bare : Transaction}

/-- The copy without change has no higher fee, unless its signatures are longer by more
than the change output takes. -/
lemma exists_trialFee_none_le
    (hcopy : (commitWith quoted (some value)).trialSigned plan.keys plan.lookup = .ok copy)
    (hbare : (commitWith quoted none).trialSigned plan.keys plan.lookup = .ok bare)
    (hfee : trialFee plan (commitWith quoted (some value)) = .ok fee)
    (hexcess : bare.signatureExcess copy ≤ TxOut.size ⟨value, quoted.plan.changeScript⟩) :
    ∃ less ≤ fee, trialFee plan (commitWith quoted none) = .ok less := by
  have houtputs : copy.outputs = bare.outputs ++ [⟨value, quoted.plan.changeScript⟩] := by
    rw [Transaction.outputs_of_skeleton (Transaction.skeleton_of_trialSigned hcopy),
      Transaction.outputs_of_skeleton (Transaction.skeleton_of_trialSigned hbare)]
    simp [commitWith]
  have hvirtual : bare.virtualSize ≤ copy.virtualSize := by
    have halike := signedAlike_commitWith hbare hcopy
    exact Transaction.virtualSize_le_of_excess (halike.imp fun _ _ h => h.largerByExcess)
      houtputs hexcess
  have hchecks : sumOf (fun output => Script.sigops false output.script) bare.outputs
      ≤ sumOf (fun output => Script.sigops false output.script) copy.outputs := by
    rw [houtputs, sumOf_append]
    exact Nat.le_add_right _ _
  simp only [trialFee, hcopy, hbare, bind_eq_ok_iff, Except.ok.injEq, Amount.checked_eq_ok_iff]
    at hfee ⊢
  obtain ⟨_, rfl, size, hsize, hrate⟩ := hfee
  obtain ⟨smaller, hle, hsmaller⟩ := Transaction.exists_effectiveSize_le hvirtual
    (noCostlier_commitWith hbare hcopy) hchecks hsize
  have hscaled : smaller * plan.commitFeeRate.toNat ≤ fee.toNat :=
    hrate ▸ Nat.mul_le_mul_right _ hle
  obtain ⟨less, -, hless⟩ := Amount.exists_checked (Nat.lt_of_le_of_lt hscaled fee.toNat_lt)
  exact ⟨less, UInt64.le_iff_toNat_le.mpr (hless ▸ hscaled), bare, rfl, smaller, hsmaller, hless⟩

/-- **Sizes are monotone.** However a transaction grows, its virtual size does not
decrease, and where the size that is paid for is known, it stays known and does not
decrease when an output is appended.

The fee that a commit transaction is funded with is that of a copy with change. The copy
without change is not that copy with an output less but is signed anew: its fee is no
higher unless the signatures that got longer did so, taken together, by more than the
bytes of the change output. None gets longer if output keys pay for everything. -/
theorem sizes_monotone :
    (∀ t s, Relation.ReflTransGen Transaction.Grows t s → t.virtualSize ≤ s.virtualSize) ∧
    (∀ (tx : Transaction) (view : ScriptView) (size : ℕ), tx.effectiveSize view = .ok size →
      ∀ output, ∃ larger ≥ size,
        { tx with outputs := tx.outputs ++ [output] }.effectiveSize view = .ok larger) ∧
    (∀ (quoted : QuotedReveals) (value fee : Amount),
      trialFee quoted.plan (commitWith quoted (some value)) = .ok fee →
      ∃ copy bare,
        (commitWith quoted (some value)).trialSigned quoted.plan.keys quoted.plan.lookup
          = .ok copy ∧
        (commitWith quoted none).trialSigned quoted.plan.keys quoted.plan.lookup = .ok bare ∧
        (bare.signatureExcess copy ≤ TxOut.size ⟨value, quoted.plan.changeScript⟩ →
          ∃ less ≤ fee, trialFee quoted.plan (commitWith quoted none) = .ok less) ∧
        (quoted.plan.PaysByOutputKeys → bare.signatureExcess copy = 0)) := by
  refine ⟨fun t s => Transaction.virtualSize_le_of_reflTransGen,
    fun tx view size hsize output => Transaction.exists_effectiveSize_of_outputs hsize [output],
    fun quoted value fee hfee => ?_⟩
  have hsigned := hfee
  simp only [trialFee, bind_eq_ok_iff] at hsigned
  obtain ⟨copy, hcopy, -⟩ := hsigned
  have hinputs : (commitWith quoted (some value)).inputs = (commitWith quoted none).inputs := rfl
  obtain ⟨bare, hbare⟩ := Transaction.exists_trialSigned_congr hinputs hcopy
  exact ⟨copy, bare, hcopy, hbare, exists_trialFee_none_le hcopy hbare hfee,
    fun hpays => Transaction.signatureExcess_eq_zero
      (noLongerSigned_of_paysByOutputKeys hpays hbare hcopy)⟩

/-- A transaction that spends the hash of a key and is not signed yet. -/
def bareSpend : Transaction where
  version := 2
  lockTime := 0
  inputs := [⟨⟨.zero, 1⟩, [], 0, []⟩]
  outputs := [⟨5, Script.p2wpkh (List.replicate 20 7)⟩]

/-- The unsigned transaction gets an output and its first witness item, and is written in
another form. With one output more it still pays for what it spends. For `sampleRequest`,
which an output key pays for, the fee without change is no higher. -/
theorem sizes_monotone_sample :
    (∃ s, Relation.ReflTransGen Transaction.Grows bareSpend s ∧ s.usesWitnessForm ∧
      ¬bareSpend.usesWitnessForm ∧ bareSpend.virtualSize ≤ s.virtualSize) ∧
    (∃ (view : ScriptView) (size larger : ℕ) (output : TxOut), view ≠ [] ∧
      bareSpend.effectiveSize view = .ok size ∧
      { bareSpend with outputs := bareSpend.outputs ++ [output] }.effectiveSize view = .ok larger ∧
      size ≤ larger) ∧
    (∃ plan quoted fee less,
      InscriptionPlan.ofRequest sampleRequest Chain.bitcoinRegtest.params = .ok plan ∧
      QuotedReveals.ofPlan plan = .ok quoted ∧
      trialFee quoted.plan (commitWith quoted (some 0)) = .ok fee ∧
      trialFee quoted.plan (commitWith quoted none) = .ok less ∧ less ≤ fee) := by
  obtain ⟨hgrows, happend, hdrop⟩ := sizes_monotone
  refine ⟨?_, ?_, ?_⟩
  · let more : Transaction := { bareSpend with outputs := bareSpend.outputs ++ [⟨6, []⟩] }
    let grown : Transaction := { more with inputs := [⟨⟨.zero, 1⟩, [], 0, [[7]]⟩] }
    have hinput : Transaction.Grows more grown := .input more [] [] (.item _ [7])
    have hsteps : Relation.ReflTransGen Transaction.Grows bareSpend grown :=
      .tail (.single (.output bareSpend _)) hinput
    exact ⟨grown, hsteps, rfl, by decide, hgrows _ _ hsteps⟩
  · let view : ScriptView := [(⟨.zero, 1⟩, Script.p2wpkh (List.replicate 20 7))]
    have hrun : (bareSpend.effectiveSize view).toOption.isSome := by decide +kernel
    obtain ⟨size, hsize⟩ := exists_eq_ok_of_isSome hrun
    obtain ⟨larger, hle, hlarger⟩ := happend bareSpend view size hsize ⟨6, []⟩
    exact ⟨view, size, larger, ⟨6, []⟩, List.cons_ne_nil _ _, hsize, hlarger, hle⟩
  · obtain ⟨plan, quoted, funded, -, -, hplan, hquoted, hfunded, -⟩ := exists_run_sampleRequest
    obtain ⟨fee, change, hreckons⟩ := reckons_of_ofQuoted hfunded
    obtain ⟨copy, bare, -, -, hcovered, hkeys⟩ := hdrop quoted 0 fee hreckons.fee_eq
    have hpays : quoted.plan.PaysByOutputKeys := by
      rw [(QuotedReveals.quotes_of_ofPlan hquoted).plan_eq]
      exact (InscriptionPlan.resolves_of_ofRequest hplan).paysByOutputKeys exists_lock_sampleRequest
    obtain ⟨less, hle, hless⟩ := hcovered (by rw [hkeys hpays]; exact Nat.zero_le _)
    exact ⟨plan, quoted, fee, less, hplan, hquoted, hreckons.fee_eq, hless, hle⟩

/-! ### Signatures that get longer -/

/-- The identifier that repeats one byte. -/
def repeatedTxid (byte : UInt8) : Txid :=
  ⟨List.replicate 32 byte, List.length_replicate⟩

/-- Keys with the hashes of their public keys. In the copy with change below they happen to
make short signatures. -/
def unevenKeys : List (PrivateKey × Bytes) :=
  [(⟨⟨20254, by decide, by decide⟩, true, .test⟩,
      Bytes.ofNatBE 20 0xb11daff6af08e68d761897731844773727ef9ea7),
    (⟨⟨2539899, by decide, by decide⟩, true, .test⟩,
      Bytes.ofNatBE 20 0x412b7880fcfbd5f9242028102488ef7ad303e5f2),
    (⟨⟨17729375, by decide, by decide⟩, true, .test⟩,
      Bytes.ofNatBE 20 0x6822a0d046de4978ab73c4244c18b598a43f9481),
    (⟨⟨33404788, by decide, by decide⟩, true, .test⟩,
      Bytes.ofNatBE 20 0x72a9ff429c3da2619fd9e3b300adde41deae0e4c),
    (⟨⟨6438, by decide, by decide⟩, true, .test⟩,
      Bytes.ofNatBE 20 0xd13eb0d56be42197dc190fca24747f771dce5bec)]

/-- One inscription that the hashes of these keys pay for. -/
def unevenRequest : InscriptionRequest where
  funding := [
    ("mwfTTipMausYFUXW34Va4dqBbQeHWXmm3v",
      "0000000000000000000000000000000000000000000000000000000000004f1e"),
    ("mmTYHvQ1fTu6R7qRVh4A5knW5YkPQDYYKh",
      "000000000000000000000000000000000000000000000000000000000026c17b"),
    ("mq1a41ftLzoULJyparUvPmgbesU6FQyusb",
      "00000000000000000000000000000000000000000000000000000000010e875f"),
    ("mqyEyXdidapGc1H6ArkC9cdDgevaWwuW2D",
      "0000000000000000000000000000000000000000000000000000000001fdb774"),
    ("mzbLcybttXeMPUWsBGpnwd8PgyxqyS3iVc",
      "0000000000000000000000000000000000000000000000000000000000001926")].zipIdx.map
    fun entry => {
      txid := repeatedTxid 0xaa
      vout := UInt32.ofNat entry.2
      amount := 200
      address := entry.1.1
      privateKey := entry.1.2 }
  commitFeeRate := 1
  revealFeeRate := 1
  inscriptions := [⟨"text/plain", [104, 105],
    "bcrt1p9fjtrm3nwhemkjek0wxtswz2glmneu33w9lcylrvd7alttk0psmqqf08dg"⟩]
  revealValue := none
  changeAddress := "bcrt1pfeesnyr2tx"
  minChange := none

/-- What decides the commit transaction of the request. The script of the change is one of
the shortest that have an address. -/
def unevenOutline : CommitOutline where
  funding := unevenKeys.zipIdx.map fun entry => {
    outpoint := ⟨repeatedTxid 0xaa, UInt32.ofNat entry.2⟩
    output := ⟨200, Script.p2pkh entry.1.2⟩
    key := entry.1.1 }
  commitFeeRate := 1
  minChange := defaultValue
  changeScript := Script.witnessProgram 1 [0x4e, 0x73]
  revealOutputs := [⟨681, Script.p2tr
    (Bytes.ofNatBE 32 0x1d3beac893a502dd966cc6b39f544a3e706c935818b19bc527a1e152ba88e782)⟩]
  lockedValues := [681]

/-- The request is quoted. The digests on the way are made with numbers. -/
lemma exists_quoted_unevenRequest :
    ∃ plan quoted, InscriptionPlan.ofRequest unevenRequest Chain.bitcoinRegtest.params = .ok plan ∧
      QuotedReveals.ofPlan plan = .ok quoted ∧ quoted.outline = unevenOutline := by
  refine QuotedReveals.exists_of_outline ?_
  unfold InscriptionPlan.ofRequest InscriptionPlan.fundingInput InscriptionPlan.plannedItem
    EnvelopeOutput.ofInscription XOnlyKey.commit Taproot.tweak Taproot.leafHash taggedHash
    Address.toScript Address.scriptOfBase58 Base58.decodeCheck Base58.checksum doubleSha256
  simp only [sha256_eq_digest]
  decide +kernel

/-- The hashes are those of the keys, which are in their short form. -/
lemma paidByKeyHashes_unevenOutline : unevenOutline.PaidByKeyHashes := by
  have hkeys : ∀ entry ∈ unevenKeys,
      entry.1.publicKey.hash = entry.2 ∧ entry.1.compressed := by
    simp only [PublicKey.hash, hash160, sha256_eq_digest]
    decide +kernel
  refine ⟨by decide +kernel, fun f hf => ?_⟩
  obtain ⟨entry, hentry, rfl⟩ := List.mem_map.mp hf
  obtain ⟨hhash, hshort⟩ := hkeys entry.1 (List.fst_mem_of_mem_zipIdx hentry)
  exact ⟨by rw [hhash], hshort⟩

/-- In the copy with change the signatures lack fourteen bytes in all. -/
lemma scriptSigLengths_with_change :
    unevenOutline.scriptSigLengths (some 0) = [104, 103, 103, 102, 104].map some := by
  decide +kernel

/-- In the copy without change they lack none. -/
lemma scriptSigLengths_without_change :
    unevenOutline.scriptSigLengths none = [106, 106, 106, 106, 106].map some := by
  decide +kernel

/-- **The fee without change can be higher.** In the copy with change the signatures
happen to lack fourteen bytes, in the copy without change none, and the change output has
thirteen. So the request fails for want of one unit more than the reveals and the fee with
change. -/
theorem fee_raised_without_change :
    ∃ plan quoted, InscriptionPlan.ofRequest unevenRequest Chain.bitcoinRegtest.params = .ok plan ∧
      QuotedReveals.ofPlan plan = .ok quoted ∧
      trialFee quoted.plan (commitWith quoted (some 0)) = .ok 787 ∧
      trialFee quoted.plan (commitWith quoted none) = .ok 788 ∧
      ofQuoted quoted = .error (.insufficientBalance 1000 1469 787) := by
  obtain ⟨plan, quoted, hplan, hquoted, houtline⟩ := exists_quoted_unevenRequest
  have hpaid : quoted.outline.PaidByKeyHashes := houtline ▸ paidByKeyHashes_unevenOutline
  have hfee : trialFee quoted.plan (commitWith quoted (some 0)) = .ok 787 := by
    rw [trialFee_of_lengths hpaid (houtline ▸ scriptSigLengths_with_change)
      (by rw [houtline]; decide +kernel), houtline]
    decide +kernel
  have hbare : trialFee quoted.plan (commitWith quoted none) = .ok 788 := by
    rw [trialFee_of_lengths hpaid (houtline ▸ scriptSigLengths_without_change)
      (by rw [houtline]; decide +kernel), houtline]
    decide +kernel
  refine ⟨plan, quoted, hplan, hquoted, hfee, hbare, ?_⟩
  have hin : Amount.checkedTotal quoted.plan.amounts = .ok 1000 := by
    rw [quoted.amounts_outline, houtline]
    decide +kernel
  have hlocked : Amount.checkedTotal quoted.lockedValues = .ok 681 := by
    rw [quoted.lockedValues_outline, houtline]
    decide +kernel
  rw [ofQuoted, bind_of_eq_ok hin, bind_of_eq_ok hlocked, bind_of_eq_ok hfee, if_neg (by decide),
    ensureCovered, hbare]
  rfl

end FundedCommit

end CoinSpend
