import CoinSpend.Proofs.Curve.Ecdsa
import CoinSpend.Proofs.Draft.SigopCost
import CoinSpend.Proofs.Inscription.Funding
import CoinSpend.Proofs.Signing.KeyHash
import CoinSpend.Proofs.Signing.Signature
import CoinSpend.Proofs.Transaction.Table

/-!
The fee of commit transactions that the hashes of keys pay for.

* `PrivateKey.scriptSigLength?`: the length of a signature script, reckoned from the
  first candidate nonce. `PrivateKey.length_keyHashScriptSig`: it is the right one.
* `Transaction.virtualSize_withScriptSigs_congr`: of signature scripts only the lengths
  matter.
* `FundedCommit.trialFee_of_keyHashes`: what is paid for is the virtual size, as no
  check costs anything.
* `CommitOutline`: what decides a commit transaction and its fee.
  `CommitOutline.PaidByKeyHashes`: the hashes of keys pay for everything.
  `FundedCommit.trialFee_of_lengths`: then the fee follows from the lengths of the
  signature scripts.
-/

namespace CoinSpend

/-! ### Signature scripts -/

/-- The length of the signature script of an input that spends from the hash of a key in
its short form, the lock being given, if the first candidate nonce serves. -/
def PrivateKey.scriptSigLength? (key : PrivateKey) (lock : Script) (tx : Transaction)
    (index : ℕ) : Option ℕ :=
  let message := (Sighash.blank tx index lock).encodeStripped
    ++ Bytes.ofNatLE 4 Sighash.signAll
  (Ecdsa.firstTry? key.secret.scalar (Sha256.digest (Sha256.digest message))).map fun signature =>
    (Der.encode signature).length + 36

/-- Then the signature script has this length. -/
lemma PrivateKey.length_keyHashScriptSig {key : PrivateKey} {lock : Script} {tx : Transaction}
    {index n : ℕ} (hlock : lock = Script.p2pkh key.publicKey.hash) (hshort : key.compressed)
    (h : key.scriptSigLength? lock tx index = some n) :
    (key.keyHashScriptSig tx index).length = n := by
  simp only [scriptSigLength?, Option.map_eq_some_iff] at h
  obtain ⟨signature, hfirst, rfl⟩ := h
  have hdigest : key.signDigest (Sighash.legacyDigest tx index (Script.p2pkh key.publicKey.hash))
      = signature := by
    rw [Sighash.legacyDigest, doubleSha256, sha256_eq_digest, sha256_eq_digest, ← hlock, signDigest]
    exact Ecdsa.signLowR_of_firstTry hfirst
  have hkey : key.publicKey.bytes.length = 33 := by
    have hform : key.publicKey.compressed = true := hshort
    rw [PublicKey.bytes, if_pos hform, PublicKey.length_shortBytes]
  have hmarked : (markedSignature signature).length = (Der.encode signature).length + 1 := by
    rw [markedSignature, List.length_append]
    rfl
  have hle := Der.length_encode_le signature
  simp only [keyHashScriptSig, hdigest]
  rw [List.length_append, Script.push_of_lt (by omega), Script.push_of_lt (by omega),
    List.length_cons, List.length_cons, hmarked, hkey]

namespace Transaction

variable {tx : Transaction}

/-- Signature scripts that are no longer do not enlarge a transaction. -/
lemma virtualSize_withScriptSigs_le {scripts others : List Script}
    (h : List.Forall₂ (fun a b : Script => a.length ≤ b.length) scripts others) :
    (tx.withScriptSigs scripts).virtualSize ≤ (tx.withScriptSigs others).virtualSize := by
  have hinputs (inputs : List TxIn) : List.Forall₂ TxIn.NoLarger
      (List.zipWith (fun input scriptSig => { input with scriptSig }) inputs scripts)
      (List.zipWith (fun input scriptSig => { input with scriptSig }) inputs others) := by
    induction h generalizing inputs with
    | nil => simp
    | cons hle _ ih =>
        cases inputs with
        | nil => exact .nil
        | cons input rest => exact .cons ⟨hle, Nat.le_refl _, id⟩ (ih rest)
  exact virtualSize_le_of_noLarger (hinputs tx.inputs) (Nat.le_refl _)

/-- Of signature scripts only the lengths matter. -/
lemma virtualSize_withScriptSigs_congr {scripts others : List Script}
    (h : scripts.map List.length = others.map List.length) :
    (tx.withScriptSigs scripts).virtualSize = (tx.withScriptSigs others).virtualSize := by
  rw [← List.forall₂_eq_eq_eq, List.forall₂_map_left_iff, List.forall₂_map_right_iff] at h
  exact Nat.le_antisymm (virtualSize_withScriptSigs_le (h.imp fun _ _ => Nat.le_of_eq))
    (virtualSize_withScriptSigs_le (h.flip.imp fun _ _ heq => Nat.le_of_eq heq.symm))

end Transaction

/-! ### Fees -/

/-- The scripts of the outputs that pay are those of what is looked up. -/
lemma InscriptionPlan.get?_scriptView (plan : InscriptionPlan) (outpoint : OutPoint) :
    plan.scriptView.get? outpoint = (plan.lookup outpoint).map TxOut.script := by
  rw [lookup, ← OutPoint.Table.get?_map, scriptView, List.map_map]
  rfl

namespace FundedCommit

open Transaction (SpendsKeyHash)

variable {plan : InscriptionPlan} {quoted : QuotedReveals} {change : Option Amount}

/-- Where hashes of keys pay for everything, the signatures stand in the signature
scripts. -/
lemma trialSigned_of_keyHashes
    (hkeys : List.Forall₂ (SpendsKeyHash plan.lookup) (commitWith quoted change).inputs plan.keys) :
    (commitWith quoted change).trialSigned plan.keys plan.lookup
      = .ok ((commitWith quoted change).signKeyHashes plan.keys) := by
  have hbare : ∀ input ∈ (commitWith quoted change).inputs, input.witness = [] := by
    intro input hinput
    obtain ⟨f, -, rfl⟩ := List.mem_map.mp hinput
    rfl
  rw [← Transaction.outcome_sign, Transaction.outcome_sign_of_keyHashes hbare hkeys]

/-- If the outputs hold no checks then, the fee is paid for the bytes. -/
lemma trialFee_of_keyHashes
    (hkeys : List.Forall₂ (SpendsKeyHash plan.lookup) (commitWith quoted change).inputs plan.keys)
    (hchecks : sumOf (fun output => Script.sigops false output.script)
      (commitWith quoted change).outputs = 0) :
    trialFee plan (commitWith quoted change)
      = Amount.checked (((commitWith quoted change).signKeyHashes plan.keys).virtualSize
          * plan.commitFeeRate.toNat) := by
  have hsigned := trialSigned_of_keyHashes hkeys
  have hcost := Transaction.sigopCost_of_trialSigned hsigned plan.get?_scriptView
  have hsilent : (((commitWith quoted change).signKeyHashes plan.keys).inputs.countP fun input =>
      (plan.scriptView.get? input.previous).any fun script => script.isP2wpkh || script.isP2sh)
        = 0 := by
    refine List.countP_eq_zero.mpr fun input hinput => ?_
    obtain ⟨i, hi⟩ := List.mem_iff_getElem?.mp hinput
    obtain ⟨source, prevout, key, path, sig, hsource, hlookup, hkey, -, -, rfl⟩ :=
      Transaction.exists_satisfaction_of_trialSigned hsigned hi
    obtain ⟨output, houtput, hscript⟩ := rel_of_forall₂ hkeys hsource hkey
    obtain rfl : output = prevout := Option.some.inj (houtput.symm.trans hlookup)
    have hlength : output.script.length = 25 := by
      rw [hscript]
      exact Script.length_of_isP2pkh (Script.isP2pkh_iff.mpr ⟨_, length_hash160 _, rfl⟩)
    have hwpkh : ¬output.script.isP2wpkh := fun h => by
      rw [Script.length_of_isP2wpkh h] at hlength
      omega
    have hsh : ¬output.script.isP2sh := fun h => by
      rw [Script.length_of_isP2sh h] at hlength
      omega
    rw [plan.get?_scriptView]
    simp [TxIn.satisfy, hlookup, hwpkh, hsh]
  have hsize : ((commitWith quoted change).signKeyHashes plan.keys).effectiveSize plan.scriptView
      = .ok ((commitWith quoted change).signKeyHashes plan.keys).virtualSize := by
    by_cases hview : plan.scriptView = []
    · rw [Transaction.effectiveSize, if_pos (List.isEmpty_iff.mpr hview)]
    · rw [Transaction.effectiveSize_of_sigopCost hview hcost, hsilent]
      simp only [Transaction.signKeyHashes, Transaction.withScriptSigs, hchecks]
      simp
  rw [trialFee, bind_of_eq_ok hsigned, bind_of_eq_ok hsize]

end FundedCommit

/-! ### Outlines -/

/-- What decides a commit transaction and its fee. -/
structure CommitOutline where
  funding : List FundingInput
  commitFeeRate : UInt64
  minChange : Amount
  changeScript : Script
  /-- The outputs that the reveals spend. -/
  revealOutputs : List TxOut
  lockedValues : List Amount
  deriving DecidableEq

/-- The outline of quoted reveals. -/
def QuotedReveals.outline (quoted : QuotedReveals) : CommitOutline where
  funding := quoted.plan.funding
  commitFeeRate := quoted.plan.commitFeeRate
  minChange := quoted.plan.minChange
  changeScript := quoted.plan.changeScript
  revealOutputs := FundedCommit.revealOutputs quoted
  lockedValues := quoted.lockedValues

namespace CommitOutline

/-- The commit transaction with the given change. -/
def commitWith (outline : CommitOutline) (change : Option Amount) : Transaction where
  version := inscriptionVersion
  lockTime := 0
  inputs := outline.funding.map fun f => replaceableInput f.outpoint
  outputs := outline.revealOutputs ++
    change.toList.map fun value => ⟨value, outline.changeScript⟩

/-- The lengths of its signature scripts, where the first candidate nonces serve. -/
def scriptSigLengths (outline : CommitOutline) (change : Option Amount) : List (Option ℕ) :=
  outline.funding.zipIdx.map fun entry =>
    entry.1.key.scriptSigLength? entry.1.output.script (outline.commitWith change) entry.2

/-- Every output that pays is listed once, and the hash of its key, which is in its short
form, is its lock. -/
structure PaidByKeyHashes (outline : CommitOutline) : Prop where
  nodup : (outline.funding.map FundingInput.outpoint).Nodup
  spends : ∀ f ∈ outline.funding,
    f.output.script = Script.p2pkh f.key.publicKey.hash ∧ f.key.compressed

/-- The amounts of the outputs that pay. -/
def amounts (outline : CommitOutline) : List Amount :=
  outline.funding.map fun f => f.output.value

end CommitOutline

namespace QuotedReveals

lemma amounts_outline (quoted : QuotedReveals) : quoted.plan.amounts = quoted.outline.amounts :=
  rfl

lemma lockedValues_outline (quoted : QuotedReveals) :
    quoted.lockedValues = quoted.outline.lockedValues :=
  rfl

/-- A request whose quoted reveals have a given outline. -/
lemma exists_of_outline {request : InscriptionRequest} {params : ChainParams}
    {outline : CommitOutline}
    (h : ((do
      let plan ← InscriptionPlan.ofRequest request params
      ofPlan plan : Except TxError QuotedReveals)).toOption.any fun quoted =>
        quoted.outline = outline) :
    ∃ plan quoted, InscriptionPlan.ofRequest request params = .ok plan ∧
      ofPlan plan = .ok quoted ∧ quoted.outline = outline := by
  obtain ⟨quoted, hquoted, houtline⟩ := exists_eq_ok_of_any h
  simp only [bind_eq_ok_iff] at hquoted
  obtain ⟨plan, hplan, hquoted⟩ := hquoted
  exact ⟨plan, quoted, hplan, hquoted, of_decide_eq_true houtline⟩

end QuotedReveals

namespace FundedCommit

variable {quoted : QuotedReveals} {change : Option Amount} {lengths : List ℕ}

/-- Every input spends from the hash of the key at its position. -/
lemma spendsKeyHash_commitWith (hpaid : quoted.outline.PaidByKeyHashes)
    (change : Option Amount) :
    List.Forall₂ (Transaction.SpendsKeyHash quoted.plan.lookup) (commitWith quoted change).inputs
      quoted.plan.keys := by
  rw [commitWith, InscriptionPlan.keys, List.forall₂_map_left_iff, List.forall₂_map_right_iff,
    List.forall₂_same]
  intro f hf
  refine ⟨f.output, ?_, (hpaid.spends f hf).1⟩
  have hnodup : ((quoted.plan.funding.map fun f => (f.outpoint, f.output)).map Prod.fst).Nodup := by
    rw [List.map_map]
    exact hpaid.nodup
  exact OutPoint.Table.get?_eq_some_of_mem hnodup (List.mem_map_of_mem hf)

/-- The signature scripts have the lengths that are reckoned. -/
lemma length_scriptSigs (hpaid : quoted.outline.PaidByKeyHashes)
    (hlengths : quoted.outline.scriptSigLengths change = lengths.map some) :
    (quoted.plan.keys.zipIdx.map fun entry =>
      entry.1.keyHashScriptSig (commitWith quoted change) entry.2).map List.length = lengths := by
  have hlength : ∀ entry ∈ quoted.plan.funding.zipIdx,
      entry.1.key.scriptSigLength? entry.1.output.script (commitWith quoted change) entry.2
        = some (entry.1.key.keyHashScriptSig (commitWith quoted change) entry.2).length := by
    intro entry hentry
    have hmem : entry.1.key.scriptSigLength? entry.1.output.script (commitWith quoted change)
        entry.2 ∈ quoted.outline.scriptSigLengths change := List.mem_map.mpr ⟨entry, hentry, rfl⟩
    rw [hlengths, List.mem_map] at hmem
    obtain ⟨n, -, hn⟩ := hmem
    obtain ⟨hlock, hshort⟩ := hpaid.spends _ (List.fst_mem_of_mem_zipIdx hentry)
    rw [PrivateKey.length_keyHashScriptSig hlock hshort hn.symm]
    exact hn.symm
  refine List.map_injective_iff.mpr (Option.some_injective ℕ) ?_
  rw [← hlengths, InscriptionPlan.keys, List.zipIdx_map, List.map_map, List.map_map, List.map_map]
  exact (List.map_congr_left hlength).symm

/-- So have those of the signed commit transaction. -/
lemma map_length_scriptSig {t : Transaction} (hpaid : quoted.outline.PaidByKeyHashes)
    (hlengths : quoted.outline.scriptSigLengths change = lengths.map some)
    (ht : (commitWith quoted change).trialSigned quoted.plan.keys quoted.plan.lookup = .ok t) :
    t.inputs.map (fun input => input.scriptSig.length) = lengths := by
  have hkeys := spendsKeyHash_commitWith hpaid change
  rw [trialSigned_of_keyHashes hkeys] at ht
  obtain rfl := Except.ok.inj ht
  have hcount : (commitWith quoted change).inputs.length
      = (quoted.plan.keys.zipIdx.map fun entry =>
        entry.1.keyHashScriptSig (commitWith quoted change) entry.2).length := by
    rw [List.length_map, List.length_zipIdx, hkeys.length_eq]
  rw [← length_scriptSigs hpaid hlengths, ← Transaction.map_scriptSig_withScriptSigs hcount,
    List.map_map]
  rfl

/-- **The fee of a copy whose signature scripts are known by their lengths**, where the
outputs hold no checks. -/
lemma trialFee_of_lengths (hpaid : quoted.outline.PaidByKeyHashes)
    (hlengths : quoted.outline.scriptSigLengths change = lengths.map some)
    (hchecks : sumOf (fun output => Script.sigops false output.script)
      (quoted.outline.commitWith change).outputs = 0) :
    trialFee quoted.plan (commitWith quoted change)
      = Amount.checked (((quoted.outline.commitWith change).withScriptSigs
          (lengths.map fun n => List.replicate n 0)).virtualSize
            * quoted.outline.commitFeeRate.toNat) := by
  have hdummies : (lengths.map fun n => (List.replicate n 0 : Script)).map List.length
      = lengths := by
    simp [Function.comp_def]
  rw [trialFee_of_keyHashes (spendsKeyHash_commitWith hpaid change) hchecks,
    Transaction.signKeyHashes, Transaction.virtualSize_withScriptSigs_congr
      ((length_scriptSigs hpaid hlengths).trans hdummies.symm)]
  rfl

end FundedCommit

end CoinSpend
