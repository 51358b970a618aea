import CoinSpend.Draft.Legacy
import CoinSpend.Proofs.Draft.Basic
import CoinSpend.Proofs.Signing.KeyHash
import CoinSpend.Proofs.Signing.Signature

/-!
Signing a draft in the signature scripts alone.

* `Draft.legacyScriptSig_eq_ok_iff`: when a signature script is made, and what it is.
* `Draft.exists_filled_of_legacyTransaction`: the unsigned transaction is filled with one
  signature script for each spend, and `Draft.length_legacyScriptSig_lt` each of them can
  be written.
* `Draft.signLegacy_eq_ok_iff`: the result is the text of this transaction.
  `Draft.exists_signLegacy`: when there is one.
-/

namespace CoinSpend

namespace Draft

variable {draft : Draft} {spend : Spend} {found : LegacySpend} {index : ℕ} {tx : Transaction}

/-- What is known of a spend is of the output that it refers to. -/
lemma outpoint_of_legacySpend (h : draft.legacySpend index spend = .ok found) :
    spend.outpoint = found.outpoint := by
  obtain ⟨key, -, h⟩ := bind_eq_ok_iff.mp h
  cases hlock : spend.lock with
  | address text =>
      simp only [hlock, pure_eq_ok_iff] at h
      rw [← h]
  | script hex =>
      simp only [hlock, bind_eq_ok_iff, pure_eq_ok_iff] at h
      obtain ⟨script, -, rfl⟩ := h
      rfl

/-- The signature script of a spend over a digest. -/
def LegacySpend.scriptSig (spend : LegacySpend) (digest : Bytes) : Script :=
  let signature := Script.push (markedSignature (spend.key.signDigest digest))
  if spend.isShown then Script.push [] ++ signature ++ Script.push spend.scriptCode
  else signature ++ Script.push spend.key.publicKey.bytes

/-- A signature script is made if there is a digest, and the script that it shows fits one
push. -/
lemma legacyScriptSig_eq_ok_iff {scriptSig : Script} :
    legacyScriptSig tx index found = .ok scriptSig ↔
      ∃ digest, Sighash.legacy tx index found.scriptCode = .ok digest ∧
        (found.isShown = true → found.scriptCode.length ≤ Script.maxPush) ∧
        found.scriptSig digest = scriptSig := by
  simp only [legacyScriptSig, bind_eq_ok_iff]
  refine exists_congr fun digest => and_congr_right fun _ => ?_
  simp only [pushSignature_eq, Except.ok.injEq, exists_eq_left', LegacySpend.scriptSig]
  cases found.isShown with
  | true =>
      simp only [if_true, bind_eq_ok_iff, Script.pushOr_eq_ok_iff, pure_eq_ok_iff]
      constructor
      · rintro ⟨_, ⟨hfits, rfl⟩, rfl⟩
        exact ⟨fun _ => hfits, rfl⟩
      · rintro ⟨hfits, rfl⟩
        exact ⟨_, ⟨hfits trivial, rfl⟩, rfl⟩
  | false => simp [pure_eq_ok_iff]

/-- Whatever a signature script shows can be written. -/
lemma length_legacyScriptSig_lt {scriptSig : Script}
    (h : legacyScriptSig tx index found = .ok scriptSig) : scriptSig.length < UInt64.size := by
  obtain ⟨digest, -, hcode, rfl⟩ := legacyScriptSig_eq_ok_iff.mp h
  have hsignature := length_markedSignature_le (found.key.signDigest digest)
  have hpush := Script.length_push_le (markedSignature (found.key.signDigest digest))
  cases hshown : found.isShown with
  | true =>
      have hfits := hcode hshown
      have hempty := Script.length_push_le []
      have hscript := Script.length_push_le found.scriptCode
      rw [Script.maxPush] at hfits
      simp only [LegacySpend.scriptSig, hshown, if_true, List.length_append, List.length_nil,
        UInt64.size] at hempty ⊢
      omega
  | false =>
      have hkey := Script.length_push_le found.key.publicKey.bytes
      have hbytes := found.key.publicKey.length_bytes_le
      simp only [LegacySpend.scriptSig, hshown, Bool.false_eq_true, if_false, List.length_append,
        UInt64.size]
      omega

/-- Signing in the signature scripts alone fills the unsigned transaction with one script
for each spend. -/
lemma exists_filled_of_legacyTransaction (h : draft.legacyTransaction = .ok tx) :
    draft.spends ≠ [] ∧ ∃ outputs scriptSigs, draft.keptOutputs = .ok outputs ∧
      draft.spends.length ≤ scriptSigs.length ∧
      (∀ scriptSig ∈ scriptSigs, scriptSig.length < UInt64.size) ∧
      tx = (draft.unsigned outputs).withScriptSigs scriptSigs := by
  simp only [legacyTransaction, bind_eq_ok_iff, pure_eq_ok_iff] at h
  obtain ⟨⟨⟩, hparts, spends, hspends, outputs, houtputs, scriptSigs, hscriptSigs, rfl⟩ := h
  have houtpoints : draft.spends.map Spend.outpoint = spends.map LegacySpend.outpoint :=
    map_of_readSpends hspends fun _ _ _ => outpoint_of_legacySpend
  have hmade := (numbered_eq_ok_iff (legacyScriptSig _) (legacyScriptSigs _) (fun _ => rfl)
    fun _ _ _ => rfl).mp hscriptSigs
  refine ⟨(requireParts_eq_ok_iff.mp hparts).1, outputs, scriptSigs, houtputs, ?_, ?_,
    withScriptSigs_transactionWith houtpoints LegacySpend.scriptCode outputs scriptSigs⟩
  · have hlength := congrArg List.length houtpoints
    rw [List.length_map, List.length_map] at hlength
    rw [hlength, ← hmade.length_eq, List.length_zipIdx]
  · intro scriptSig hscriptSig
    obtain ⟨i, hi⟩ := List.mem_iff_getElem?.mp hscriptSig
    obtain ⟨_, -, hof⟩ := exists_getElem?_of_forall₂ hmade.flip hi
    exact length_legacyScriptSig_lt hof

/-- There is a signature script for every spend, if the scripts that are shown fit one push. -/
lemma exists_legacyScriptSigs {spends : List LegacySpend}
    (hlength : spends.length ≤ tx.inputs.length)
    (hfits : ∀ spend ∈ spends, spend.isShown = true → spend.scriptCode.length ≤ Script.maxPush) :
    ∃ scriptSigs, legacyScriptSigs tx 0 spends = .ok scriptSigs := by
  simp only [numbered_eq_ok_iff (legacyScriptSig tx) (legacyScriptSigs tx) (fun _ => rfl)
    fun _ _ _ => rfl]
  refine exists_forall₂_of_forall ?_
  rintro ⟨spend, i⟩ hentry
  have hi : i < tx.inputs.length := Nat.lt_of_lt_of_le (List.snd_lt_of_mem_zipIdx hentry) hlength
  exact ⟨_, legacyScriptSig_eq_ok_iff.mpr ⟨_, Sighash.legacy_eq_ok_iff.mpr ⟨hi, rfl⟩,
    hfits spend (List.fst_mem_of_mem_zipIdx hentry), rfl⟩⟩

/-- Counting apart, the text is that of the transaction. -/
lemma signLegacy_eq_ok_iff {text : String} :
    draft.signLegacy.outcome = .ok text ↔
      ∃ t, draft.legacyTransaction = .ok t ∧ t.toHex = text := by
  simp only [signLegacy, Metered.outcome_bind, Metered.outcome_liftM, Metered.outcome_record,
    Metered.outcome_pure, bind_eq_ok_iff, Except.ok.injEq]
  simp

/-- There is a text if the spends and the outputs are known, and the scripts that are shown
fit one push. -/
lemma exists_signLegacy (hparts : draft.requireParts = .ok ())
    (hspends : (readSpends draft.legacySpend 0 draft.spends).toOption.any fun spends =>
      ∀ spend ∈ spends, spend.isShown = true → spend.scriptCode.length ≤ Script.maxPush)
    {outputs : List TxOut} (houtputs : draft.keptOutputs = .ok outputs) :
    ∃ text, draft.signLegacy.outcome = .ok text := by
  obtain ⟨spends, hspends, hfits⟩ := exists_eq_ok_of_any hspends
  have hlength : spends.length ≤ (draft.transactionWith
      (spends.map fun s => finalInput s.outpoint s.scriptCode) outputs).inputs.length := by
    simp [transactionWith]
  obtain ⟨scriptSigs, hscriptSigs⟩ := exists_legacyScriptSigs hlength (of_decide_eq_true hfits)
  obtain ⟨t, ht⟩ : ∃ t, draft.legacyTransaction = .ok t := by
    rw [legacyTransaction, bind_of_eq_ok hparts, bind_of_eq_ok hspends, bind_of_eq_ok houtputs]
    exact ⟨_, bind_of_eq_ok hscriptSigs _⟩
  exact ⟨t.toHex, signLegacy_eq_ok_iff.mpr ⟨t, ht, rfl⟩⟩

end Draft

end CoinSpend
