import CoinSpend.Proofs.Script.Template
import CoinSpend.Proofs.Signing.Result

/-!
Signing a transaction that spends from the hashes of keys.

* `Sighash.legacyDigest`: the digest outside witnesses, for an input that is
  there; `Sighash.legacy_eq_ok_iff`, `Sighash.legacyDigest_congr`.
* `PrivateKey.keyHashScriptSig`: signature and key in the signature script.
* `Transaction.signKeyHashes`: a transaction with such a script in every input,
  the digests being those of the transaction as it is given.
* `Transaction.outcome_sign_of_keyHashes`: where every input spends from the hash
  of its key this is what signing gives, and signing succeeds.
-/

namespace CoinSpend

/-! ### Digests -/

namespace Sighash

/-- The digest outside witnesses, for an input that is there. -/
def legacyDigest (tx : Transaction) (index : ℕ) (scriptCode : Script) : Bytes :=
  doubleSha256 ((blank tx index scriptCode).encodeStripped ++ Bytes.ofNatLE 4 signAll)

/-- There is a digest for every input, and no other. -/
lemma legacy_eq_ok_iff {tx : Transaction} {index : ℕ} {scriptCode : Script} {digest : Bytes} :
    legacy tx index scriptCode = .ok digest ↔
      index < tx.inputs.length ∧ legacyDigest tx index scriptCode = digest := by
  rw [legacy, legacyDigest]
  split_ifs with h <;> simp [h]

/-- Transactions with one skeleton have the same digests. -/
lemma legacyDigest_congr {tx other : Transaction} (h : tx.skeleton = other.skeleton)
    (index : ℕ) (scriptCode : Script) :
    legacyDigest tx index scriptCode = legacyDigest other index scriptCode := by
  rw [legacyDigest, ← encodeStripped_blank_skeleton, h, encodeStripped_blank_skeleton,
    ← legacyDigest]

end Sighash

/-! ### Signature scripts -/

/-- A signature by the key over the digest of an input that spends from the hash of
the key, and the key. -/
def PrivateKey.keyHashScriptSig (key : PrivateKey) (tx : Transaction) (index : ℕ) : Script :=
  let digest := Sighash.legacyDigest tx index (Script.p2pkh key.publicKey.hash)
  Script.push (markedSignature (key.signDigest digest)) ++ Script.push key.publicKey.bytes

/-- Transactions with one skeleton are signed alike. -/
lemma PrivateKey.keyHashScriptSig_congr {tx other : Transaction}
    (h : tx.skeleton = other.skeleton) (key : PrivateKey) (index : ℕ) :
    key.keyHashScriptSig tx index = key.keyHashScriptSig other index := by
  rw [keyHashScriptSig, Sighash.legacyDigest_congr h, ← keyHashScriptSig]

/-- The key whose hash a lock holds spends it with such a script. -/
lemma SpendPath.ofScript_p2pkh {hash : Bytes} (h : hash.length = 20) (key : PrivateKey)
    (index : ℕ) : ofScript (Script.p2pkh hash) key index = .ok .p2pkh := by
  have hpkh : (Script.p2pkh hash).isP2pkh := Script.isP2pkh_iff.mpr ⟨hash, h, rfl⟩
  have htr : ¬(Script.p2pkh hash).isP2tr := by
    intro htr
    have hlong := Script.length_of_isP2tr htr
    rw [Script.length_of_isP2pkh hpkh] at hlong
    omega
  rw [ofScript, if_neg htr, if_pos hpkh]

namespace Transaction

variable {tx : Transaction} {keys : List PrivateKey}

/-- The transaction with every input signed as one that spends from the hash of
the key at its position. -/
def signKeyHashes (tx : Transaction) (keys : List PrivateKey) : Transaction :=
  tx.withScriptSigs (keys.zipIdx.map fun entry => entry.1.keyHashScriptSig tx entry.2)

/-- The signature scripts that are put in are there. -/
lemma map_scriptSig_withScriptSigs {scriptSigs : List Script}
    (h : tx.inputs.length = scriptSigs.length) :
    (tx.withScriptSigs scriptSigs).inputs.map TxIn.scriptSig = scriptSigs := by
  have hzip : (tx.withScriptSigs scriptSigs).inputs.map TxIn.scriptSig
      = (tx.inputs.zip scriptSigs).map Prod.snd := by
    simp [withScriptSigs, List.zip, List.map_zipWith]
  rw [hzip, List.map_snd_zip (Nat.le_of_eq h.symm)]

/-- The input at a position spends from the hash of a key. -/
def SpendsKeyHash (lookup : Lookup) (input : TxIn) (key : PrivateKey) : Prop :=
  ∃ output, lookup input.previous = some output ∧
    output.script = Script.p2pkh key.publicKey.hash

/-- The way and the satisfaction of an input that spends from the hash of its
key. -/
lemma entry_of_keyHash {prevouts : List TxOut} {index : ℕ} {prevout : TxOut} {key : PrivateKey}
    (hindex : index < tx.inputs.length) (hprevout : prevouts[index]? = some prevout)
    (hscript : prevout.script = Script.p2pkh key.publicKey.hash) :
    tx.Entry prevouts ((prevout, key), index)
      (.p2pkh, ⟨key.keyHashScriptSig tx index, []⟩) := by
  refine ⟨?_, ?_⟩
  · simp only [hscript]
    exact SpendPath.ofScript_p2pkh (length_hash160 _) key index
  · have hdigest : Sighash.legacy tx index prevout.script =
        .ok (Sighash.legacyDigest tx index (Script.p2pkh key.publicKey.hash)) :=
      Sighash.legacy_eq_ok_iff.mpr ⟨hindex, by rw [hscript]⟩
    simp only [Satisfaction.ofPath, hprevout]
    exact Satisfaction.keyHash_eq_ok_iff.mpr ⟨_, hdigest, rfl⟩

/-- Satisfactions without witnesses are put in like signature scripts. -/
lemma satisfy_eq_withScriptSigs (h : ∀ input ∈ tx.inputs, input.witness = [])
    (scriptSigs : List Script) :
    tx.satisfy (scriptSigs.map fun scriptSig => ⟨scriptSig, []⟩)
      = tx.withScriptSigs scriptSigs := by
  have hinputs : List.zipWith TxIn.satisfy tx.inputs
      (scriptSigs.map fun scriptSig => ⟨scriptSig, []⟩)
        = (tx.withScriptSigs scriptSigs).inputs := by
    refine List.ext_getElem (by simp [withScriptSigs]) fun i h₁ h₂ => ?_
    have hi : i < tx.inputs.length := by
      simp only [withScriptSigs, List.length_zipWith] at h₂
      omega
    simp [withScriptSigs, TxIn.satisfy, h tx.inputs[i] (List.getElem_mem hi)]
  rw [satisfy, hinputs]
  rfl

/-- **Signing succeeds where every input spends from the hash of its key**, and
gives signatures and keys in the signature scripts. -/
lemma outcome_sign_of_keyHashes {lookup : Lookup}
    (hwitness : ∀ input ∈ tx.inputs, input.witness = [])
    (h : List.Forall₂ (SpendsKeyHash lookup) tx.inputs keys) :
    (tx.sign keys lookup).outcome = .ok (tx.signKeyHashes keys) := by
  obtain ⟨prevouts, hprevouts, hscripts⟩ := exists_forall₂_between h
  have hentries : List.Forall₂ (tx.Entry prevouts) (prevouts.zip keys).zipIdx
      (keys.zipIdx.map fun entry => (.p2pkh, ⟨entry.1.keyHashScriptSig tx entry.2, []⟩)) := by
    rw [map_zipIdx_eq_zip hscripts.length_eq, List.forall₂_map_right_iff, List.forall₂_same]
    rintro ⟨⟨prevout, key⟩, i⟩ hinput
    obtain ⟨hprevout, hkey⟩ :=
      List.getElem?_zip_eq_some.mp (List.mem_zipIdx_iff_getElem?.mp hinput)
    obtain ⟨_, hcounterpart, hscript⟩ := exists_getElem?_of_forall₂ hscripts hprevout
    obtain rfl := Option.some.inj (hkey.symm.trans hcounterpart)
    have hi : i < tx.inputs.length := by
      rw [h.length_eq]
      exact (List.getElem?_eq_some_iff.mp hkey).1
    exact entry_of_keyHash hi hprevout hscript
  have hfound : tx.satisfactions keys lookup = .ok _ :=
    satisfactions_eq_ok_iff.mpr ⟨Nat.le_of_eq h.length_eq, prevouts, hprevouts, hentries⟩
  rw [outcome_sign, trialSigned_eq_ok_iff]
  refine ⟨_, hfound, ?_⟩
  simp only [signKeyHashes, ← satisfy_eq_withScriptSigs hwitness, List.map_map,
    Function.comp_def]

end Transaction

end CoinSpend
