import CoinSpend.Proofs.Signing.Refusal

/-!
What the inputs of a signed transaction hold.

* `Unlocks`: an input holds a signature by its key over the digest of the
  transaction in which it stands, in the form that its lock asks for.
* `unlocks_of_satisfaction`: what satisfies an input over the digests of a
  transaction unlocks it there.
* `Transaction.unlocks_of_sign`: in a signed transaction this is true of every
  input. The digests were taken before anything was signed; as none of them
  sees what signing writes, they are those of the result.
-/

namespace CoinSpend

/-- An input that stands at a position of a transaction `t` and spends an
output by a key holds a signature by the key over the digest of `t` itself, in
the form that the lock of the output asks for. The digest for output keys is
also over all outputs that `t` spends. -/
inductive Unlocks (t : Transaction) (prevouts : List TxOut) (index : ℕ) (prevout : TxOut)
    (key : PrivateKey) (input : TxIn) : Prop where
  | keyHash (digest : Bytes) (lock : prevout.script.isP2pkh)
      (digest_eq : Sighash.legacy t index prevout.script = .ok digest)
      (scriptSig_eq : input.scriptSig =
        Script.push (Der.encode (Ecdsa.signLowR key.secret.scalar digest) ++ [1]) ++
          Script.push key.publicKey.bytes)
      (witness_eq : input.witness = [])
  | witnessKeyHash (digest : Bytes) (lock : prevout.script.isP2wpkh)
      (digest_eq : Sighash.segwit t index (hash160 key.publicKey.shortBytes) prevout.value
        = .ok digest)
      (scriptSig_eq : input.scriptSig = [])
      (witness_eq : input.witness =
        [Der.encode (Ecdsa.signLowR key.secret.scalar digest) ++ [1], key.publicKey.shortBytes])
  | scriptHash (digest : Bytes) (redeemScript : Script)
      (lock : prevout.script = Script.p2sh (hash160 redeemScript))
      (digest_eq : Sighash.segwit t index (hash160 key.publicKey.shortBytes) prevout.value
        = .ok digest)
      (scriptSig_eq : input.scriptSig = Script.push redeemScript)
      (witness_eq : input.witness =
        [Der.encode (Ecdsa.signLowR key.secret.scalar digest) ++ [1], key.publicKey.shortBytes])
  | outputKey (digest : Bytes) (lock : prevout.script.isP2tr)
      (digest_eq : Sighash.taproot t index prevouts none = .ok digest)
      (scriptSig_eq : input.scriptSig = [])
      (witness_eq : input.witness = [Schnorr.sign key.commitScalar digest])
      (length_eq : (Schnorr.sign key.commitScalar digest).length = 64)

/-- Signature and key for a witness program. The key has to be in the short
form. -/
lemma Satisfaction.witnessKeyHash_eq_ok {t : Transaction} {index : ℕ} {key : PrivateKey}
    {prevout : TxOut} {redeemScript : Option Script} {satisfaction : Satisfaction}
    (h : witnessKeyHash t index key prevout redeemScript = .ok satisfaction) :
    ∃ digest, Sighash.segwit t index (hash160 key.publicKey.shortBytes) prevout.value
        = .ok digest ∧
      satisfaction.scriptSig = redeemScript.elim [] Script.push ∧
      satisfaction.witness =
        [Der.encode (Ecdsa.signLowR key.secret.scalar digest) ++ [1],
          key.publicKey.shortBytes] := by
  obtain ⟨hshort, -, digest, hdigest, rfl⟩ := witnessKeyHash_eq_ok_iff.mp h
  have hbytes : key.publicKey.bytes = key.publicKey.shortBytes := by
    simp [PublicKey.bytes, PrivateKey.publicKey, hshort]
  rw [PublicKey.hash, hbytes] at hdigest
  exact ⟨digest, hdigest, rfl, by rw [hbytes]; rfl⟩

/-- The satisfaction of an input over the digests of a transaction unlocks the
input there. -/
lemma unlocks_of_satisfaction {t : Transaction} {prevouts : List TxOut} {index : ℕ}
    {prevout : TxOut} {key : PrivateKey} {input : TxIn} {path : SpendPath}
    {satisfaction : Satisfaction} (hprevout : prevouts[index]? = some prevout)
    (hpath : SpendPath.ofScript prevout.script key index = .ok path)
    (hsat : Satisfaction.ofPath t index path key prevouts = .ok satisfaction) :
    Unlocks t prevouts index prevout key (input.satisfy satisfaction) := by
  simp only [Satisfaction.ofPath, hprevout] at hsat
  rcases SpendPath.cases_of_ofScript hpath with
    ⟨lock, rfl⟩ | ⟨lock, rfl⟩ | ⟨lock, rfl⟩ | ⟨lock, rfl⟩
  · simp only [Satisfaction.keyPath, bind_eq_ok_iff, pure_eq_ok_iff] at hsat
    obtain ⟨digest, hdigest, rfl⟩ := hsat
    exact .outputKey digest lock hdigest rfl rfl (Schnorr.length_sign _ _)
  · obtain ⟨digest, hdigest, rfl⟩ := Satisfaction.keyHash_eq_ok_iff.mp hsat
    exact .keyHash digest lock hdigest rfl rfl
  · obtain ⟨digest, hdigest, hscriptSig, hwitness⟩ := Satisfaction.witnessKeyHash_eq_ok hsat
    exact .witnessKeyHash digest lock hdigest hscriptSig hwitness
  · obtain ⟨digest, hdigest, hscriptSig, hwitness⟩ := Satisfaction.witnessKeyHash_eq_ok hsat
    exact .scriptHash digest _ lock hdigest hscriptSig hwitness

namespace Transaction

/-- **Every signature is over the transaction that is handed out.** If signing
succeeds, the result differs from the given transaction only in what unlocks
its inputs, and every input of it holds a signature by the key at its position
over a digest of the result itself. -/
theorem unlocks_of_sign {tx t : Transaction} {keys : List PrivateKey} {lookup : Lookup}
    (h : (tx.sign keys lookup).outcome = .ok t) :
    t.skeleton = tx.skeleton ∧
      ∃ prevouts, t.inputs.map (fun input => lookup input.previous) = prevouts.map some ∧
        ∀ i input, t.inputs[i]? = some input →
          ∃ prevout key, prevouts[i]? = some prevout ∧ keys[i]? = some key ∧
            Unlocks t prevouts i prevout key input := by
  rw [outcome_sign] at h
  have hskeleton := skeleton_of_trialSigned h
  obtain ⟨found, hfound, rfl⟩ := trialSigned_eq_ok_iff.mp h
  obtain ⟨hkeys, prevouts, hspent, hentries⟩ := satisfactions_eq_ok_iff.mp hfound
  refine ⟨hskeleton, prevouts, ?_, ?_⟩
  · have hlooked : tx.inputs.map (fun input => lookup input.previous) = prevouts.map some := by
      rw [← List.forall₂_eq_eq_eq, List.forall₂_map_left_iff, List.forall₂_map_right_iff]
      exact hspent
    have hprevious := congrArg (List.map lookup) (map_previous_of_skeleton hskeleton)
    rw [List.map_map, List.map_map] at hprevious
    exact hprevious.trans hlooked
  · intro i input hinput
    obtain ⟨source, satisfaction, hsource, hsat, rfl⟩ := List.getElem?_zipWith_eq_some.mp hinput
    obtain ⟨prevout, hprevout, -⟩ := exists_getElem?_of_forall₂ hspent hsource
    have hi : i < keys.length :=
      Nat.lt_of_lt_of_le (List.getElem?_eq_some_iff.mp hsource).1 hkeys
    have hpair : (prevouts.zip keys).zipIdx[i]? = some ((prevout, keys[i]), i) := by
      simp [List.getElem?_zip_eq_some, hprevout, hi]
    obtain ⟨entry, hentry, hpath, hover⟩ := exists_getElem?_of_forall₂ hentries hpair
    obtain rfl : entry.2 = satisfaction := by
      simpa [hentry] using hsat
    refine ⟨prevout, keys[i], hprevout, List.getElem?_eq_getElem hi, ?_⟩
    -- the digests of the given transaction are those of the signed one
    rw [← Satisfaction.ofPath_congr hskeleton] at hover
    exact unlocks_of_satisfaction hprevout hpath hover

/-- A transaction with an input of every kind is signed, and each signature is
over the result. -/
theorem unlocks_of_sign_every_kind :
    ∃ t, (sampleSpend.sign (List.replicate 4 sampleKey) sampleLookup).outcome = .ok t ∧
      t.skeleton = sampleSpend.skeleton ∧
      ∃ prevouts, t.inputs.map (fun input => sampleLookup input.previous) = prevouts.map some ∧
        ∀ i input, t.inputs[i]? = some input →
          ∃ prevout key, prevouts[i]? = some prevout ∧
            (List.replicate 4 sampleKey)[i]? = some key ∧
            Unlocks t prevouts i prevout key input := by
  obtain ⟨found, hfound⟩ := exists_satisfactions_iff.mpr signable_sampleSpend
  -- the fifth key is one too many
  have hkeys : (List.replicate 5 sampleKey).take sampleSpend.inputs.length
      = List.replicate 4 sampleKey := rfl
  rw [← satisfactions_take, hkeys] at hfound
  have ht := congrArg Metered.outcome (sign_of_satisfactions hfound)
  exact ⟨_, ht, unlocks_of_sign ht⟩

end Transaction

end CoinSpend
