import CoinSpend.Draft.Forecast
import CoinSpend.Proofs.Draft.Legacy
import CoinSpend.Proofs.Draft.Request
import CoinSpend.Proofs.Draft.Sign

/-!
The ways of signing a draft agree.

* `Spend.OwnedBy`: a spend pays from the hash of a key, which is given with it.
* `Draft.legacyTransaction_eq_ok_iff`, `Draft.sign_of_ownedBy_eq_ok_iff`: with such spends
  both ways sign every input of the unsigned transaction for the hash of its key.
  The one fails only for want of parts, the other also if the draft is not covered.
* `Draft.signWithOneKey_eq_ok`: if all spends belong to one key, its answer to the
  request of the draft is this transaction too.
* `Draft.paths_agree`: hence the three ways have one result.
-/

namespace CoinSpend

/-- The spend pays from the hash of a key, and the key is given with it. -/
structure Spend.OwnedBy (params : ChainParams) (spend : Spend) (key : PrivateKey) : Prop where
  lock : ∃ text, spend.lock = .address text ∧
    Address.toScript text params = .ok (Script.p2pkh key.publicKey.hash)
  privateKey : ∃ text, spend.privateKey = some text ∧ PrivateKey.ofText text params = .ok key

namespace Draft

variable {draft : Draft} {keys : List PrivateKey}

/-! ### Spends and their keys -/

section Pairs

variable {α : Type} {spends : List Spend}

/-- What is made of the spends alone does not need the keys. -/
lemma map_fst_pairs (h : spends.length = keys.length) (f : Spend → α) :
    (spends.zip keys).map (fun pair => f pair.1) = spends.map f := by
  conv_rhs => rw [← List.map_fst_zip (Nat.le_of_eq h), List.map_map]
  rfl

/-- What is made of the keys alone does not need the spends. -/
lemma map_snd_pairs (h : spends.length = keys.length) (f : PrivateKey → α) :
    (spends.zip keys).map (fun pair => f pair.2) = keys.map f := by
  conv_rhs => rw [← List.map_snd_zip (Nat.le_of_eq h.symm), List.map_map]
  rfl

/-- Spends that belong to keys are read with them, in order. -/
lemma readSpends_of_ownedBy {read : ℕ → Spend → Except TxError α}
    {f : Spend → PrivateKey → α} {params : ChainParams} (index : ℕ)
    (h : List.Forall₂ (Spend.OwnedBy params) spends keys)
    (hread : ∀ index spend key, Spend.OwnedBy params spend key →
      read index spend = .ok (f spend key)) :
    readSpends read index spends = .ok ((spends.zip keys).map fun pair => f pair.1 pair.2) := by
  induction h generalizing index with
  | nil => rfl
  | cons hkey _ ih =>
      rw [readSpends, hread index _ _ hkey, ih]
      rfl

end Pairs

/-! ### Signature scripts alone -/

/-- What is known of a spend that belongs to a key. -/
def legacyOf (spend : Spend) (key : PrivateKey) : LegacySpend :=
  ⟨spend.outpoint, key, Script.p2pkh key.publicKey.hash, false⟩

lemma legacySpend_of_ownedBy {index : ℕ} {spend : Spend} {key : PrivateKey}
    (h : spend.OwnedBy draft.params key) :
    draft.legacySpend index spend = .ok (legacyOf spend key) := by
  obtain ⟨⟨_, hlock, -⟩, _, htext, hkey⟩ := h
  simp only [legacySpend, Spend.key, htext, hkey, hlock]
  rfl

/-- The signature script of such a spend. -/
lemma legacyScriptSig_legacyOf {tx : Transaction} {index : ℕ} (spend : Spend) (key : PrivateKey)
    (h : index < tx.inputs.length) :
    legacyScriptSig tx index (legacyOf spend key) = .ok (key.keyHashScriptSig tx index) := by
  have hdigest : Sighash.legacy tx index (Script.p2pkh key.publicKey.hash) = .ok _ :=
    Sighash.legacy_eq_ok_iff.mpr ⟨h, rfl⟩
  exact legacyScriptSig_eq_ok_iff.mpr ⟨_, hdigest, nofun, rfl⟩

/-- Such spends in a row. -/
def legacySpends (spends : List Spend) (keys : List PrivateKey) : List LegacySpend :=
  (spends.zip keys).map fun pair => legacyOf pair.1 pair.2

lemma map_outpoint_legacySpends {spends : List Spend} (h : spends.length = keys.length) :
    spends.map Spend.outpoint = (legacySpends spends keys).map LegacySpend.outpoint := by
  rw [legacySpends, List.map_map]
  exact (map_fst_pairs h Spend.outpoint).symm

/-- Their signature scripts. -/
lemma legacyScriptSigs_legacySpends {tx : Transaction} {spends : List Spend}
    (hlength : spends.length = keys.length) (h : keys.length ≤ tx.inputs.length) :
    legacyScriptSigs tx 0 (legacySpends spends keys)
      = .ok (keys.zipIdx.map fun entry => entry.1.keyHashScriptSig tx entry.2) := by
  rw [legacySpends, numbered_eq_ok_iff (legacyScriptSig tx) (legacyScriptSigs tx) (fun _ => rfl)
    fun _ _ _ => rfl, map_zipIdx_eq_zip hlength, List.zipIdx_map, List.forall₂_map_left_iff,
    List.forall₂_map_right_iff, List.forall₂_same]
  rintro ⟨⟨spend, key⟩, i⟩ hentry
  have hi : i < (spends.zip keys).length := List.snd_lt_of_mem_zipIdx hentry
  rw [List.length_zip, hlength, Nat.min_self] at hi
  exact legacyScriptSig_legacyOf spend key (Nat.lt_of_lt_of_le hi h)

/-- Put into the transaction in which they were made they give the unsigned
transaction signed for the hashes of the keys: the script codes that stand in the
inputs meanwhile do not enter the digests. -/
lemma legacyScriptSigs_transactionWith (h : draft.spends.length = keys.length)
    (outputs : List TxOut) :
    (do
      let tx := draft.transactionWith ((legacySpends draft.spends keys).map fun s =>
        finalInput s.outpoint s.scriptCode) outputs
      let scriptSigs ← legacyScriptSigs tx 0 (legacySpends draft.spends keys)
      return tx.withScriptSigs scriptSigs)
      = (.ok ((draft.unsigned outputs).signKeyHashes keys) : Except TxError Transaction) := by
  have houtpoints := map_outpoint_legacySpends h
  have hskeleton := (skeleton_transactionWith houtpoints LegacySpend.scriptCode outputs).trans
    (draft.skeleton_unsigned outputs).symm
  have hinputs : keys.length ≤ (draft.transactionWith ((legacySpends draft.spends keys).map
      fun s => finalInput s.outpoint s.scriptCode) outputs).inputs.length := by
    simp [transactionWith, legacySpends, h]
  rw [bind_of_eq_ok (legacyScriptSigs_legacySpends h hinputs),
    withScriptSigs_transactionWith houtpoints, Transaction.signKeyHashes]
  simp only [PrivateKey.keyHashScriptSig_congr hskeleton]
  rfl

/-- Signing in the signature scripts alone signs the unsigned transaction for the
hashes of the keys, whenever there are parts. -/
lemma legacyTransaction_eq_ok_iff
    (howned : List.Forall₂ (Spend.OwnedBy draft.params) draft.spends keys) {t : Transaction} :
    draft.legacyTransaction = .ok t ↔
      draft.requireParts = .ok () ∧
        ∃ outputs, draft.keptOutputs = .ok outputs ∧
          t = (draft.unsigned outputs).signKeyHashes keys := by
  have hread : readSpends draft.legacySpend 0 draft.spends
      = .ok (legacySpends draft.spends keys) :=
    readSpends_of_ownedBy 0 howned fun _ _ _ => legacySpend_of_ownedBy
  constructor
  · intro h
    obtain ⟨⟨⟩, hparts, h⟩ := bind_eq_ok_iff.mp h
    rw [bind_of_eq_ok hread] at h
    obtain ⟨outputs, houtputs, h⟩ := bind_eq_ok_iff.mp h
    rw [legacyScriptSigs_transactionWith howned.length_eq] at h
    exact ⟨hparts, outputs, houtputs, (Except.ok.inj h).symm⟩
  · rintro ⟨hparts, outputs, houtputs, rfl⟩
    rw [legacyTransaction, bind_of_eq_ok hparts, bind_of_eq_ok hread, bind_of_eq_ok houtputs]
    exact legacyScriptSigs_transactionWith howned.length_eq outputs

/-! ### Signing by the locks -/

/-- What is known of a spend that belongs to a key. -/
def keyedOf (spend : Spend) (key : PrivateKey) : KeyedSpend :=
  ⟨spend.outpoint, ⟨spend.amount, Script.p2pkh key.publicKey.hash⟩, key⟩

lemma keyedSpend_of_ownedBy {index : ℕ} {spend : Spend} {key : PrivateKey}
    (h : spend.OwnedBy draft.params key) :
    draft.keyedSpend index spend = .ok (keyedOf spend key) := by
  obtain ⟨⟨_, hlock, hscript⟩, _, htext, hkey⟩ := h
  simp only [keyedSpend, Spend.key, htext, hkey, hlock, Lock.toScript, hscript]
  rfl

/-- Such spends in a row. -/
def keyedSpends (spends : List Spend) (keys : List PrivateKey) : List KeyedSpend :=
  (spends.zip keys).map fun pair => keyedOf pair.1 pair.2

lemma map_key_keyedSpends {spends : List Spend} (h : spends.length = keys.length) :
    (keyedSpends spends keys).map KeyedSpend.key = keys := by
  rw [keyedSpends, List.map_map]
  exact (map_snd_pairs h id).trans (List.map_id keys)

/-- The inputs of the unsigned transaction spend from the hashes of the keys, as far
as can be looked up. -/
lemma spendsKeyHash_unsigned (h : draft.spends.length = keys.length)
    (hdistinct : (draft.spends.map Spend.outpoint).Nodup) (outputs : List TxOut) :
    List.Forall₂ (Transaction.SpendsKeyHash (lookup (keyedSpends draft.spends keys)))
      (draft.unsigned outputs).inputs keys := by
  have hfst : ((keyedSpends draft.spends keys).map fun s => (s.outpoint, s.output)).map Prod.fst
      = draft.spends.map Spend.outpoint := by
    rw [keyedSpends, List.map_map, List.map_map]
    exact map_fst_pairs h Spend.outpoint
  refine forall₂_of_getElem? (by rw [length_inputs_unsigned, h]) fun i input key hinput hkey => ?_
  simp only [unsigned, transactionWith, List.getElem?_map, Option.map_eq_some_iff] at hinput
  obtain ⟨spend, hspend, rfl⟩ := hinput
  have hpair : (spend, key) ∈ draft.spends.zip keys :=
    List.mem_of_getElem? (List.getElem?_zip_eq_some.mpr ⟨hspend, hkey⟩)
  have hmem := List.mem_map_of_mem (f := fun s : KeyedSpend => (s.outpoint, s.output))
    (List.mem_map_of_mem (f := fun pair : Spend × PrivateKey => keyedOf pair.1 pair.2) hpair)
  exact ⟨_, OutPoint.Table.get?_eq_some_of_mem (hfst ▸ hdistinct) hmem, rfl⟩

/-- Signing by the locks also signs the unsigned transaction for the hashes of the
keys. Beside the parts it asks for a covered draft. -/
lemma sign_of_ownedBy_eq_ok_iff (hdistinct : (draft.spends.map Spend.outpoint).Nodup)
    (howned : List.Forall₂ (Spend.OwnedBy draft.params) draft.spends keys) {t : Transaction} :
    draft.sign.outcome = .ok t ↔
      draft.requireParts = .ok () ∧ draft.Covered ∧
        ∃ outputs, draft.keptOutputs = .ok outputs ∧
          t = (draft.unsigned outputs).signKeyHashes keys := by
  have hread : readSpends draft.keyedSpend 0 draft.spends
      = .ok (keyedSpends draft.spends keys) :=
    readSpends_of_ownedBy 0 howned fun _ _ _ => keyedSpend_of_ownedBy
  have hsigned (outputs : List TxOut) :
      (draft.unsigned outputs).trialSigned ((keyedSpends draft.spends keys).map KeyedSpend.key)
          (lookup (keyedSpends draft.spends keys))
        = .ok ((draft.unsigned outputs).signKeyHashes keys) := by
    rw [map_key_keyedSpends howned.length_eq, ← Transaction.outcome_sign]
    exact Transaction.outcome_sign_of_keyHashes witness_of_mem_unsigned
      (spendsKeyHash_unsigned howned.length_eq hdistinct outputs)
  simp only [sign_eq_ok_iff, hread, Except.ok.injEq, exists_and_left, exists_eq_left', hsigned,
    @eq_comm _ t]

/-! ### One key for all spends -/

/-- A public key is read back from its text if it is from its written form. -/
lemma ofHex_text {key : PublicKey} (h : PublicKey.ofBytes key.bytes = .ok key) :
    PublicKey.ofHex key.text = .ok key := by
  rw [PublicKey.ofHex, PublicKey.text, Hex.decodeMarked_encode]
  simp only [h]

/-- Digests given as text are signed as such. -/
lemma signHexDigests_encode (key : PrivateKey) {digests : List Bytes}
    (h : ∀ digest ∈ digests, digest.length = 32) :
    signHexDigests key (digests.map Hex.encode)
      = .ok (digests.map fun digest => Hex.encode (Der.encode (key.signDigest digest))) := by
  rw [signHexDigests, mapM_eq_ok_iff, List.forall₂_map_left_iff, List.forall₂_map_right_iff,
    List.forall₂_same]
  intro digest hdigest
  have hread : (Hex.decodeMarked (Hex.encode digest)).toOption.filter (·.length == 32)
      = some digest := by
    rw [Hex.decodeMarked_encode]
    exact if_pos (beq_iff_eq.mpr (h digest hdigest))
  rw [signHexDigest, hread]

section OneKey

variable {key : PrivateKey}

/-- The public key of a private key stands at every position. -/
lemma keyFor_repeatedKey (haddr : draft.Addressable)
    (hparse : PublicKey.ofBytes key.publicKey.bytes = .ok key.publicKey)
    (hkeys : ∀ k ∈ keys, k = key) (hlength : draft.spends.length = keys.length) :
    List.Forall₂ (KeyFor (draft.repeatedKey key.publicKey)) draft.spends.zipIdx
      (keys.map PrivateKey.publicKey) := by
  have hsize : (List.replicate draft.spends.length key.publicKey.text).length ≤ UInt64.size := by
    rw [List.length_replicate]
    exact Nat.le_of_lt haddr.spends
  rw [List.forall₂_map_right_iff]
  refine forall₂_of_getElem? (by simp [hlength]) fun i entry k hentry hk => ?_
  obtain rfl := hkeys k (List.mem_of_getElem? hk)
  obtain ⟨spend, index⟩ := entry
  simp only [List.getElem?_zipIdx, Nat.zero_add, Option.map_eq_some_iff, Prod.mk.injEq] at hentry
  obtain ⟨_, hspend, -, rfl⟩ := hentry
  refine ⟨k.publicKey.text, ?_, ofHex_text hparse⟩
  rw [repeatedKey, IndexMap.get?_ofValues hsize, List.getElem?_replicate,
    if_pos (List.getElem?_eq_some_iff.mp hspend).1]

/-- The digests for the public keys of private keys. -/
lemma digestsFor_map_publicKey (draft : Draft) (outputs : List TxOut) (keys : List PrivateKey) :
    draft.digestsFor outputs (keys.map PrivateKey.publicKey) = keys.zipIdx.map fun entry =>
      Sighash.legacyDigest (draft.unsigned outputs) entry.2
        (Script.p2pkh entry.1.publicKey.hash) := by
  rw [digestsFor, List.zipIdx_map, List.map_map]
  rfl

/-- The signatures of these digests by the one key, as text. -/
def oneKeySignatures (draft : Draft) (outputs : List TxOut) (keys : List PrivateKey)
    (key : PrivateKey) : List String :=
  (draft.digestsFor outputs (keys.map PrivateKey.publicKey)).map fun digest =>
    Hex.encode (Der.encode (key.signDigest digest))

lemma length_oneKeySignatures (draft : Draft) (outputs : List TxOut) (keys : List PrivateKey)
    (key : PrivateKey) : (draft.oneKeySignatures outputs keys key).length = keys.length := by
  rw [oneKeySignatures, digestsFor_map_publicKey]
  simp

/-- They make the signature scripts for the hash of the key. -/
lemma attachedTo_oneKeySignatures
    (hparse : PublicKey.ofBytes key.publicKey.bytes = .ok key.publicKey)
    (hcompressed : key.compressed = true) (hkeys : ∀ k ∈ keys, k = key) (outputs : List TxOut) :
    AttachedTo true (draft.oneKeySignatures outputs keys key)
      ((draft.oneKeySignatures outputs keys key).map fun _ => key.publicKey.text)
      (keys.zipIdx.map fun entry => entry.1.keyHashScriptSig (draft.unsigned outputs) entry.2) := by
  rw [AttachedTo, ← List.map_prod_left_eq_zip, List.forall₂_map_left_iff, oneKeySignatures,
    List.forall₂_map_left_iff, digestsFor_map_publicKey, List.forall₂_map_left_iff,
    List.forall₂_map_right_iff, List.forall₂_same]
  rintro ⟨k, i⟩ hentry
  obtain rfl := hkeys k (List.fst_mem_of_mem_zipIdx hentry)
  refine attachedScriptSig_eq_ok_iff.mpr
    ⟨_, k.publicKey, readSignature_encode _, ofHex_text hparse, ?_⟩
  have hbytes : k.publicKey.bytes = k.publicKey.bytesIn true := if_pos hcompressed
  rw [← hbytes]
  rfl

/-- If all spends belong to the key, it answers the request of the draft with the
unsigned transaction signed for its hash. -/
lemma signWithOneKey_eq_ok (haddr : draft.Addressable) (hparts : draft.requireParts = .ok ())
    {outputs : List TxOut} (houtputs : draft.keptOutputs = .ok outputs)
    (hlength : draft.spends.length = keys.length) (hkeys : ∀ k ∈ keys, k = key)
    (hcompressed : key.compressed = true)
    (hparse : PublicKey.ofBytes key.publicKey.bytes = .ok key.publicKey) {text : String}
    (htext : PrivateKey.ofText text draft.params = .ok key) :
    (draft.signWithOneKey text).outcome =
      .ok (((draft.unsigned outputs).signKeyHashes keys).toHex,
        ((draft.unsigned outputs).signKeyHashes keys).txid) := by
  have hshort : key.inShortForm = key := by
    obtain ⟨secret, _, network⟩ := key
    cases hcompressed
    rfl
  have hspends := requireParts_eq_ok_iff.mp hparts
  have hfor := keyFor_repeatedKey haddr hparse hkeys hlength
  have hrequest : (draft.signingRequest (draft.repeatedKey key.publicKey)).outcome = .ok _ :=
    signingRequest_eq_ok_iff.mpr
      ⟨_, requestParts_eq_ok_iff.mpr ⟨hspends, _, outputs, hfor, houtputs, rfl⟩, rfl⟩
  have hsign : signHexDigests key (IndexMap.ofValues ((draft.digestsFor outputs
      (keys.map PrivateKey.publicKey)).map Hex.encode)).values
        = .ok (draft.oneKeySignatures outputs keys key) := by
    rw [IndexMap.values_ofValues (length_hexDigests_le haddr outputs hfor),
      signHexDigests_encode key fun _ => length_of_mem_digestsFor, oneKeySignatures]
  have hcount := (draft.length_oneKeySignatures outputs keys key).trans hlength.symm
  have hattach := (attach_eq_ok_iff haddr hspends.1 houtputs hfor).mpr
    ⟨hcount, (List.length_map _).trans hcount, _,
      attachedTo_oneKeySignatures hparse hcompressed hkeys outputs, rfl⟩
  have hform : ((draft.unsigned outputs).signKeyHashes keys).usesWitnessForm = false :=
    usesWitnessForm_filled hspends.1 (by simp [hlength])
  rw [signWithOneKey]
  simp only [Metered.outcome_bind, Metered.outcome_liftM, Metered.outcome_pure]
  rw [bind_of_eq_ok htext, hshort, bind_of_eq_ok hrequest, bind_of_eq_ok hsign,
    bind_of_eq_ok hattach]
  exact bind_of_eq_ok (Transaction.idOfHex_toHex hform) _

end OneKey

/-- **The ways of signing agree.** Let all spends be different and pay from the
hashes of keys that are given with them. What signing by the locks makes, signing
in the signature scripts alone makes as well; where the latter succeeds so does the
former, provided that the draft is covered. If all spends belong to one short key,
then its answer to the request of the draft is this transaction, too. -/
theorem paths_agree (hdistinct : (draft.spends.map Spend.outpoint).Nodup)
    (howned : List.Forall₂ (Spend.OwnedBy draft.params) draft.spends keys) :
    (∀ tx, draft.sign.outcome = .ok tx → draft.signLegacy.outcome = .ok tx.toHex) ∧
    ((∃ text, draft.signLegacy.outcome = .ok text) → draft.Covered →
      ∃ tx, draft.sign.outcome = .ok tx) ∧
    ∀ tx key text, draft.sign.outcome = .ok tx → (∀ k ∈ keys, k = key) → key.compressed = true →
      PrivateKey.ofText text draft.params = .ok key →
      PublicKey.ofBytes key.publicKey.bytes = .ok key.publicKey → draft.Addressable →
      (draft.signWithOneKey text).outcome = .ok (tx.toHex, tx.txid) := by
  refine ⟨?_, ?_, ?_⟩
  · intro tx hsign
    obtain ⟨hparts, -, outputs, houtputs, rfl⟩ := (sign_of_ownedBy_eq_ok_iff hdistinct howned).mp hsign
    exact signLegacy_eq_ok_iff.mpr
      ⟨_, (legacyTransaction_eq_ok_iff howned).mpr ⟨hparts, outputs, houtputs, rfl⟩, rfl⟩
  · rintro ⟨text, hlegacy⟩ hcovered
    obtain ⟨_, htx, -⟩ := signLegacy_eq_ok_iff.mp hlegacy
    obtain ⟨hparts, outputs, houtputs, rfl⟩ := (legacyTransaction_eq_ok_iff howned).mp htx
    exact ⟨_, (sign_of_ownedBy_eq_ok_iff hdistinct howned).mpr ⟨hparts, hcovered, outputs, houtputs, rfl⟩⟩
  · intro tx key text hsign hkeys hcompressed htext hparse haddr
    obtain ⟨hparts, -, outputs, houtputs, rfl⟩ := (sign_of_ownedBy_eq_ok_iff hdistinct howned).mp hsign
    exact signWithOneKey_eq_ok haddr hparts houtputs howned.length_eq hkeys hcompressed hparse htext

/-- The key that the spends of `sampleDraft` belong to. -/
lemma exists_key_sampleDraft : ∃ key,
    PrivateKey.ofText "0000000000000000000000000000000000000000000000000000000000000001"
      sampleDraft.params = .ok key ∧
    key.compressed = true ∧ PublicKey.ofBytes key.publicKey.bytes = .ok key.publicKey ∧
    Address.toScript "mrCDrCybB6J1vRfbwM5hemdJz73FwDBC8r" sampleDraft.params
      = .ok (Script.p2pkh key.publicKey.hash) := by
  obtain ⟨key, hkey, htest⟩ := exists_eq_ok_of_any (p := fun key : PrivateKey =>
      key.compressed && (PublicKey.ofBytes key.publicKey.bytes).toOption.any (· = key.publicKey) &&
        (Address.toScript "mrCDrCybB6J1vRfbwM5hemdJz73FwDBC8r" sampleDraft.params).toOption.any
          (· = Script.p2pkh key.publicKey.hash))
    (x := PrivateKey.ofText "0000000000000000000000000000000000000000000000000000000000000001"
      sampleDraft.params) (by decide +kernel)
  simp only [Bool.and_eq_true] at htest
  obtain ⟨⟨hcompressed, hparse⟩, hscript⟩ := htest
  obtain ⟨publicKey, hparse, hpublicKey⟩ := exists_eq_ok_of_any hparse
  obtain ⟨script, hscript, hlock⟩ := exists_eq_ok_of_any hscript
  exact ⟨key, hkey, hcompressed, of_decide_eq_true hpublicKey ▸ hparse,
    of_decide_eq_true hlock ▸ hscript⟩

/-- The spends of `sampleDraft` are different, and belong to its key. -/
theorem paths_agree_sample : ∃ key tx,
    (sampleDraft.spends.map Spend.outpoint).Nodup ∧
    List.Forall₂ (Spend.OwnedBy sampleDraft.params) sampleDraft.spends [key, key] ∧
    sampleDraft.Covered ∧ sampleDraft.Addressable ∧
    PublicKey.ofBytes key.publicKey.bytes = .ok key.publicKey ∧
    sampleDraft.sign.outcome = .ok tx ∧ sampleDraft.signLegacy.outcome = .ok tx.toHex ∧
    (sampleDraft.signWithOneKey
      "0000000000000000000000000000000000000000000000000000000000000001").outcome
        = .ok (tx.toHex, tx.txid) := by
  obtain ⟨key, hkey, hcompressed, hparse, hscript⟩ := exists_key_sampleDraft
  have hdistinct : (sampleDraft.spends.map Spend.outpoint).Nodup := by decide
  have howned : List.Forall₂ (Spend.OwnedBy sampleDraft.params) sampleDraft.spends [key, key] :=
    .cons ⟨⟨_, rfl, hscript⟩, _, rfl, hkey⟩ (.cons ⟨⟨_, rfl, hscript⟩, _, rfl, hkey⟩ .nil)
  have hcovered : sampleDraft.Covered := ⟨by decide, by decide⟩
  obtain ⟨outputs, houtputs⟩ : ∃ outputs, sampleDraft.keptOutputs = .ok outputs :=
    exists_eq_ok_of_isSome (by decide +kernel)
  have hlegacy : ∃ text, sampleDraft.signLegacy.outcome = .ok text :=
    ⟨_, signLegacy_eq_ok_iff.mpr
      ⟨_, (legacyTransaction_eq_ok_iff howned).mpr ⟨rfl, outputs, houtputs, rfl⟩, rfl⟩⟩
  obtain ⟨hforth, hback, honeKey⟩ := paths_agree hdistinct howned
  obtain ⟨tx, hsign⟩ := hback hlegacy hcovered
  exact ⟨key, tx, hdistinct, howned, hcovered, addressable_sampleDraft, hparse, hsign,
    hforth tx hsign, honeKey tx key _ hsign (by simp) hcompressed hkey hparse
      addressable_sampleDraft⟩

end Draft

end CoinSpend
