import CoinSpend.Draft.Request
import CoinSpend.Proofs.Draft.Basic
import CoinSpend.Proofs.IndexMap
import CoinSpend.Proofs.Signing.Attach
import CoinSpend.Proofs.Signing.KeyHash

/-!
Requests and their answers.

* `Draft.signingRequest_eq_ok_iff`: a request can be made if and only if the draft
  has its parts and there is a public key for each position. It holds the
  unsigned transaction with room for the signatures, and its digests are those of
  the unsigned transaction.
* `Draft.attach_eq_ok_iff`: an answer is accepted if and only if it has a signature
  and a key for each input, and all of them can be read.
* `SigningRequest.Answered`: a transaction differs from the requested one in its
  signature scripts alone; these hold the signatures and the keys of an answer,
  and the digests of the request are those of the transaction itself.
* `Draft.answered_of_attach`: this is so whenever the answer to a request is
  accepted.
-/

namespace CoinSpend

namespace Draft

variable {draft : Draft} {keys : IndexMap}

/-! ### What a request holds -/

/-- A public key is the one given for a spend by its position. -/
def KeyFor (keys : IndexMap) (entry : Spend × ℕ) (key : PublicKey) : Prop :=
  ∃ text, keys.get? entry.2 = some text ∧ PublicKey.ofHex text = .ok key

lemma detachedSpend_eq_ok_iff {index : ℕ} {spend : Spend} {found : OutPoint × PublicKey} :
    draft.detachedSpend keys index spend = .ok found ↔
      spend.outpoint = found.1 ∧ KeyFor keys (spend, index) found.2 := by
  obtain ⟨outpoint, key⟩ := found
  rw [detachedSpend, KeyFor]
  cases hget : keys.get? index with
  | none => simp
  | some text =>
      simp only [bind_eq_ok_iff, pure_eq_ok_iff, Option.some.injEq, exists_eq_left',
        Prod.mk.injEq]
      constructor
      · rintro ⟨_, hkey, rfl, rfl⟩
        exact ⟨rfl, hkey⟩
      · rintro ⟨rfl, hkey⟩
        exact ⟨key, hkey, rfl, rfl⟩

/-- All spends are found with their keys if and only if every position has a
key. -/
lemma readSpends_detachedSpend_eq_ok_iff {found : List (OutPoint × PublicKey)} :
    readSpends (draft.detachedSpend keys) 0 draft.spends = .ok found ↔
      draft.spends.map Spend.outpoint = found.map Prod.fst ∧
        List.Forall₂ (KeyFor keys) draft.spends.zipIdx (found.map Prod.snd) := by
  have houtpoints : draft.spends.map Spend.outpoint
      = draft.spends.zipIdx.map fun entry => entry.1.outpoint := by
    conv_lhs => rw [← List.zipIdx_map_fst 0 draft.spends, List.map_map]
    rfl
  rw [readSpends_eq_ok_iff, houtpoints, ← forall₂_image_iff, List.forall₂_map_right_iff,
    ← forall₂_and_iff]
  simp only [detachedSpend_eq_ok_iff]

/-- Every input that has a key has its digest. -/
lemma keyHashDigests_eq {tx : Transaction} {publicKeys : List PublicKey}
    (h : publicKeys.length ≤ tx.inputs.length) :
    keyHashDigests tx 0 publicKeys = .ok (publicKeys.zipIdx.map fun entry =>
      Sighash.legacyDigest tx entry.2 (Script.p2pkh entry.1.hash)) := by
  rw [numbered_eq_ok_iff
    (fun index (key : PublicKey) => Sighash.legacy tx index (Script.p2pkh key.hash))
    (keyHashDigests tx) (fun _ => rfl) fun _ _ _ => rfl, List.forall₂_map_right_iff,
    List.forall₂_same]
  rintro ⟨key, i⟩ hentry
  have hi : i < publicKeys.length := List.snd_lt_of_mem_zipIdx hentry
  exact Sighash.legacy_eq_ok_iff.mpr ⟨Nat.lt_of_lt_of_le hi h, rfl⟩

/-- The digests of the unsigned transaction, each for the hash of a key. -/
def digestsFor (draft : Draft) (outputs : List TxOut) (publicKeys : List PublicKey) : List Bytes :=
  publicKeys.zipIdx.map fun entry =>
    Sighash.legacyDigest (draft.unsigned outputs) entry.2 (Script.p2pkh entry.1.hash)

/-- Each of them has 32 bytes. -/
lemma length_of_mem_digestsFor {outputs : List TxOut} {publicKeys : List PublicKey} {digest : Bytes}
    (h : digest ∈ draft.digestsFor outputs publicKeys) : digest.length = 32 := by
  obtain ⟨entry, -, rfl⟩ := List.mem_map.mp h
  exact length_doubleSha256 _

/-- There are no more of them, as text, than positions. -/
lemma length_hexDigests_le (haddr : draft.Addressable) (outputs : List TxOut)
    {publicKeys : List PublicKey}
    (h : List.Forall₂ (KeyFor keys) draft.spends.zipIdx publicKeys) :
    ((draft.digestsFor outputs publicKeys).map Hex.encode).length ≤ UInt64.size := by
  have hspends := haddr.spends
  have hlength := h.length_eq
  simp only [digestsFor, List.length_map, List.length_zipIdx] at hlength ⊢
  omega

/-- What stands in the signature scripts meanwhile does not enter the digests. -/
lemma keyHashDigests_transactionWith {found : List (OutPoint × PublicKey)} {outputs : List TxOut}
    (h : draft.spends.map Spend.outpoint = found.map Prod.fst) :
    keyHashDigests (draft.transactionWith
        (found.map fun s => finalInput s.1 (Script.p2pkh s.2.hash)) outputs) 0 (found.map Prod.snd)
      = .ok (draft.digestsFor outputs (found.map Prod.snd)) := by
  have hskeleton := skeleton_transactionWith h (fun s => Script.p2pkh s.2.hash) outputs
  have hlength : (found.map Prod.snd).length ≤ (draft.transactionWith
      (found.map fun s => finalInput s.1 (Script.p2pkh s.2.hash)) outputs).inputs.length := by
    simp [transactionWith]
  rw [keyHashDigests_eq hlength, digestsFor]
  simp only [Sighash.legacyDigest_congr (hskeleton.trans (draft.skeleton_unsigned outputs).symm)]

/-- When a request can be made, and what it is made of. -/
lemma requestParts_eq_ok_iff {parts : Transaction × List Bytes} :
    draft.requestParts keys = .ok parts ↔
      (draft.spends ≠ [] ∧ draft.payments ≠ []) ∧
        ∃ publicKeys outputs, List.Forall₂ (KeyFor keys) draft.spends.zipIdx publicKeys ∧
          draft.keptOutputs = .ok outputs ∧
          parts = ((draft.unsigned outputs).withScriptSigs (publicKeys.map reservedScriptSig),
            draft.digestsFor outputs publicKeys) := by
  simp only [requestParts, bind_eq_ok_iff, pure_eq_ok_iff, readSpends_detachedSpend_eq_ok_iff]
  constructor
  · rintro ⟨⟨⟩, hparts, found, ⟨houtpoints, hkeys⟩, outputs, houtputs, digests, hdigests, rfl⟩
    rw [keyHashDigests_transactionWith houtpoints] at hdigests
    cases hdigests
    rw [withScriptSigs_transactionWith houtpoints]
    refine ⟨requireParts_eq_ok_iff.mp hparts, _, outputs, hkeys, houtputs, ?_⟩
    rw [List.map_map]
    rfl
  · rintro ⟨hparts, publicKeys, outputs, hkeys, houtputs, rfl⟩
    have hlength : (draft.spends.map Spend.outpoint).length = publicKeys.length := by
      simpa using hkeys.length_eq
    have hfst := List.map_fst_zip (Nat.le_of_eq hlength)
    have hsnd := List.map_snd_zip (Nat.le_of_eq hlength.symm)
    refine ⟨(), requireParts_eq_ok_iff.mpr hparts, (draft.spends.map Spend.outpoint).zip publicKeys,
      ⟨hfst.symm, hsnd.symm ▸ hkeys⟩, outputs, houtputs, _,
      keyHashDigests_transactionWith hfst.symm, ?_⟩
    have hreserved : ((draft.spends.map Spend.outpoint).zip publicKeys).map
        (fun s => reservedScriptSig s.2) = publicKeys.map reservedScriptSig := by
      conv_rhs => rw [← hsnd, List.map_map]
      rfl
    rw [withScriptSigs_transactionWith hfst.symm, hsnd, hreserved]

/-- A request is the text of its parts. -/
lemma signingRequest_eq_ok_iff {request : SigningRequest} :
    (draft.signingRequest keys).outcome = .ok request ↔
      ∃ parts, draft.requestParts keys = .ok parts ∧
        request = ⟨parts.1.toHex, .ofValues (parts.2.map Hex.encode)⟩ := by
  simp only [signingRequest, Metered.outcome_bind, Metered.outcome_liftM,
    Metered.outcome_record, Metered.outcome_pure, bind_eq_ok_iff, Except.ok.injEq]
  simp [eq_comm]

/-! ### Transactions with signature scripts put in -/

section Filled

variable {outputs : List TxOut} {scriptSigs : List Script}

/-- Signature scripts for all spends leave the rest of the transaction as it is. -/
lemma skeleton_filled (h : draft.spends.length ≤ scriptSigs.length) :
    ((draft.unsigned outputs).withScriptSigs scriptSigs).skeleton
      = (draft.unsigned outputs).skeleton :=
  Transaction.skeleton_withScriptSigs (by rwa [length_inputs_unsigned])

/-- It can be made anew from the transaction with other signature scripts. -/
lemma withScriptSigs_filled {others : List Script} (h : draft.spends.length ≤ others.length) :
    ((draft.unsigned outputs).withScriptSigs others).withScriptSigs scriptSigs
      = (draft.unsigned outputs).withScriptSigs scriptSigs := by
  rw [← Transaction.withScriptSigs_skeleton, skeleton_filled h, skeleton_unsigned]
  exact Transaction.forall_inputs_withScriptSigs (p := fun input => input.witness = [])
    fun source hsource _ _ => witness_of_mem_unsigned source hsource

lemma length_inputs_filled (h : draft.spends.length ≤ scriptSigs.length) :
    ((draft.unsigned outputs).withScriptSigs scriptSigs).inputs.length = draft.spends.length := by
  rw [Transaction.length_inputs_withScriptSigs (by rwa [length_inputs_unsigned]),
    length_inputs_unsigned]

/-- It has no witnesses. -/
lemma map_witness_filled (h : draft.spends.length ≤ scriptSigs.length) :
    ((draft.unsigned outputs).withScriptSigs scriptSigs).inputs.map TxIn.witness
      = List.replicate draft.spends.length [] := by
  refine List.eq_replicate_iff.mpr ⟨by rw [List.length_map, length_inputs_filled h], ?_⟩
  intro witness hwitness
  obtain ⟨input, hinput, rfl⟩ := List.mem_map.mp hwitness
  exact Transaction.forall_inputs_withScriptSigs (p := fun input => input.witness = [])
    (fun source hsource _ _ => witness_of_mem_unsigned source hsource) input hinput

/-- With signature scripts for all spends it is in the form without witnesses. -/
lemma usesWitnessForm_filled (hspends : draft.spends ≠ [])
    (h : draft.spends.length ≤ scriptSigs.length) :
    ((draft.unsigned outputs).withScriptSigs scriptSigs).usesWitnessForm = false :=
  Transaction.usesWitnessForm_withScriptSigs (usesWitnessForm_unsigned hspends outputs)
    (by rwa [length_inputs_unsigned])

/-- It is read back from its text. -/
lemma ofHex_filled (haddr : draft.Addressable) (hspends : draft.spends ≠ [])
    (houtputs : draft.keptOutputs = .ok outputs) (h : draft.spends.length ≤ scriptSigs.length)
    (hshort : ∀ scriptSig ∈ scriptSigs, scriptSig.length < UInt64.size) :
    Transaction.ofHex ((draft.unsigned outputs).withScriptSigs scriptSigs).toHex
      = .ok ((draft.unsigned outputs).withScriptSigs scriptSigs) :=
  Transaction.ofHex_toHex ((fits_unsigned haddr houtputs).withScriptSigs hshort)
    (usesWitnessForm_filled hspends h)

end Filled

/-- The room for signatures is short. -/
lemma forall_reserved_lt {publicKeys : List PublicKey} :
    ∀ scriptSig ∈ publicKeys.map reservedScriptSig, scriptSig.length < UInt64.size := by
  intro scriptSig hmem
  obtain ⟨key, -, rfl⟩ := List.mem_map.mp hmem
  have hroom := Script.length_push_le (List.replicate maxSignatureLength 0 ++ [1])
  have hkey := Script.length_push_le key.bytes
  have hbytes := key.length_bytes_le
  rw [List.length_append, List.length_replicate, List.length_singleton, maxSignatureLength] at hroom
  rw [reservedScriptSig, List.length_append, UInt64.size, maxSignatureLength]
  omega

end Draft

/-! ### What an accepted answer makes -/

/-- A transaction `t` differs from the requested one in its signature scripts
alone. There is a digest for each of its inputs, namely that of `t` itself for the
hash of the key that was given when the request was made. Each signature script
holds the signature and the key of the answer at its position. -/
structure SigningRequest.Answered (request : SigningRequest) (keys : IndexMap)
    (publicKeys signatures : List String) (compressed : Bool) (unsigned t : Transaction) :
    Prop where
  skeleton_eq : t.skeleton = unsigned.skeleton
  witness_eq : t.inputs.map TxIn.witness = unsigned.inputs.map TxIn.witness
  positions : request.digests.entries.map (fun entry => entry.1.toNat)
    = List.range t.inputs.length
  digest : ∀ i < t.inputs.length, ∃ text key digest, keys.get? i = some text ∧
    PublicKey.ofHex text = .ok key ∧
    Sighash.legacy t i (Script.p2pkh (hash160 key.bytes)) = .ok digest ∧
    request.digests.get? i = some (Hex.encode digest)
  scriptSig : ∀ (i : ℕ) (input : TxIn), t.inputs[i]? = some input →
    ∃ signatureText keyText signature key,
    signatures[i]? = some signatureText ∧ readSignature signatureText = .ok signature ∧
    publicKeys[i]? = some keyText ∧ PublicKey.ofHex keyText = .ok key ∧
    input.scriptSig = Script.push (Der.encode signature ++ [1]) ++
      Script.push (key.bytesIn compressed)

namespace Draft

variable {draft : Draft} {keys : IndexMap}

section Answer

variable {outputs : List TxOut} {found : List PublicKey} {scriptSigs : List Script}
  {publicKeys signatures : List String} {compressed : Bool}

/-- There is room in each input that has a key. -/
lemma length_le_of_keyFor (h : List.Forall₂ (KeyFor keys) draft.spends.zipIdx found) :
    draft.spends.length ≤ (found.map reservedScriptSig).length := by
  rw [List.length_map, ← h.length_eq, List.length_zipIdx]

/-- The digest of a request at a position. -/
lemma digest_of_keyFor (haddr : draft.Addressable)
    (hkeys : List.Forall₂ (KeyFor keys) draft.spends.zipIdx found) {i : ℕ}
    (hi : i < draft.spends.length) :
    ∃ text key, keys.get? i = some text ∧ PublicKey.ofHex text = .ok key ∧
      (IndexMap.ofValues ((draft.digestsFor outputs found).map Hex.encode)).get? i
        = some (Hex.encode (Sighash.legacyDigest (draft.unsigned outputs) i
            (Script.p2pkh key.hash))) := by
  have hspend : draft.spends.zipIdx[i]? = some (draft.spends[i], i) := by
    simp [hi]
  obtain ⟨key, hkey, text, htext, hof⟩ := exists_getElem?_of_forall₂ hkeys hspend
  refine ⟨text, key, htext, hof, ?_⟩
  rw [IndexMap.get?_ofValues (length_hexDigests_le haddr outputs hkeys)]
  simp [digestsFor, hkey]

/-- Signatures and keys of an answer, put into the requested transaction. -/
lemma answered_filled (haddr : draft.Addressable)
    (hkeys : List.Forall₂ (KeyFor keys) draft.spends.zipIdx found)
    (hscripts : AttachedTo compressed signatures publicKeys scriptSigs)
    (hcount : draft.spends.length ≤ scriptSigs.length) (txHex : String) :
    SigningRequest.Answered
      ⟨txHex, .ofValues ((draft.digestsFor outputs found).map Hex.encode)⟩ keys publicKeys
      signatures compressed
      ((draft.unsigned outputs).withScriptSigs (found.map reservedScriptSig))
      ((draft.unsigned outputs).withScriptSigs scriptSigs) where
  skeleton_eq :=
    (skeleton_filled hcount).trans (skeleton_filled (length_le_of_keyFor hkeys)).symm
  witness_eq := by
    rw [map_witness_filled hcount, map_witness_filled (length_le_of_keyFor hkeys)]
  positions := by
    rw [length_inputs_filled hcount,
      IndexMap.positions_ofValues (length_hexDigests_le haddr outputs hkeys)]
    simp [digestsFor, ← hkeys.length_eq]
  digest := by
    rw [length_inputs_filled hcount]
    intro i hi
    obtain ⟨text, key, htext, hkey, hdigest⟩ := digest_of_keyFor haddr hkeys hi
    refine ⟨text, key, _, htext, hkey, Sighash.legacy_eq_ok_iff.mpr ⟨?_, rfl⟩, ?_⟩
    · rwa [length_inputs_filled hcount]
    · -- the digest was taken before anything was put in
      rw [hdigest, Sighash.legacyDigest_congr (skeleton_filled hcount)]
      rfl
  scriptSig := by
    intro i input hinput
    obtain ⟨source, scriptSig, -, hscriptSig, rfl⟩ :=
      Transaction.getElem?_inputs_withScriptSigs hinput
    exact hscripts.exists_at hscriptSig

/-- An answer is accepted if and only if it has a signature and a key for each
input, and all of them can be read. -/
lemma attach_eq_ok_iff (haddr : draft.Addressable) (hspends : draft.spends ≠ [])
    (houtputs : draft.keptOutputs = .ok outputs)
    (hkeys : List.Forall₂ (KeyFor keys) draft.spends.zipIdx found) {text : String} :
    (attachSignatures ((draft.unsigned outputs).withScriptSigs
        (found.map reservedScriptSig)).toHex publicKeys signatures compressed).outcome = .ok text ↔
      signatures.length = draft.spends.length ∧ publicKeys.length = draft.spends.length ∧
        ∃ scriptSigs, AttachedTo compressed signatures publicKeys scriptSigs ∧
          text = ((draft.unsigned outputs).withScriptSigs scriptSigs).toHex := by
  have hroom := length_le_of_keyFor hkeys
  have hread := ofHex_filled haddr hspends houtputs hroom forall_reserved_lt
  rw [attachSignatures_eq_ok_iff]
  constructor
  · rintro ⟨_, hattached, rfl⟩
    obtain ⟨_, scriptSigs, htx, hsignatures, hpublicKeys, hscripts, rfl⟩ :=
      Transaction.attached_eq_ok_iff.mp hattached
    -- what the answer is put into is what was requested
    obtain rfl := Except.ok.inj (hread.symm.trans htx)
    rw [length_inputs_filled hroom] at hsignatures hpublicKeys
    rw [withScriptSigs_filled hroom]
    exact ⟨hsignatures, hpublicKeys, scriptSigs, hscripts, rfl⟩
  · rintro ⟨hsignatures, hpublicKeys, scriptSigs, hscripts, rfl⟩
    rw [← length_inputs_filled hroom] at hsignatures hpublicKeys
    refine ⟨_, Transaction.attached_eq_ok_iff.mpr
      ⟨_, scriptSigs, hread, hsignatures, hpublicKeys, hscripts, rfl⟩, ?_⟩
    rw [withScriptSigs_filled hroom]

end Answer

/-- **An accepted answer signs what is handed out.** If a draft gives a request,
and signatures and keys are accepted for it, then the result is the requested
transaction with these in its signature scripts, and the digests that were handed
out are those of the result. -/
theorem answered_of_attach {request : SigningRequest} {publicKeys signatures : List String}
    {compressed : Bool} {text : String} (haddr : draft.Addressable)
    (hrequest : (draft.signingRequest keys).outcome = .ok request)
    (hattach : (attachSignatures request.txHex publicKeys signatures compressed).outcome
      = .ok text) :
    ∃ unsigned t, Transaction.ofHex request.txHex = .ok unsigned ∧
      unsigned.inputs.map TxIn.previous = draft.spends.map Spend.outpoint ∧
      Transaction.ofHex text = .ok t ∧ text = t.toHex ∧
      request.Answered keys publicKeys signatures compressed unsigned t := by
  obtain ⟨_, hparts, rfl⟩ := signingRequest_eq_ok_iff.mp hrequest
  obtain ⟨⟨hspends, -⟩, found, outputs, hkeys, houtputs, rfl⟩ :=
    requestParts_eq_ok_iff.mp hparts
  have hroom := length_le_of_keyFor hkeys
  obtain ⟨hsignatures, hpublicKeys, scriptSigs, hscripts, rfl⟩ :=
    (attach_eq_ok_iff haddr hspends houtputs hkeys).mp hattach
  have hcount : draft.spends.length ≤ scriptSigs.length := by
    rw [← hscripts.length_eq, List.length_zip, hsignatures, hpublicKeys, Nat.min_self]
  refine ⟨_, _, ofHex_filled haddr hspends houtputs hroom forall_reserved_lt, ?_,
    ofHex_filled haddr hspends houtputs hcount hscripts.length_lt, rfl,
    answered_filled haddr hkeys hscripts hcount _⟩
  rw [Transaction.map_previous_of_skeleton (skeleton_filled hroom), map_previous_unsigned]

/-- Two outputs of one key, spent to make one payment; the change is dust. -/
def sampleDraft : Draft where
  version := 2
  params := Chain.bitcoinRegtest.params
  dustFloor := 546
  spends := [0, 1].map fun vout => {
    txid := .zero
    vout := vout
    amount := 50000
    lock := .address "mrCDrCybB6J1vRfbwM5hemdJz73FwDBC8r"
    privateKey := some "0000000000000000000000000000000000000000000000000000000000000001" }
  payments := [⟨.script "51", 99000, false⟩, ⟨.script "52", 545, true⟩]

/-- It fits the memory of a machine. -/
lemma addressable_sampleDraft : sampleDraft.Addressable := by
  refine ⟨by decide, by decide, ?_⟩
  intro payment hpayment hex hlock
  simp only [sampleDraft, List.mem_cons, List.not_mem_nil, or_false] at hpayment
  rcases hpayment with rfl | rfl
  · cases hlock
    decide
  · cases hlock
    decide

/-- The public key for both positions. -/
def sampleKeys : List String :=
  List.replicate 2 "0279be667ef9dcbbac55a06295ce870b07029bfcdb2dce28d959f2815b16f81798"

/-- Two signatures, not valid ones. -/
def sampleSignatures : List String :=
  List.replicate 2 "3006020101020101"

/-- They are accepted for a request of this draft. -/
lemma exists_attach_sampleDraft {request : SigningRequest} {compressed : Bool}
    (h : (sampleDraft.signingRequest (.ofValues sampleKeys)).outcome = .ok request) :
    ∃ text, (attachSignatures request.txHex sampleKeys sampleSignatures compressed).outcome
      = .ok text := by
  obtain ⟨_, hparts, rfl⟩ := signingRequest_eq_ok_iff.mp h
  obtain ⟨⟨hspends, -⟩, found, outputs, hkeys, houtputs, rfl⟩ := requestParts_eq_ok_iff.mp hparts
  obtain ⟨signature, hsignature⟩ : ∃ signature,
      readSignature "3006020101020101" = .ok signature :=
    exists_eq_ok_of_isSome (by decide +kernel)
  obtain ⟨key, hkey⟩ : ∃ key, PublicKey.ofHex
      "0279be667ef9dcbbac55a06295ce870b07029bfcdb2dce28d959f2815b16f81798" = .ok key :=
    exists_eq_ok_of_isSome (by decide +kernel)
  obtain ⟨scriptSig, hscriptSig⟩ : ∃ scriptSig, attachedScriptSig compressed "3006020101020101"
      "0279be667ef9dcbbac55a06295ce870b07029bfcdb2dce28d959f2815b16f81798" = .ok scriptSig :=
    ⟨_, attachedScriptSig_eq_ok_iff.mpr ⟨signature, key, hsignature, hkey, rfl⟩⟩
  have hscripts : AttachedTo compressed sampleSignatures sampleKeys [scriptSig, scriptSig] :=
    .cons hscriptSig (.cons hscriptSig .nil)
  exact ⟨_, (attach_eq_ok_iff addressable_sampleDraft hspends houtputs hkeys).mpr
    ⟨rfl, rfl, _, hscripts, rfl⟩⟩

/-- A request is answered with two signatures, whose keys are written in the long
form. -/
theorem answered_of_attach_sample :
    ∃ request text, sampleDraft.Addressable ∧
      (sampleDraft.signingRequest (.ofValues sampleKeys)).outcome = .ok request ∧
      (attachSignatures request.txHex sampleKeys sampleSignatures false).outcome = .ok text ∧
      ∃ unsigned t, Transaction.ofHex request.txHex = .ok unsigned ∧
        unsigned.inputs.map TxIn.previous = sampleDraft.spends.map Spend.outpoint ∧
        Transaction.ofHex text = .ok t ∧ text = t.toHex ∧
        request.Answered (.ofValues sampleKeys) sampleKeys sampleSignatures false unsigned t := by
  obtain ⟨request, hrequest⟩ : ∃ request,
      (sampleDraft.signingRequest (.ofValues sampleKeys)).outcome = .ok request :=
    exists_eq_ok_of_isSome (by decide +kernel)
  obtain ⟨text, hattach⟩ := exists_attach_sampleDraft hrequest
  exact ⟨request, text, addressable_sampleDraft, hrequest, hattach,
    answered_of_attach addressable_sampleDraft hrequest hattach⟩

end Draft

end CoinSpend
