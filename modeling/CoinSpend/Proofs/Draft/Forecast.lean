import CoinSpend.Proofs.Draft.Agreement
import CoinSpend.Proofs.Transaction.Size

/-!
The size of a request is never exceeded by its answers.

* `HoldsSignature`: a signature script with the DER form of a signature and a short
  key. By `sizedSize_of_holdsSignature` its size depends on nothing but the length
  of the DER form.
* `AttachedTo.exists_written`: the DER forms in the signature scripts of an answer.
* `Transaction.totalSize_reserved`: the room for signatures of 72 bytes takes as
  much more as the signatures are shorter.
* `SigningRequest.Foretells`: what the size of a request says of a signed
  transaction.
* `Draft.forecast_covers`: it says so of every answer in short keys, and the
  forecast for one key covers what this key signs.
-/

namespace CoinSpend

/-! ### Signature scripts with a short key -/

/-- The script pushes a marked signature, given by its DER form, and a short
key. -/
def HoldsSignature (scriptSig : Script) (der : Bytes) : Prop :=
  ∃ key : PublicKey, scriptSig = Script.push (der ++ [1]) ++ Script.push key.shortBytes

/-- The size of such a script follows from the length of the DER form. The length
in front of the script takes one byte. -/
lemma sizedSize_of_holdsSignature {scriptSig : Script} {der : Bytes}
    (h : HoldsSignature scriptSig der) (hder : der.length ≤ maxSignatureLength) :
    sizedSize scriptSig = der.length + 37 := by
  rw [maxSignatureLength] at hder
  obtain ⟨key, rfl⟩ := h
  have hsignature : (der ++ [1]).length < 76 := by
    rw [List.length_append, List.length_singleton]
    omega
  have hkey : key.shortBytes.length < 76 := by
    rw [PublicKey.length_shortBytes]
    decide
  have hlength : (Script.push (der ++ [1]) ++ Script.push key.shortBytes).length
      = der.length + 36 := by
    rw [Script.push_of_lt hsignature, Script.push_of_lt hkey]
    simp
  rw [sizedSize, hlength, CompactSize.size, if_pos (by omega)]
  omega

/-- The room for a signature and a short key is such a script, too. -/
lemma holdsSignature_reserved {key : PublicKey} (h : key.compressed = true) :
    HoldsSignature (reservedScriptSig key) (List.replicate maxSignatureLength 0) := by
  refine ⟨key, ?_⟩
  rw [reservedScriptSig, PublicKey.bytes, if_pos h]

/-- The DER forms in the scripts that are made from signatures and short keys. -/
lemma AttachedTo.exists_written {signatures publicKeys : List String} {scriptSigs : List Script}
    (h : AttachedTo true signatures publicKeys scriptSigs)
    (hlength : signatures.length ≤ publicKeys.length) :
    ∃ written, List.Forall₂ (fun text der => ∃ signature, readSignature text = .ok signature ∧
        der = Der.encode signature) signatures written ∧
      List.Forall₂ HoldsSignature scriptSigs written := by
  have hbetween : List.Forall₂ (fun (pair : String × String) scriptSig => ∃ der,
      (∃ signature, readSignature pair.1 = .ok signature ∧ der = Der.encode signature) ∧
        HoldsSignature scriptSig der) (signatures.zip publicKeys) scriptSigs := by
    refine h.imp fun pair scriptSig hpair => ?_
    obtain ⟨signature, key, hsignature, -, heq⟩ := attachedScriptSig_eq_ok_iff.mp hpair
    exact ⟨_, ⟨signature, hsignature, rfl⟩, key, heq⟩
  obtain ⟨written, hread, hheld⟩ := exists_forall₂_between hbetween
  refine ⟨written, ?_, hheld.flip⟩
  rw [← List.map_fst_zip hlength, List.forall₂_map_left_iff]
  exact hread

/-- What was written for signatures takes at most 72 bytes each. -/
lemma length_le_of_written {signatures : List String} {written : List Bytes}
    (h : List.Forall₂ (fun text der => ∃ signature, readSignature text = .ok signature ∧
      der = Der.encode signature) signatures written) :
    ∀ der ∈ written, der.length ≤ maxSignatureLength := by
  intro der hder
  obtain ⟨i, hi⟩ := List.mem_iff_getElem?.mp hder
  obtain ⟨_, -, signature, -, rfl⟩ := exists_getElem?_of_forall₂ h.flip hi
  exact Der.length_encode_le signature

/-! ### The size of a transaction with signature scripts put in -/

namespace Transaction

variable {tx : Transaction} {scriptSigs : List Script}

/-- The size of a transaction without witnesses is read off its signature
scripts. -/
lemma totalSize_withScriptSigs (hform : tx.usesWitnessForm = false)
    (h : tx.inputs.length = scriptSigs.length) :
    (tx.withScriptSigs scriptSigs).totalSize
      = 8 + CompactSize.size tx.inputs.length + outputsSize tx.outputs
        + sumOf (fun scriptSig => 40 + sizedSize scriptSig) scriptSigs := by
  have hle := Nat.le_of_eq h
  have hinputs : sumOf TxIn.baseSize (tx.withScriptSigs scriptSigs).inputs
      = sumOf (fun scriptSig => 40 + sizedSize scriptSig) scriptSigs := by
    conv_rhs => rw [← map_scriptSig_withScriptSigs h, sumOf_map]
    congr 1
    funext input
    rw [TxIn.baseSize]
    omega
  have hplain : ¬(tx.withScriptSigs scriptSigs).usesWitnessForm = true := by
    rw [usesWitnessForm_withScriptSigs hform hle]
    exact Bool.false_ne_true
  have houtputs : (tx.withScriptSigs scriptSigs).outputs = tx.outputs := rfl
  rw [totalSize, if_neg hplain, baseSize, hinputs, length_inputs_withScriptSigs hle, houtputs,
    outputsSize]
  omega

/-- With short keys, the size is read off the DER forms of the signatures. -/
lemma totalSize_of_holdsSignatures (hform : tx.usesWitnessForm = false)
    (h : tx.inputs.length = scriptSigs.length) {written : List Bytes}
    (hheld : List.Forall₂ HoldsSignature scriptSigs written)
    (hshort : ∀ der ∈ written, der.length ≤ maxSignatureLength) :
    (tx.withScriptSigs scriptSigs).totalSize
      = 8 + CompactSize.size tx.inputs.length + outputsSize tx.outputs
        + sumOf (fun der => 77 + der.length) written := by
  have hsizes : List.Forall₂ (fun scriptSig der => 40 + sizedSize scriptSig = 77 + der.length)
      scriptSigs written := by
    refine forall₂_of_getElem? hheld.length_eq fun i scriptSig der hscriptSig hder => ?_
    obtain ⟨_, hder', hholds⟩ := exists_getElem?_of_forall₂ hheld hscriptSig
    obtain rfl := Option.some.inj (hder.symm.trans hder')
    rw [sizedSize_of_holdsSignature hholds (hshort der (List.mem_of_getElem? hder))]
    omega
  rw [totalSize_withScriptSigs hform h, sumOf_congr_forall₂ hsizes]

/-- Room for the longest signatures takes as much more as the signatures are
shorter. -/
lemma totalSize_reserved (hform : tx.usesWitnessForm = false)
    (h : tx.inputs.length = scriptSigs.length) {written : List Bytes}
    (hheld : List.Forall₂ HoldsSignature scriptSigs written)
    (hshort : ∀ der ∈ written, der.length ≤ maxSignatureLength) {publicKeys : List PublicKey}
    (hkeys : tx.inputs.length = publicKeys.length)
    (hcompressed : ∀ key ∈ publicKeys, key.compressed = true) :
    (tx.withScriptSigs (publicKeys.map reservedScriptSig)).totalSize
      = (tx.withScriptSigs scriptSigs).totalSize
        + sumOf (fun der => maxSignatureLength - der.length) written := by
  have hroom : List.Forall₂ HoldsSignature (publicKeys.map reservedScriptSig)
      (publicKeys.map fun _ => List.replicate maxSignatureLength 0) := by
    rw [List.forall₂_map_left_iff, List.forall₂_map_right_iff, List.forall₂_same]
    exact fun key hkey => holdsSignature_reserved (hcompressed key hkey)
  have hlongest : ∀ der ∈ publicKeys.map fun _ => List.replicate maxSignatureLength (0 : UInt8),
      der.length ≤ maxSignatureLength := by
    simp
  have hreserved : sumOf (fun der : Bytes => 77 + der.length)
      (publicKeys.map fun _ => List.replicate maxSignatureLength 0)
        = (77 + maxSignatureLength) * written.length := by
    rw [sumOf_map, ← hheld.length_eq, ← h, hkeys]
    exact sumOf_eq_mul fun _ _ => by rw [List.length_replicate]
  have hwritten : sumOf (fun der : Bytes => 77 + der.length) written
      + sumOf (fun der => maxSignatureLength - der.length) written
        = (77 + maxSignatureLength) * written.length := by
    rw [sumOf_add]
    refine sumOf_eq_mul fun der hder => ?_
    have hle := hshort der hder
    omega
  rw [totalSize_of_holdsSignatures hform (by simp [hkeys]) hroom hlongest,
    totalSize_of_holdsSignatures hform h hheld hshort, hreserved]
  omega

end Transaction

/-! ### Requests and forecasts -/

/-- Every key of the map is in the short form, as far as it can be read. -/
def IndexMap.HoldsShortKeys (keys : IndexMap) : Prop :=
  ∀ i text key, keys.get? i = some text → PublicKey.ofHex text = .ok key → key.compressed = true

/-- The signed transaction holds the given signatures, one in each input, in these
DER forms. None of them is longer than the room in the request, and the request is
as much larger than the transaction as they are shorter. -/
structure SigningRequest.Foretells (request : SigningRequest) (signatures : List String)
    (text : String) (written : List Bytes) : Prop where
  read : List.Forall₂ (fun signatureText der => ∃ signature,
    readSignature signatureText = .ok signature ∧ der = Der.encode signature) signatures written
  held : ∃ t, Transaction.ofHex text = .ok t ∧
    List.Forall₂ (fun input der => HoldsSignature input.scriptSig der) t.inputs written
  short : ∀ der ∈ written, der.length ≤ 72
  size : ∃ room size, Transaction.sizeOfHex request.txHex = .ok room ∧
    Transaction.sizeOfHex text = .ok size ∧
    room = size + sumOf (fun der => 72 - der.length) written

/-- The size of a transaction is that of its text. -/
lemma Transaction.sizeOfHex_of_ofHex {text : String} {t : Transaction} (h : ofHex text = .ok t) :
    sizeOfHex text = .ok t.totalSize :=
  bind_of_eq_ok h _

/-- A short key is read from its text as a short key. -/
lemma PublicKey.compressed_of_ofHex_text {key found : PublicKey} (h : key.compressed = true)
    (hfound : ofHex key.text = .ok found) : found.compressed = true := by
  have hlength : key.bytes.length = 33 := by
    rw [bytes, if_pos h, length_shortBytes]
  rw [ofHex, text, Hex.decodeMarked_encode] at hfound
  simp only [ofBytes, if_pos hlength] at hfound
  cases hpoint : ofShort? key.bytes with
  | none => rw [hpoint] at hfound; cases hfound
  | some point => rw [hpoint] at hfound; cases hfound; rfl

namespace Draft

variable {draft : Draft}

/-- The map with one short key for all spends holds short keys. -/
lemma holdsShortKeys_repeatedKey (haddr : draft.Addressable) {key : PublicKey}
    (h : key.compressed = true) : (draft.repeatedKey key).HoldsShortKeys := by
  intro i text found htext hfound
  have hsize : (List.replicate draft.spends.length key.text).length ≤ UInt64.size := by
    rw [List.length_replicate]
    exact Nat.le_of_lt haddr.spends
  rw [repeatedKey, IndexMap.get?_ofValues hsize, List.getElem?_replicate] at htext
  split_ifs at htext
  cases htext
  exact PublicKey.compressed_of_ofHex_text h hfound

/-- The size of a request tells the size of each answer in short keys. -/
lemma exists_foretells (haddr : draft.Addressable) {keys : IndexMap} (hkeys : keys.HoldsShortKeys)
    {request : SigningRequest} {publicKeys signatures : List String} {text : String}
    (hrequest : (draft.signingRequest keys).outcome = .ok request)
    (hattach : (attachSignatures request.txHex publicKeys signatures true).outcome = .ok text) :
    ∃ written, request.Foretells signatures text written := by
  obtain ⟨_, hparts, rfl⟩ := signingRequest_eq_ok_iff.mp hrequest
  obtain ⟨⟨hspends, -⟩, found, outputs, hfound, houtputs, rfl⟩ :=
    requestParts_eq_ok_iff.mp hparts
  obtain ⟨hsignatures, hpublicKeys, scriptSigs, hscripts, rfl⟩ :=
    (attach_eq_ok_iff haddr hspends houtputs hfound).mp hattach
  have hcount : draft.spends.length = scriptSigs.length := by
    rw [← hscripts.length_eq, List.length_zip, hsignatures, hpublicKeys, Nat.min_self]
  have hinputs := (length_inputs_unsigned draft outputs).trans hcount
  have hfoundCount : (draft.unsigned outputs).inputs.length = found.length := by
    rw [length_inputs_unsigned, ← hfound.length_eq, List.length_zipIdx]
  have hcompressed : ∀ key ∈ found, key.compressed = true := by
    intro key hkey
    obtain ⟨i, hi⟩ := List.mem_iff_getElem?.mp hkey
    obtain ⟨entry, -, keyText, htext, hof⟩ := exists_getElem?_of_forall₂ hfound.flip hi
    exact hkeys entry.2 keyText key htext hof
  obtain ⟨written, hread, hheld⟩ :=
    hscripts.exists_written (Nat.le_of_eq (hsignatures.trans hpublicKeys.symm))
  have hshort := length_le_of_written hread
  have hroom := ofHex_filled haddr hspends houtputs (length_le_of_keyFor hfound)
    forall_reserved_lt
  have hsigned := ofHex_filled haddr hspends houtputs (Nat.le_of_eq hcount) hscripts.length_lt
  have hform := usesWitnessForm_unsigned hspends outputs
  refine ⟨written, hread, ⟨_, hsigned, ?_⟩, hshort, _, _,
    Transaction.sizeOfHex_of_ofHex hroom, Transaction.sizeOfHex_of_ofHex hsigned,
    Transaction.totalSize_reserved hform hinputs hheld hshort hfoundCount hcompressed⟩
  rw [← List.forall₂_map_left_iff, Transaction.map_scriptSig_withScriptSigs hinputs]
  exact hheld

/-- What one key signs is the answer to a request that gives the forecast. -/
lemma exists_request_of_signWithOneKey {privateKey text : String} {txid : Txid}
    (h : (draft.signWithOneKey privateKey).outcome = .ok (text, txid)) :
    ∃ (key : PublicKey) (request : SigningRequest) (publicKeys signatures : List String),
      key.compressed = true ∧
      (draft.signingRequest (draft.repeatedKey key)).outcome = .ok request ∧
      (attachSignatures request.txHex publicKeys signatures true).outcome = .ok text ∧
      (draft.forecastSize privateKey).outcome = Transaction.sizeOfHex request.txHex := by
  simp only [signWithOneKey, Metered.outcome_bind, Metered.outcome_liftM, Metered.outcome_pure,
    bind_eq_ok_iff] at h
  obtain ⟨key, hkey, request, hrequest, signatures, -, rawTx, hattach, _, -, hresult⟩ := h
  cases hresult
  refine ⟨key.inShortForm.publicKey, request, _, signatures, rfl, hrequest, hattach, ?_⟩
  rw [forecastSize, Metered.outcome_bind, Metered.outcome_liftM, bind_of_eq_ok hkey,
    Metered.outcome_bind, bind_of_eq_ok hrequest, Metered.outcome_liftM]

/-- **The forecast never falls short.** A request for short keys is larger than any
signed transaction made from it by exactly what the signatures in it are shorter
than 72 bytes, and none is longer. What one key signs is therefore covered by the
forecast for this key. -/
theorem forecast_covers (haddr : draft.Addressable) :
    (∀ (keys : IndexMap) (request : SigningRequest) (publicKeys signatures : List String)
      (text : String), keys.HoldsShortKeys →
      (draft.signingRequest keys).outcome = .ok request →
      (attachSignatures request.txHex publicKeys signatures true).outcome = .ok text →
      ∃ written, request.Foretells signatures text written) ∧
    ∀ (privateKey text : String) (txid : Txid),
      (draft.signWithOneKey privateKey).outcome = .ok (text, txid) →
      ∃ forecast size, (draft.forecastSize privateKey).outcome = .ok forecast ∧
        Transaction.sizeOfHex text = .ok size ∧ size ≤ forecast := by
  refine ⟨fun keys request publicKeys signatures text hkeys hrequest hattach =>
    exists_foretells haddr hkeys hrequest hattach, ?_⟩
  intro privateKey text txid h
  obtain ⟨key, request, publicKeys, signatures, hcompressed, hrequest, hattach, hforecast⟩ :=
    exists_request_of_signWithOneKey h
  obtain ⟨written, hforetells⟩ :=
    exists_foretells haddr (holdsShortKeys_repeatedKey haddr hcompressed) hrequest hattach
  obtain ⟨room, size, hroom, hsize, hsum⟩ := hforetells.size
  exact ⟨room, size, hforecast.trans hroom, hsize, by omega⟩

/-- The keys for the positions of `sampleDraft` are short ones. -/
lemma holdsShortKeys_sampleKeys : (IndexMap.ofValues sampleKeys).HoldsShortKeys := by
  have hshort : (PublicKey.ofHex
      "0279be667ef9dcbbac55a06295ce870b07029bfcdb2dce28d959f2815b16f81798").toOption.all
        PublicKey.compressed := by
    decide +kernel
  intro i text key htext hkey
  rw [IndexMap.get?_ofValues (by decide), sampleKeys] at htext
  obtain rfl := List.eq_of_mem_replicate (List.mem_of_getElem? htext)
  rw [hkey] at hshort
  exact hshort

/-- A request is answered with two signatures of eight bytes each, and the draft is
also signed with its own key. -/
theorem forecast_covers_sample :
    ∃ request text written ownText txid forecast size, sampleDraft.Addressable ∧
      (IndexMap.ofValues sampleKeys).HoldsShortKeys ∧
      (sampleDraft.signingRequest (.ofValues sampleKeys)).outcome = .ok request ∧
      (attachSignatures request.txHex sampleKeys sampleSignatures true).outcome = .ok text ∧
      request.Foretells sampleSignatures text written ∧
      (sampleDraft.signWithOneKey
        "0000000000000000000000000000000000000000000000000000000000000001").outcome
          = .ok (ownText, txid) ∧
      (sampleDraft.forecastSize
        "0000000000000000000000000000000000000000000000000000000000000001").outcome
          = .ok forecast ∧
      Transaction.sizeOfHex ownText = .ok size ∧ size ≤ forecast := by
  have haddr := addressable_sampleDraft
  have hshort := holdsShortKeys_sampleKeys
  obtain ⟨request, hrequest⟩ : ∃ request,
      (sampleDraft.signingRequest (.ofValues sampleKeys)).outcome = .ok request :=
    exists_eq_ok_of_isSome (by decide +kernel)
  obtain ⟨text, hattach⟩ : ∃ text,
      (attachSignatures request.txHex sampleKeys sampleSignatures true).outcome = .ok text :=
    exists_attach_sampleDraft hrequest
  obtain ⟨outputs, houtputs⟩ : ∃ outputs, sampleDraft.keptOutputs = .ok outputs :=
    exists_eq_ok_of_isSome (by decide +kernel)
  obtain ⟨key, hkey, hcompressed, hparse, -⟩ := exists_key_sampleDraft
  have hlength : sampleDraft.spends.length = [key, key].length := rfl
  have hown := signWithOneKey_eq_ok haddr rfl houtputs hlength (by simp) hcompressed hparse hkey
  obtain ⟨hforetells, hcovers⟩ := forecast_covers haddr
  obtain ⟨written, hwritten⟩ := hforetells _ _ _ _ _ hshort hrequest hattach
  obtain ⟨forecast, size, hforecast, hsize, hle⟩ := hcovers _ _ _ hown
  exact ⟨request, text, written, _, _, forecast, size, haddr, hshort, hrequest, hattach, hwritten,
    hown, hforecast, hsize, hle⟩

end Draft

end CoinSpend
