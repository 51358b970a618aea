import CoinSpend.Proofs.Curve.Der
import CoinSpend.Proofs.Script.Template
import CoinSpend.Proofs.Signing.Satisfaction
import CoinSpend.Proofs.Signing.Skeleton
import CoinSpend.Proofs.Transaction.RoundTrip
import CoinSpend.Signing.Attach

/-!
Putting in signatures from elsewhere.

* `Transaction.Fits.withScriptSigs`,
  `Transaction.usesWitnessForm_withScriptSigs`: other signature scripts keep a
  transaction readable and in its form.
* `attachedScriptSig_eq_ok_iff`: the signature script of a signature and a key
  that are given as text.
* `AttachedTo`: what the signature scripts for rows of signatures and keys hold.
* `Transaction.attached_eq_ok_iff`: signatures can be put in if and only if the
  transaction can be read, there are as many of them and of keys as inputs, and
  all of them can be read.
* `readSignature_encode`: a signature is read back from its text.
-/

namespace CoinSpend

/-! ### Other signature scripts -/

namespace Transaction

variable {tx : Transaction} {scriptSigs : List Script}

lemma length_inputs_withScriptSigs (h : tx.inputs.length ≤ scriptSigs.length) :
    (tx.withScriptSigs scriptSigs).inputs.length = tx.inputs.length := by
  simp [withScriptSigs, h]

/-- An input with its new signature script. -/
lemma getElem?_inputs_withScriptSigs {i : ℕ} {input : TxIn}
    (h : (tx.withScriptSigs scriptSigs).inputs[i]? = some input) :
    ∃ source scriptSig, tx.inputs[i]? = some source ∧ scriptSigs[i]? = some scriptSig ∧
      input = { source with scriptSig } := by
  obtain ⟨source, scriptSig, hsource, hscriptSig, rfl⟩ := List.getElem?_zipWith_eq_some.mp h
  exact ⟨source, scriptSig, hsource, hscriptSig, rfl⟩

/-- What is true of every input and remains true under the new scripts. -/
lemma forall_inputs_withScriptSigs {p : TxIn → Prop}
    (h : ∀ source ∈ tx.inputs, ∀ scriptSig ∈ scriptSigs, p { source with scriptSig }) :
    ∀ input ∈ (tx.withScriptSigs scriptSigs).inputs, p input := by
  intro input hinput
  obtain ⟨i, hi⟩ := List.mem_iff_getElem?.mp hinput
  obtain ⟨source, scriptSig, hsource, hscriptSig, rfl⟩ := getElem?_inputs_withScriptSigs hi
  exact h source (List.mem_of_getElem? hsource) scriptSig (List.mem_of_getElem? hscriptSig)

/-- The transaction can still be written and read if the new scripts can. -/
lemma Fits.withScriptSigs (h : tx.Fits)
    (hscriptSigs : ∀ scriptSig ∈ scriptSigs, scriptSig.length < UInt64.size) :
    (tx.withScriptSigs scriptSigs).Fits where
  inputs := by
    have hle : (tx.withScriptSigs scriptSigs).inputs.length ≤ tx.inputs.length := by
      simp [Transaction.withScriptSigs]
    exact Nat.lt_of_le_of_lt hle h.inputs
  outputs := h.outputs
  scriptSigs := forall_inputs_withScriptSigs fun _ _ scriptSig hmem => hscriptSigs scriptSig hmem
  scripts := h.scripts

/-- Its form remains the one without witnesses. -/
lemma usesWitnessForm_withScriptSigs (h : tx.usesWitnessForm = false)
    (hlength : tx.inputs.length ≤ scriptSigs.length) :
    (tx.withScriptSigs scriptSigs).usesWitnessForm = false := by
  obtain ⟨hinputs, hwitness⟩ := usesWitnessForm_eq_false_iff.mp h
  refine usesWitnessForm_eq_false_iff.mpr
    ⟨?_, forall_inputs_withScriptSigs fun source hsource _ _ => hwitness source hsource⟩
  rw [← List.length_pos_iff, length_inputs_withScriptSigs hlength]
  exact List.length_pos_iff.mpr hinputs

end Transaction

/-! ### Signatures and keys as text -/

/-- A signature is read back from its text. -/
lemma readSignature_encode (signature : Ecdsa.Signature) :
    readSignature (Hex.encode (Der.encode signature)) = .ok signature := by
  rw [readSignature, Hex.decodeMarked_encode]
  simp only [Der.decode?_encode]

/-- A key in the form told. -/
def PublicKey.bytesIn (key : PublicKey) (compressed : Bool) : Bytes :=
  if compressed then key.shortBytes else key.longBytes

/-- The short form has 33 bytes and the long one 65. -/
lemma PublicKey.length_bytesIn (key : PublicKey) (compressed : Bool) :
    (key.bytesIn compressed).length = if compressed then 33 else 65 := by
  cases compressed <;> simp [bytesIn]

/-- The signature script of a signature and a key, both given as text. -/
lemma attachedScriptSig_eq_ok_iff {compressed : Bool} {signatureText keyText : String}
    {scriptSig : Script} :
    attachedScriptSig compressed signatureText keyText = .ok scriptSig ↔
      ∃ signature key, readSignature signatureText = .ok signature ∧
        PublicKey.ofHex keyText = .ok key ∧
        scriptSig = Script.push (Der.encode signature ++ [1]) ++
          Script.push (key.bytesIn compressed) := by
  simp only [attachedScriptSig, PublicKey.pushOr_bytes, pushSignature_eq, bind_eq_ok_iff,
    pure_eq_ok_iff, Except.ok.injEq, exists_eq_left']
  constructor
  · rintro ⟨signature, hsignature, key, hkey, rfl⟩
    exact ⟨signature, key, hsignature, hkey, rfl⟩
  · rintro ⟨signature, key, hsignature, hkey, rfl⟩
    exact ⟨signature, hsignature, key, hkey, rfl⟩

/-- The signature scripts for a row of signatures and keys. -/
lemma attachedScriptSigs_eq_ok_iff {compressed : Bool} {pairs : List (String × String)}
    {scriptSigs : List Script} :
    attachedScriptSigs compressed pairs = .ok scriptSigs ↔
      List.Forall₂ (fun pair scriptSig => attachedScriptSig compressed pair.1 pair.2
        = .ok scriptSig) pairs scriptSigs := by
  rw [← mapM_eq_ok_iff]
  suffices attachedScriptSigs compressed pairs
      = pairs.mapM fun pair => attachedScriptSig compressed pair.1 pair.2 by rw [this]
  induction pairs with
  | nil => rfl
  | cons pair rest ih =>
      rw [attachedScriptSigs, List.mapM_cons, ih]

/-- The scripts are those of signatures and keys, row by row. -/
def AttachedTo (compressed : Bool) (signatures publicKeys : List String)
    (scriptSigs : List Script) : Prop :=
  List.Forall₂ (fun pair scriptSig => attachedScriptSig compressed pair.1 pair.2 = .ok scriptSig)
    (signatures.zip publicKeys) scriptSigs

namespace AttachedTo

variable {compressed : Bool} {signatures publicKeys : List String} {scriptSigs : List Script}

/-- What the signature script at a position holds. -/
lemma exists_at (h : AttachedTo compressed signatures publicKeys scriptSigs) {i : ℕ}
    {scriptSig : Script} (hi : scriptSigs[i]? = some scriptSig) :
    ∃ signatureText keyText signature key,
      signatures[i]? = some signatureText ∧ readSignature signatureText = .ok signature ∧
      publicKeys[i]? = some keyText ∧ PublicKey.ofHex keyText = .ok key ∧
      scriptSig = Script.push (Der.encode signature ++ [1]) ++
        Script.push (key.bytesIn compressed) := by
  obtain ⟨⟨signatureText, keyText⟩, hpair, hattached⟩ := exists_getElem?_of_forall₂ h.flip hi
  obtain ⟨hsignatureText, hkeyText⟩ := List.getElem?_zip_eq_some.mp hpair
  obtain ⟨signature, key, hsignature, hkey, heq⟩ := attachedScriptSig_eq_ok_iff.mp hattached
  exact ⟨signatureText, keyText, signature, key, hsignatureText, hsignature, hkeyText, hkey, heq⟩

/-- These scripts are short. -/
lemma length_lt (h : AttachedTo compressed signatures publicKeys scriptSigs) :
    ∀ scriptSig ∈ scriptSigs, scriptSig.length < UInt64.size := by
  intro scriptSig hmem
  obtain ⟨i, hi⟩ := List.mem_iff_getElem?.mp hmem
  obtain ⟨_, _, signature, key, -, -, -, -, rfl⟩ := h.exists_at hi
  have hsignature := Script.length_push_le (Der.encode signature ++ [1])
  have hkey := Script.length_push_le (key.bytesIn compressed)
  have hder := Der.length_encode_le signature
  have hbytes : (key.bytesIn compressed).length ≤ 65 := by
    rw [PublicKey.length_bytesIn]
    split_ifs <;> omega
  rw [List.length_append, List.length_singleton] at hsignature
  rw [List.length_append, UInt64.size]
  omega

end AttachedTo

namespace Transaction

/-- When signatures from elsewhere can be put into a transaction given as text. -/
lemma attached_eq_ok_iff {rawTx : String} {publicKeys signatures : List String}
    {compressed : Bool} {t : Transaction} :
    attached rawTx publicKeys signatures compressed = .ok t ↔
      ∃ tx scriptSigs, ofHex rawTx = .ok tx ∧ signatures.length = tx.inputs.length ∧
        publicKeys.length = tx.inputs.length ∧
        AttachedTo compressed signatures publicKeys scriptSigs ∧
        t = tx.withScriptSigs scriptSigs := by
  simp only [attached, bind_eq_ok_iff, guard_eq_ok_iff, pure_eq_ok_iff, not_not, ne_eq,
    attachedScriptSigs_eq_ok_iff]
  constructor
  · rintro ⟨tx, htx, hsignatures, hkeys, scriptSigs, hscriptSigs, rfl⟩
    exact ⟨tx, scriptSigs, htx, hsignatures, hkeys, hscriptSigs, rfl⟩
  · rintro ⟨tx, scriptSigs, htx, hsignatures, hkeys, hscriptSigs, rfl⟩
    exact ⟨tx, htx, hsignatures, hkeys, scriptSigs, hscriptSigs, rfl⟩

end Transaction

/-- Counting apart, the text is that of the transaction with the signatures. -/
lemma attachSignatures_eq_ok_iff {rawTx : String} {publicKeys signatures : List String}
    {compressed : Bool} {text : String} :
    (attachSignatures rawTx publicKeys signatures compressed).outcome = .ok text ↔
      ∃ t, Transaction.attached rawTx publicKeys signatures compressed = .ok t ∧
        t.toHex = text := by
  simp only [attachSignatures, Metered.outcome_bind, Metered.outcome_liftM,
    Metered.outcome_record, Metered.outcome_pure, bind_eq_ok_iff, Except.ok.injEq]
  simp

end CoinSpend
