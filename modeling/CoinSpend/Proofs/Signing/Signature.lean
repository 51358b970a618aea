import CoinSpend.Proofs.Script.Scan
import CoinSpend.Proofs.Signing.KeyHash
import CoinSpend.Proofs.Transaction.Monotone

/-!
The signature that an input holds, and what it holds beside it.

* `SpendPath.satisfaction`: what satisfies a way of spending, given the signature.
  `Satisfaction.exists_signature`: every satisfaction is of this form.
* `TxIn.signature`: the signature of an input. `TxIn.signature_satisfy`: it is the one
  that was put in, whatever the way of spending.
* `TxIn.SignedAlike`: two inputs spend one output by one key and differ in nothing
  but the signature. The one with the shorter signature is no larger and no
  costlier.
* `Transaction.signedAlike_of_trialSigned`: so it is with the inputs of transactions
  that spend the same outputs, once they are signed by the same keys.
-/

namespace CoinSpend

/-! ### Satisfactions by their signatures -/

namespace SpendPath

/-- The satisfaction of a way of spending that holds the given signature. -/
def satisfaction (key : PrivateKey) (signature : Bytes) : SpendPath → Satisfaction
  | p2pkh => ⟨Script.push signature ++ Script.push key.publicKey.bytes, []⟩
  | p2wpkh => ⟨[], [signature, key.publicKey.bytes]⟩
  | p2shP2wpkh redeemScript =>
    ⟨Script.push redeemScript, [signature, key.publicKey.bytes]⟩
  | taprootKeyPath => ⟨[], [signature]⟩
  | taprootScriptPath leafScript controlBlock =>
    ⟨[], [signature, leafScript, controlBlock.encode]⟩

/-- The signatures that a way of spending may hold: of 64 bytes under an output key,
and of at most 73 bytes, with their mark, elsewhere. -/
def Admits (signature : Bytes) : SpendPath → Prop
  | p2pkh | p2wpkh | p2shP2wpkh _ => signature.length ≤ 73
  | taprootKeyPath | taprootScriptPath .. => signature.length = 64

/-- No signature needs more than one push. -/
lemma Admits.length_le {path : SpendPath} {signature : Bytes} (h : path.Admits signature) :
    signature.length ≤ 73 := by
  cases path with
  | p2pkh | p2wpkh | p2shP2wpkh => exact h
  | taprootKeyPath | taprootScriptPath =>
      have hlength : signature.length = 64 := h
      omega

end SpendPath

namespace Satisfaction

variable {tx : Transaction} {index : ℕ} {key : PrivateKey} {prevout : TxOut}
  {satisfaction : Satisfaction}

lemma exists_signature_of_witnessKeyHash {redeemScript : Option Script}
    (h : witnessKeyHash tx index key prevout redeemScript = .ok satisfaction) :
    ∃ signature : Bytes, signature.length ≤ 73 ∧
      satisfaction
        = ⟨redeemScript.elim [] Script.push, [signature, key.publicKey.bytes]⟩ := by
  obtain ⟨-, -, digest, -, rfl⟩ := witnessKeyHash_eq_ok_iff.mp h
  exact ⟨_, length_markedSignature_le _, rfl⟩

/-- A satisfaction holds a signature that its way of spending admits. -/
lemma exists_signature {path : SpendPath} {prevouts : List TxOut}
    (h : ofPath tx index path key prevouts = .ok satisfaction) :
    ∃ signature, path.Admits signature ∧ satisfaction = path.satisfaction key signature := by
  cases hprevout : prevouts[index]? with
  | none => simp [ofPath, hprevout] at h
  | some prevout =>
      simp only [ofPath, hprevout] at h
      cases path with
      | p2pkh =>
          obtain ⟨digest, -, rfl⟩ := keyHash_eq_ok_iff.mp h
          exact ⟨_, length_markedSignature_le _, rfl⟩
      | p2wpkh => exact exists_signature_of_witnessKeyHash h
      | p2shP2wpkh redeemScript => exact exists_signature_of_witnessKeyHash h
      | taprootKeyPath =>
          simp only [keyPath, bind_eq_ok_iff, pure_eq_ok_iff] at h
          obtain ⟨digest, -, rfl⟩ := h
          exact ⟨_, Schnorr.length_sign _ _, rfl⟩
      | taprootScriptPath leafScript controlBlock =>
          simp only [scriptPath, bind_eq_ok_iff, pure_eq_ok_iff] at h
          obtain ⟨digest, -, rfl⟩ := h
          exact ⟨_, Schnorr.length_sign _ _, rfl⟩

end Satisfaction

/-! ### The signature of an input -/

namespace TxIn

/-- The signature that an input holds: the first item of its witness or, without
one, what its signature script pushes first. -/
def signature (input : TxIn) : Bytes :=
  match input.witness with
  | item :: _ => item
  | [] =>
    match Script.split? input.scriptSig with
    | some (.push data, _) => data
    | _ => []

/-- The signature that is put in is the one that is held. -/
lemma signature_satisfy {path : SpendPath} {sig : Bytes} (h : path.Admits sig) (input : TxIn)
    (key : PrivateKey) : (input.satisfy (path.satisfaction key sig)).signature = sig := by
  cases path with
  | p2pkh =>
      have hpush : sig.length ≤ Script.maxPush := Nat.le_trans h.length_le (by decide)
      simp only [signature, satisfy, SpendPath.satisfaction, Script.split?_push _ hpush]
  | p2wpkh | p2shP2wpkh | taprootKeyPath | taprootScriptPath => rfl

/-- Two inputs that spend one output by one key, each with a signature of its
own. -/
inductive SignedAlike (lookup : Lookup) : TxIn → TxIn → Prop where
  | of {source : TxIn} {prevout : TxOut} {key : PrivateKey} {index : ℕ} {path : SpendPath}
      {sig other : Bytes} (hlookup : lookup source.previous = some prevout)
      (hpath : SpendPath.ofScript prevout.script key index = .ok path)
      (hsig : path.Admits sig) (hother : path.Admits other) :
      SignedAlike lookup (source.satisfy (path.satisfaction key sig))
        (source.satisfy (path.satisfaction key other))

variable {lookup : Lookup} {a b : TxIn}

/-- What the two of them spend is known. -/
lemma SignedAlike.exists_lookup (h : SignedAlike lookup a b) :
    ∃ output, lookup a.previous = some output := by
  obtain @⟨source, prevout, key, index, path, sig, other, hlookup, -, -, -⟩ := h
  exact ⟨prevout, hlookup⟩

/-- A longer first item does not make a witness smaller. -/
lemma witnessSize_cons_le {sig other : Bytes} (h : sig.length ≤ other.length)
    (items : List Bytes) : witnessSize (sig :: items) ≤ witnessSize (other :: items) :=
  Nat.add_le_add_left (Nat.add_le_add_right (sizedSize_le h) _) _

/-- The input with the shorter signature is no larger. -/
lemma SignedAlike.noLarger (h : SignedAlike lookup a b)
    (hle : a.signature.length ≤ b.signature.length) : NoLarger a b := by
  obtain @⟨source, prevout, key, index, path, sig, other, -, -, hsig, hother⟩ := h
  rw [signature_satisfy hsig, signature_satisfy hother] at hle
  have hwitness := witnessSize_cons_le hle
  cases path with
  | p2pkh =>
      refine ⟨?_, Nat.le_refl _, id⟩
      simp only [satisfy, SpendPath.satisfaction, List.length_append]
      exact Nat.add_le_add_right (Script.length_push_le_length_push hle) _
  | p2wpkh | p2shP2wpkh | taprootKeyPath | taprootScriptPath =>
      exact ⟨Nat.le_refl _, hwitness _, fun hnil => absurd hnil (List.cons_ne_nil _ _)⟩

/-- A signature and a key are pushed, and nothing is checked. -/
lemma sigops_keyHash {key : PrivateKey} {sig : Bytes} (h : sig.length ≤ 73) :
    Script.sigops false (Script.push sig ++ Script.push key.publicKey.bytes) = 0 := by
  have hkey := key.publicKey.length_bytes_le
  have hreads : Script.Reads (Script.push sig ++ Script.push key.publicKey.bytes)
      ([sig, key.publicKey.bytes].map .push) := by
    rw [← List.append_nil (Script.push key.publicKey.bytes)]
    exact .push (Nat.le_trans h (by decide)) (.push (Nat.le_trans hkey (by decide)) .nil)
  exact Script.sigops_of_pushes hreads false

/-- Neither of the two is costlier. -/
lemma SignedAlike.noCostlier {view : ScriptView} (h : SignedAlike lookup a b)
    (hview : ∀ outpoint, view.get? outpoint = (lookup outpoint).map TxOut.script) :
    NoCostlier view a b := by
  obtain @⟨source, prevout, key, index, path, sig, other, hlookup, hpath, hsig, hother⟩ := h
  have hscript (script : Script) (hscript : view.get? source.previous = some script) :
      script = prevout.script := by
    rw [hview, hlookup] at hscript
    exact (Option.some.inj hscript).symm
  rcases SpendPath.cases_of_ofScript hpath with
    ⟨lock, rfl⟩ | ⟨lock, rfl⟩ | ⟨lock, rfl⟩ | ⟨lock, rfl⟩
  · refine ⟨rfl, Nat.le_refl _, fun script hget => ?_⟩
    rw [hscript script hget, sigopCost_of_isP2tr lock]
    exact Nat.zero_le _
  · refine ⟨rfl, Nat.le_of_eq ?_, fun script hget => ?_⟩
    · exact (sigops_keyHash hsig).trans (sigops_keyHash hother).symm
    · rw [hscript script hget, sigopCost_of_isP2pkh lock]
      exact Nat.zero_le _
  · -- under a witness program the key comes last, not the signature
    exact ⟨rfl, Nat.le_refl _, fun script _ => Nat.le_of_eq (sigopCost_congr rfl rfl script)⟩
  · exact ⟨rfl, Nat.le_refl _, fun script _ => Nat.le_of_eq (sigopCost_congr rfl rfl script)⟩

/-- Under an output key both signatures have 64 bytes. -/
lemma SignedAlike.length_of_isP2tr {output : TxOut} (h : SignedAlike lookup a b)
    (hlookup : lookup a.previous = some output) (htr : output.script.isP2tr) :
    a.signature.length = 64 ∧ b.signature.length = 64 := by
  obtain @⟨source, prevout, key, index, path, sig, other, hfound, hpath, hsig, hother⟩ := h
  obtain rfl : output = prevout := Option.some.inj (hlookup.symm.trans hfound)
  rw [SpendPath.ofScript, if_pos htr] at hpath
  obtain rfl := Except.ok.inj hpath
  rw [signature_satisfy hsig, signature_satisfy hother]
  exact ⟨hsig, hother⟩

/-- Under the hash of a key the longer signature makes the longer signature script. -/
lemma SignedAlike.length_scriptSig_le_iff {output : TxOut} (h : SignedAlike lookup a b)
    (hlookup : lookup a.previous = some output) (hpkh : output.script.isP2pkh) :
    a.scriptSig.length ≤ b.scriptSig.length ↔ a.signature.length ≤ b.signature.length := by
  obtain @⟨source, prevout, key, index, path, sig, other, hfound, hpath, hsig, hother⟩ := h
  obtain rfl : output = prevout := Option.some.inj (hlookup.symm.trans hfound)
  rw [Script.isP2pkh_iff] at hpkh
  obtain ⟨hash, hhash, hscript⟩ := hpkh
  rw [hscript, SpendPath.ofScript_p2pkh hhash] at hpath
  obtain rfl := Except.ok.inj hpath
  rw [signature_satisfy hsig, signature_satisfy hother]
  have hpush : sig.length < 76 := Nat.lt_of_le_of_lt hsig (by decide)
  have hpush' : other.length < 76 := Nat.lt_of_le_of_lt hother (by decide)
  simp only [satisfy, SpendPath.satisfaction, List.length_append, Script.push_of_lt hpush,
    Script.push_of_lt hpush', List.length_cons]
  omega

end TxIn

/-! ### Signed transactions -/

namespace Transaction

variable {tx other t s : Transaction} {keys : List PrivateKey} {lookup : Lookup}

/-- How an input of a signed transaction was satisfied. -/
lemma exists_satisfaction_of_trialSigned (h : tx.trialSigned keys lookup = .ok t) {i : ℕ}
    {a : TxIn} (ha : t.inputs[i]? = some a) :
    ∃ (source : TxIn) (prevout : TxOut) (key : PrivateKey) (path : SpendPath) (sig : Bytes),
      tx.inputs[i]? = some source ∧ lookup source.previous = some prevout ∧
      keys[i]? = some key ∧ SpendPath.ofScript prevout.script key i = .ok path ∧
      path.Admits sig ∧ a = source.satisfy (path.satisfaction key sig) := by
  obtain ⟨found, hfound, rfl⟩ := trialSigned_eq_ok_iff.mp h
  obtain ⟨hkeys, prevouts, hspent, hentries⟩ := satisfactions_eq_ok_iff.mp hfound
  obtain ⟨source, satisfaction, hsource, hsat, rfl⟩ := List.getElem?_zipWith_eq_some.mp ha
  obtain ⟨prevout, hprevout, hlookup⟩ := exists_getElem?_of_forall₂ hspent hsource
  have hi : i < keys.length :=
    Nat.lt_of_lt_of_le (List.getElem?_eq_some_iff.mp hsource).1 hkeys
  have hpair : (prevouts.zip keys).zipIdx[i]? = some ((prevout, keys[i]), i) := by
    simp [List.getElem?_zip_eq_some, hprevout, hi]
  obtain ⟨entry, hentry, hpath, hover⟩ := exists_getElem?_of_forall₂ hentries hpair
  obtain rfl : entry.2 = satisfaction := by
    simpa [hentry] using hsat
  obtain ⟨sig, hsig, heq⟩ := Satisfaction.exists_signature hover
  exact ⟨source, prevout, keys[i], entry.1, sig, hsource, hlookup,
    List.getElem?_eq_getElem hi, hpath, hsig, by rw [heq]⟩

/-- Signing keeps the number of inputs. -/
lemma length_inputs_of_trialSigned (h : tx.trialSigned keys lookup = .ok t) :
    t.inputs.length = tx.inputs.length := by
  rw [← t.length_skeleton, skeleton_of_trialSigned h, length_skeleton]

/-- Transactions with the same inputs are signed alike by the same keys. -/
lemma signedAlike_of_trialSigned (hinputs : tx.inputs = other.inputs)
    (ht : tx.trialSigned keys lookup = .ok t) (hs : other.trialSigned keys lookup = .ok s) :
    List.Forall₂ (TxIn.SignedAlike lookup) t.inputs s.inputs := by
  refine forall₂_of_getElem? ?_ fun i a b ha hb => ?_
  · rw [length_inputs_of_trialSigned ht, length_inputs_of_trialSigned hs, hinputs]
  · obtain ⟨source, prevout, key, path, sig, hsource, hlookup, hkey, hpath, hsig, rfl⟩ :=
      exists_satisfaction_of_trialSigned ht ha
    obtain ⟨source', prevout', key', path', sig', hsource', hlookup', hkey', hpath', hsig', rfl⟩ :=
      exists_satisfaction_of_trialSigned hs hb
    rw [hinputs] at hsource
    obtain rfl := Option.some.inj (hsource.symm.trans hsource')
    obtain rfl := Option.some.inj (hlookup.symm.trans hlookup')
    obtain rfl := Option.some.inj (hkey.symm.trans hkey')
    obtain rfl := Except.ok.inj (hpath.symm.trans hpath')
    exact .of hlookup hpath hsig hsig'

end Transaction

end CoinSpend
