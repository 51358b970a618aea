import CoinSpend.Proofs.Signing.KeyHash
import CoinSpend.Proofs.Signing.KeyPath

/-!
Which locks a key can sign for.

* `LockKind.locks`: the template of each kind of lock. `LockKind.eq_of_locks`: no script
  has two of them. `SpendPath.locks_of_ofScript`: a key spends a lock as its kind says.
* `PrivateKey.SignsFor`: the locks for which a key makes a signature.
  `PrivateKey.CannotSignFor`: the two causes for which it makes none.
* `SpendPath.OpenTo`: what a way of spending asks of a key and of a redeem script.
  `Satisfaction.exists_ofPath`: no satisfaction fails for anything else, if the outputs
  spent are known.
* `Transaction.entryAt_eq_error_iff`, `Transaction.exists_entryAt_iff`: whether an input
  can be signed depends on its lock and its key alone.
-/

namespace CoinSpend

/-! ### Templates -/

namespace LockKind

/-- The template of the locks that are opened in this way. No lock asks for a script
under an output key by itself. -/
def locks : LockKind → Script → Bool
  | p2pkh => Script.isP2pkh
  | p2wpkh => Script.isP2wpkh
  | p2shP2wpkh => Script.isP2sh
  | taprootKeyPath => Script.isP2tr
  | taprootScriptPath => fun _ => false

/-- The length of the scripts with the template of a kind. -/
def scriptLength : LockKind → ℕ
  | p2pkh => 25
  | p2wpkh => 22
  | p2shP2wpkh => 23
  | taprootKeyPath => 34
  | taprootScriptPath => 0

lemma length_of_locks {kind : LockKind} {script : Script} (h : kind.locks script) :
    script.length = kind.scriptLength := by
  cases kind with
  | p2pkh => exact Script.length_of_isP2pkh h
  | p2wpkh => exact Script.length_of_isP2wpkh h
  | p2shP2wpkh => exact Script.length_of_isP2sh h
  | taprootKeyPath => exact Script.length_of_isP2tr h
  | taprootScriptPath => cases h

/-- No script has the templates of two kinds. -/
lemma eq_of_locks (kind other : LockKind) {script : Script} (h : kind.locks script)
    (hother : other.locks script) : kind = other := by
  have hlength : kind.scriptLength = other.scriptLength :=
    (length_of_locks h).symm.trans (length_of_locks hother)
  revert hlength
  cases kind <;> cases other <;> decide

/-- With one template a script has no other. -/
lemma locks_eq {kind : LockKind} {script : Script} (h : kind.locks script) (other : LockKind) :
    other.locks script = decide (kind = other) := by
  rw [Bool.eq_iff_iff, decide_eq_true_iff]
  exact ⟨eq_of_locks kind other h, fun heq => heq ▸ h⟩

end LockKind

/-! ### Locks and keys -/

namespace PrivateKey

/-- The key is in the short form, which is the only one in witnesses, and the lock is the
hash of the witness program of its public key. -/
structure OwnsScriptHash (key : PrivateKey) (script : Script) : Prop where
  short : key.compressed = true
  script_eq : script = Script.p2sh (hash160 (Script.p2wpkh key.publicKey.hash))

/-- The key makes a signature for the lock. It does not matter whether the output key
or the hash of a key in the lock is its own. -/
inductive SignsFor (key : PrivateKey) (script : Script) : Prop where
  | outputKey (h : script.isP2tr)
  | keyHash (h : script.isP2pkh)
  | witnessKeyHash (h : script.isP2wpkh) (hshort : key.compressed = true)
  | scriptHash (h : key.OwnsScriptHash script)

/-- Why a key makes no signature for the lock of the input at a position. -/
inductive CannotSignFor (key : PrivateKey) (script : Script) (index : ℕ) : TxError → Prop where
  | unsupported (htr : ¬script.isP2tr) (hpkh : ¬script.isP2pkh) (hwpkh : ¬script.isP2wpkh)
      (hsh : ¬key.OwnsScriptHash script) :
      CannotSignFor key script index (.unsupportedScriptType index script)
  | longKey (hwpkh : script.isP2wpkh) (hlong : key.compressed = false) :
      CannotSignFor key script index (.signing .uncompressedKey)

/-- Whether a key signs for a lock is seen from the template. -/
instance (key : PrivateKey) (script : Script) : Decidable (key.SignsFor script) :=
  decidable_of_iff (script.isP2tr ∨ script.isP2pkh ∨
      script.isP2wpkh ∧ key.compressed = true ∨
      key.compressed = true ∧ script = Script.p2sh (hash160 (Script.p2wpkh key.publicKey.hash))) <| by
    constructor
    · rintro (h | h | ⟨h, hshort⟩ | ⟨hshort, hscript⟩)
      · exact .outputKey h
      · exact .keyHash h
      · exact .witnessKeyHash h hshort
      · exact .scriptHash ⟨hshort, hscript⟩
    · rintro (h | h | ⟨h, hshort⟩ | ⟨hshort, hscript⟩)
      · exact .inl h
      · exact .inr (.inl h)
      · exact .inr (.inr (.inl ⟨h, hshort⟩))
      · exact .inr (.inr (.inr ⟨hshort, hscript⟩))

/-- A key makes a signature or there is a cause for which it does not. -/
lemma signsFor_or_cannotSignFor (key : PrivateKey) (script : Script) (index : ℕ) :
    key.SignsFor script ∨ ∃ e, key.CannotSignFor script index e := by
  by_cases htr : script.isP2tr
  · exact .inl (.outputKey htr)
  by_cases hpkh : script.isP2pkh
  · exact .inl (.keyHash hpkh)
  by_cases hwpkh : script.isP2wpkh
  · cases hshort : key.compressed with
    | true => exact .inl (.witnessKeyHash hwpkh hshort)
    | false => exact .inr ⟨_, .longKey hwpkh hshort⟩
  by_cases hsh : key.OwnsScriptHash script
  · exact .inl (.scriptHash hsh)
  · exact .inr ⟨_, .unsupported htr hpkh hwpkh hsh⟩

variable {key : PrivateKey} {script : Script}

/-- A key in the short form is its own short form. -/
lemma inShortForm_eq_self (h : key.compressed = true) : key.inShortForm = key := by
  rw [inShortForm, ← h]

/-- The program of a key in the short form is that of its own public key. -/
lemma ownsScriptHash_iff :
    key.OwnsScriptHash script ↔
      key.compressed = true ∧ script = Script.p2sh (hash160 (SpendPath.ownProgram key)) := by
  constructor
  · rintro ⟨hshort, hscript⟩
    rw [SpendPath.ownProgram, inShortForm_eq_self hshort]
    exact ⟨hshort, hscript⟩
  · rintro ⟨hshort, hscript⟩
    rw [SpendPath.ownProgram, inShortForm_eq_self hshort] at hscript
    exact ⟨hshort, hscript⟩

lemma isP2sh_of_ownsScriptHash (h : key.OwnsScriptHash script) : script.isP2sh :=
  Script.isP2sh_iff.mpr ⟨_, length_hash160 _, h.script_eq⟩

/-- A key in the long form signs for no lock that asks for a witness program. -/
lemma SignsFor.of_long (h : key.SignsFor script) (hlong : key.compressed = false) :
    script.isP2tr ∨ script.isP2pkh := by
  cases h with
  | outputKey h => exact .inl h
  | keyHash h => exact .inr h
  | witnessKeyHash _ hshort => exact absurd hshort (by simp [hlong])
  | scriptHash h => exact absurd h.short (by simp [hlong])

end PrivateKey

namespace SpendPath

variable {script : Script} {key : PrivateKey}

lemma ofScript_of_isP2pkh (h : script.isP2pkh) (key : PrivateKey) (index : ℕ) :
    ofScript script key index = .ok .p2pkh := by
  obtain ⟨hash, hlength, rfl⟩ := Script.isP2pkh_iff.mp h
  exact ofScript_p2pkh hlength key index

lemma ofScript_of_isP2wpkh (h : script.isP2wpkh) (key : PrivateKey) (index : ℕ) :
    ofScript script key index = .ok .p2wpkh := by
  have htr : ¬script.isP2tr := fun htr => nomatch LockKind.eq_of_locks .p2wpkh .taprootKeyPath h htr
  have hpkh : ¬script.isP2pkh := fun hpkh => nomatch LockKind.eq_of_locks .p2wpkh .p2pkh h hpkh
  rw [ofScript, if_neg htr, if_neg hpkh, if_pos h]

lemma ofScript_of_ownsScriptHash (h : key.OwnsScriptHash script) (index : ℕ) :
    ofScript script key index = .ok (.p2shP2wpkh (ownProgram key)) := by
  have hsh := PrivateKey.isP2sh_of_ownsScriptHash h
  have htr : ¬script.isP2tr := fun htr =>
    nomatch LockKind.eq_of_locks .p2shP2wpkh .taprootKeyPath hsh htr
  have hpkh : ¬script.isP2pkh := fun hpkh =>
    nomatch LockKind.eq_of_locks .p2shP2wpkh .p2pkh hsh hpkh
  have hwpkh : ¬script.isP2wpkh := fun hwpkh =>
    nomatch LockKind.eq_of_locks .p2shP2wpkh .p2wpkh hsh hwpkh
  obtain ⟨hshort, hscript⟩ := PrivateKey.ownsScriptHash_iff.mp h
  have hown : ownRedeemScript? script key = some (ownProgram key) := by
    simp only [ownRedeemScript?, hsh, hshort, Bool.and_self, if_true, if_pos hscript.symm]
  rw [ofScript, if_neg htr, if_neg hpkh, if_neg hwpkh, hown]

lemma ofScript_of_unsupported (htr : ¬script.isP2tr) (hpkh : ¬script.isP2pkh)
    (hwpkh : ¬script.isP2wpkh) (hsh : ¬key.OwnsScriptHash script) (index : ℕ) :
    ofScript script key index = .error (.unsupportedScriptType index script) := by
  have hnone : ownRedeemScript? script key = none := by
    simp only [ownRedeemScript?]
    split_ifs with hshape hown
    · rw [Bool.and_eq_true] at hshape
      exact absurd (PrivateKey.ownsScriptHash_iff.mpr ⟨hshape.2, hown.symm⟩) hsh
    · rfl
    · rfl
  rw [ofScript, if_neg htr, if_neg hpkh, if_neg hwpkh, hnone]

/-- A key spends a lock in the way of its template. -/
lemma locks_of_ofScript {index : ℕ} {path : SpendPath} (h : ofScript script key index = .ok path) :
    path.lockKind.locks script := by
  rcases cases_of_ofScript h with ⟨hlock, rfl⟩ | ⟨hlock, rfl⟩ | ⟨hlock, rfl⟩ | ⟨rfl, rfl⟩
  · exact hlock
  · exact hlock
  · exact hlock
  · exact Script.isP2sh_iff.mpr ⟨_, length_hash160 _, rfl⟩

/-- What a way of spending asks of a key: the short form in witnesses. A redeem script has
to fit one push. -/
def OpenTo : SpendPath → PrivateKey → Prop
  | p2wpkh, key => key.compressed = true
  | p2shP2wpkh redeemScript, key =>
      key.compressed = true ∧ redeemScript.length ≤ Script.maxPush
  | p2pkh, _ | taprootKeyPath, _ | taprootScriptPath .., _ => True

/-- The witness program of a key has 22 bytes. -/
lemma length_ownProgram (key : PrivateKey) : (ownProgram key).length = 22 :=
  Script.length_of_isP2wpkh (Script.isP2wpkh_iff.mpr ⟨_, length_hash160 _, rfl⟩)

end SpendPath

/-! ### Inputs -/

variable {tx : Transaction} {prevouts : List TxOut} {index : ℕ} {prevout : TxOut}
  {key : PrivateKey}

namespace Satisfaction

lemma exists_witnessKeyHash (hindex : index < tx.inputs.length) (hshort : key.compressed = true)
    (prevout : TxOut) {redeemScript : Option Script}
    (hfits : ∀ script ∈ redeemScript, script.length ≤ Script.maxPush) :
    ∃ satisfaction, witnessKeyHash tx index key prevout redeemScript = .ok satisfaction := by
  have hdigest : ∃ digest, Sighash.segwit tx index key.publicKey.hash prevout.value = .ok digest := by
    simp only [Sighash.segwit, List.getElem?_eq_getElem hindex]
    exact ⟨_, rfl⟩
  obtain ⟨digest, hdigest⟩ := hdigest
  exact ⟨_, witnessKeyHash_eq_ok_iff.mpr ⟨hshort, hfits, digest, hdigest, rfl⟩⟩

/-- The signature of an input whose output is known, like those of all others, can be
made, if the way of spending is open to the key. -/
lemma exists_ofPath (hlength : prevouts.length = tx.inputs.length)
    (hprevout : prevouts[index]? = some prevout) {path : SpendPath} (hopen : path.OpenTo key) :
    ∃ satisfaction, ofPath tx index path key prevouts = .ok satisfaction := by
  have hindex : index < tx.inputs.length := hlength ▸ (List.getElem?_eq_some_iff.mp hprevout).1
  simp only [ofPath, hprevout]
  cases path with
  | p2pkh =>
      exact ⟨_, keyHash_eq_ok_iff.mpr ⟨_, Sighash.legacy_eq_ok_iff.mpr ⟨hindex, rfl⟩, rfl⟩⟩
  | p2wpkh => exact exists_witnessKeyHash hindex hopen prevout (by simp)
  | p2shP2wpkh redeemScript =>
      exact exists_witnessKeyHash hindex hopen.1 prevout (by simpa using hopen.2)
  | taprootKeyPath =>
      simp only [keyPath, Sighash.taproot, if_pos hlength]
      exact ⟨_, rfl⟩
  | taprootScriptPath leafScript controlBlock =>
      simp only [scriptPath, Sighash.taproot, if_pos hlength]
      exact ⟨_, rfl⟩

/-- The one cause for which a key in the long form does not sign. -/
lemma ofPath_p2wpkh_of_long (hprevout : prevouts[index]? = some prevout)
    (hlong : key.compressed = false) :
    ofPath tx index .p2wpkh key prevouts = .error (.signing .uncompressedKey) := by
  simp only [ofPath, hprevout, witnessKeyHash, hlong]
  rfl

end Satisfaction

namespace Transaction

/-- The way of spending and the satisfaction of the input at a position. -/
def entryAt (tx : Transaction) (prevouts : List TxOut) (index : ℕ) (input : TxOut × PrivateKey) :
    Except TxError (SpendPath × Satisfaction) := do
  let path ← SpendPath.ofScript input.1.script input.2 index
  let satisfaction ← Satisfaction.ofPath tx index path input.2 prevouts
  return (path, satisfaction)

lemma entryAt_eq_ok_iff {input : TxOut × PrivateKey} {entry : SpendPath × Satisfaction} :
    tx.entryAt prevouts index input = .ok entry ↔ tx.Entry prevouts (input, index) entry := by
  simp only [entryAt, Entry, bind_eq_ok_iff, pure_eq_ok_iff]
  constructor
  · rintro ⟨path, hpath, satisfaction, hsat, rfl⟩
    exact ⟨hpath, hsat⟩
  · rintro ⟨hpath, hsat⟩
    exact ⟨entry.1, hpath, entry.2, hsat, rfl⟩

/-- An input is signed if its key makes a signature for its lock. -/
lemma exists_entryAt (hlength : prevouts.length = tx.inputs.length)
    (hprevout : prevouts[index]? = some prevout) (h : key.SignsFor prevout.script) :
    ∃ entry, tx.entryAt prevouts index (prevout, key) = .ok entry := by
  obtain ⟨path, hpath, hopen⟩ : ∃ path, SpendPath.ofScript prevout.script key index = .ok path ∧
      path.OpenTo key := by
    cases h with
    | outputKey h => exact ⟨_, SpendPath.ofScript_of_isP2tr h key index, trivial⟩
    | keyHash h => exact ⟨_, SpendPath.ofScript_of_isP2pkh h key index, trivial⟩
    | witnessKeyHash h hshort => exact ⟨_, SpendPath.ofScript_of_isP2wpkh h key index, hshort⟩
    | scriptHash h =>
        have hfits : (SpendPath.ownProgram key).length ≤ Script.maxPush := by
          rw [SpendPath.length_ownProgram]
          decide
        exact ⟨_, SpendPath.ofScript_of_ownsScriptHash h index, h.short, hfits⟩
  obtain ⟨satisfaction, hsat⟩ := Satisfaction.exists_ofPath hlength hprevout hopen
  exact ⟨(path, satisfaction), by rw [entryAt, bind_of_eq_ok hpath, bind_of_eq_ok hsat]; rfl⟩

/-- Otherwise it fails for the cause there is. -/
lemma entryAt_of_cannotSignFor (hprevout : prevouts[index]? = some prevout) {e : TxError}
    (h : key.CannotSignFor prevout.script index e) :
    tx.entryAt prevouts index (prevout, key) = .error e := by
  cases h with
  | unsupported htr hpkh hwpkh hsh =>
      rw [entryAt, SpendPath.ofScript_of_unsupported htr hpkh hwpkh hsh]
      rfl
  | longKey hwpkh hlong =>
      rw [entryAt, bind_of_eq_ok (SpendPath.ofScript_of_isP2wpkh hwpkh key index),
        Satisfaction.ofPath_p2wpkh_of_long hprevout hlong]
      rfl

/-- When an input is signed. -/
lemma exists_entryAt_iff (hlength : prevouts.length = tx.inputs.length)
    (hprevout : prevouts[index]? = some prevout) :
    (∃ entry, tx.entryAt prevouts index (prevout, key) = .ok entry) ↔
      key.SignsFor prevout.script := by
  refine ⟨fun ⟨entry, hentry⟩ => ?_, exists_entryAt hlength hprevout⟩
  rcases key.signsFor_or_cannotSignFor prevout.script index with h | ⟨e, h⟩
  · exact h
  · rw [entryAt_of_cannotSignFor hprevout h] at hentry
    cases hentry

/-- When and how it fails. -/
lemma entryAt_eq_error_iff (hlength : prevouts.length = tx.inputs.length)
    (hprevout : prevouts[index]? = some prevout) {e : TxError} :
    tx.entryAt prevouts index (prevout, key) = .error e ↔
      key.CannotSignFor prevout.script index e := by
  refine ⟨fun hfails => ?_, entryAt_of_cannotSignFor hprevout⟩
  rcases key.signsFor_or_cannotSignFor prevout.script index with h | ⟨other, h⟩
  · obtain ⟨entry, hentry⟩ := exists_entryAt hlength hprevout h
    rw [hentry] at hfails
    cases hfails
  · rw [entryAt_of_cannotSignFor hprevout h] at hfails
    exact Except.error.inj hfails ▸ h

end Transaction

end CoinSpend
