import CoinSpend.Proofs.Curve.Der
import CoinSpend.Proofs.Outcome
import CoinSpend.Signing.Satisfaction

/-!
Satisfactions whose pushes do not fail.

* `length_markedSignature_le`: a signature with its mark takes at most 73 bytes.
  `pushSignature_eq`, `PublicKey.pushOr_bytes`: signatures and keys fit one push.
* `Satisfaction.keyHash_eq_ok_iff`, `Satisfaction.witnessKeyHash_eq_ok_iff`: what the two
  satisfactions with signatures of this form hold, and when there are such.
-/

namespace CoinSpend

/-- A signature with its mark takes at most 73 bytes. -/
lemma length_markedSignature_le (signature : Ecdsa.Signature) :
    (markedSignature signature).length ≤ 73 := by
  rw [markedSignature, List.length_append]
  exact Nat.add_le_add_right (Der.length_encode_le signature) 1

/-- No signature is too long for a push. -/
lemma pushSignature_eq (signature : Ecdsa.Signature) :
    pushSignature signature = .ok (Script.push (markedSignature signature)) :=
  Script.pushOr_of_le (Nat.le_trans (length_markedSignature_le signature) (by decide)) _

/-- No key is too long for a push. -/
lemma PublicKey.pushOr_bytes (key : PublicKey) (tooLong : ℕ → TxError) :
    Script.pushOr tooLong key.bytes = .ok (Script.push key.bytes) :=
  Script.pushOr_of_le (Nat.le_trans key.length_bytes_le (by decide)) tooLong

namespace Satisfaction

variable {tx : Transaction} {index : ℕ} {key : PrivateKey} {prevout : TxOut}
  {redeemScript : Option Script} {scriptSig : Script} {satisfaction : Satisfaction}

/-- A redeem script is shown if it fits one push. -/
lemma redeemPush_eq_ok_iff : redeemPush redeemScript = .ok scriptSig ↔
    (∀ script ∈ redeemScript, script.length ≤ Script.maxPush) ∧
      redeemScript.elim [] Script.push = scriptSig := by
  cases redeemScript with
  | none => simp [redeemPush]
  | some script => simp [redeemPush, Script.pushOr_eq_ok_iff]

/-- Signature and key in the signature script need a digest and nothing else. -/
lemma keyHash_eq_ok_iff : keyHash tx index key prevout = .ok satisfaction ↔
    ∃ digest, Sighash.legacy tx index prevout.script = .ok digest ∧
      (⟨Script.push (markedSignature (key.signDigest digest)) ++ Script.push key.publicKey.bytes,
        []⟩ : Satisfaction) = satisfaction := by
  simp only [keyHash, pushSignature_eq, bind_eq_ok_iff, pure_eq_ok_iff, Except.ok.injEq,
    exists_eq_left']

/-- Signature and key in the witness need a key in the short form beside the digest, and a
redeem script that fits one push. -/
lemma witnessKeyHash_eq_ok_iff :
    witnessKeyHash tx index key prevout redeemScript = .ok satisfaction ↔
      key.compressed = true ∧ (∀ script ∈ redeemScript, script.length ≤ Script.maxPush) ∧
      ∃ digest, Sighash.segwit tx index key.publicKey.hash prevout.value = .ok digest ∧
        (⟨redeemScript.elim [] Script.push,
          [markedSignature (key.signDigest digest), key.publicKey.bytes]⟩ : Satisfaction)
          = satisfaction := by
  simp only [witnessKeyHash, guard_eq_ok_iff, bind_eq_ok_iff, pure_eq_ok_iff,
    redeemPush_eq_ok_iff, Bool.not_eq_true', Bool.not_eq_false]
  constructor
  · rintro ⟨hshort, digest, hdigest, scriptSig, ⟨hscript, rfl⟩, rfl⟩
    exact ⟨hshort, hscript, digest, hdigest, rfl⟩
  · rintro ⟨hshort, hscript, digest, hdigest, rfl⟩
    exact ⟨hshort, digest, hdigest, _, ⟨hscript, rfl⟩, rfl⟩

end Satisfaction

end CoinSpend
