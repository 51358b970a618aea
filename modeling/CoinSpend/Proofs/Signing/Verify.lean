import CoinSpend.Proofs.Curve.Der
import CoinSpend.Proofs.Curve.Verify
import CoinSpend.Proofs.Taproot
import CoinSpend.Signing.Satisfaction

/-!
What keys write can be verified.

* `PrivateKey.signDigest_low`: the signature of a digest is low in both scalars, and so
  takes at most 71 bytes with its mark, and it can be verified.
* `PrivateKey.commit_xOnly`: the secret of the output key belongs to the output key.
* `PrivateKey.verifies_keyPath`, `PrivateKey.verifies_scriptPath`: signatures along the key
  path can be verified by the output key, and those along a script by the key itself.
-/

namespace CoinSpend

namespace PrivateKey

open Curve

variable (key : PrivateKey)

/-- **A signature of a digest is low, and can be verified.** Its second scalar is in the lower
half; the first one keeps its top bit clear if it does in one of the tries, and then the
signature takes at most 71 bytes with its mark. The point of the key verifies it, unless no
nonce was found. -/
theorem signDigest_low (digest : Bytes) :
    (key.signDigest digest).s.val ≤ order / 2 ∧
      ((∃ c ≤ 1024, (Ecdsa.sign key.secret.scalar digest (Ecdsa.extraInput c)).r.val
          < Ecdsa.lowBound) →
        (key.signDigest digest).r.val < Ecdsa.lowBound ∧
        (markedSignature (key.signDigest digest)).length ≤ 71) ∧
      ((key.signDigest digest).r.val ≠ 0 →
        Ecdsa.Verifies (key.secret.scalar • generator) (Bytes.toNatBE digest)
          (key.signDigest digest)) := by
  rw [signDigest]
  obtain ⟨hlow, hlowR, hverifies⟩ := Ecdsa.signLowR_low key.secret.scalar digest
  refine ⟨hlow, fun htry => ?_, hverifies⟩
  have hbound : order / 2 < Ecdsa.lowBound := by decide
  refine ⟨hlowR htry, ?_⟩
  rw [markedSignature, List.length_append]
  exact Nat.add_le_add_right
    (Der.length_encode_le_of_low (hlowR htry) (Nat.lt_of_le_of_lt hlow hbound)) 1

/-- The secret of the output key belongs to the output key that commits to no scripts. -/
lemma commit_xOnly (h : key.commitScalar ≠ 0) :
    key.xOnly.commit none =
      ⟨.ofNat (mulBase key.commitScalar).x, (mulBase key.commitScalar).isOdd⟩ := by
  obtain ⟨lifted, hlifted, hstands⟩ :=
    Schnorr.exists_lift_mulBase key.secret.pos key.secret.lt_order
  have htweak : Taproot.tweak key.xOnly none < 2 ^ 256 := by
    have hlt := Bytes.toNatBE_lt (taggedHash "TapTweak" (key.xOnly.bytes ++ []))
    rw [length_taggedHash] at hlt
    exact Nat.lt_of_lt_of_le hlt (by decide)
  have hmoved := (stands_mul stands_base htweak).add hstands
  have hscalar : Taproot.tweak key.xOnly none • generator
      + Schnorr.evenScalar key.secret.scalar (mulBase key.secret.scalar) • generator
        = key.commitScalar • generator := by
    rw [← add_nsmul, add_comm]
    exact (nsmul_generator_congr (ZMod.natCast_mod _ order)).symm
  obtain ⟨x, y, hxy, hpoint, hmul⟩ :=
    exists_mulBase (Nat.pos_of_ne_zero h) (Nat.mod_lt _ order_pos)
  rw [hscalar, hpoint] at hmoved
  have hlift : lift? (Bytes.toNatBE key.xOnly.bytes) false = some lifted := hlifted
  rw [XOnlyKey.commit, hlift, Option.getD_some, hmoved.toPoint, hmul]

/-- **A signature along the key path** can be verified by the output key. -/
theorem verifies_keyPath {digest : Bytes} (h : key.commitScalar ≠ 0)
    (hnonce : Schnorr.nonce (Schnorr.evenScalar key.commitScalar (mulBase key.commitScalar))
      (key.xOnly.commit none).key.bytes digest ≠ 0) :
    Schnorr.Verifies (key.xOnly.commit none).key.bytes digest
      (Schnorr.sign key.commitScalar digest) := by
  rw [key.commit_xOnly h] at hnonce ⊢
  exact Schnorr.verifies_sign (Nat.pos_of_ne_zero h) (Nat.mod_lt _ order_pos) hnonce

/-- **A signature along a script** can be verified by the key itself. -/
theorem verifies_scriptPath {digest : Bytes}
    (hnonce : Schnorr.nonce (Schnorr.evenScalar key.secret.scalar key.point) key.xOnly.bytes
      digest ≠ 0) :
    Schnorr.Verifies key.xOnly.bytes digest (Schnorr.sign key.secret.scalar digest) :=
  Schnorr.verifies_sign key.secret.pos key.secret.lt_order hnonce

end PrivateKey

end CoinSpend
