import CoinSpend.Curve.Ecdsa
import CoinSpend.Proofs.Hash.Sha256

/-!
Signatures with the first candidate nonce.

* `Sha256.keyedDigest`: the keyed digest in numbers. `Ecdsa.firstNonce`: the first
  candidate nonce that is drawn from a seed, made with it.
* `Ecdsa.firstTry?`: the signature with this nonce, if the nonce is fit and the first
  scalar low. `Ecdsa.signLowR_of_firstTry`: it is the signature of the digest.
-/

namespace CoinSpend

/-- The keyed digest in numbers. -/
def Sha256.keyedDigest (key message : Bytes) : Bytes :=
  let block := key ++ List.replicate (64 - key.length) 0
  digest (block.map (· ^^^ 0x5c) ++ digest (block.map (· ^^^ 0x36) ++ message))

/-- The keyed digest is the one that is made with numbers. -/
lemma hmacSha256_eq_keyedDigest (key message : Bytes) :
    hmacSha256 key message = Sha256.keyedDigest key message := by
  simp only [hmacSha256, Sha256.keyedDigest, sha256_eq_digest]

namespace Ecdsa

open Sha256 (keyedDigest)

/-- The first candidate nonce that is drawn from a seed. -/
def firstNonce (seed : Bytes) : ℕ :=
  let v₀ := List.replicate 32 1
  let k₁ := keyedDigest (List.replicate 32 0) (v₀ ++ 0 :: seed)
  let v₁ := keyedDigest k₁ v₀
  let k₂ := keyedDigest k₁ (v₁ ++ 1 :: seed)
  Bytes.toNatBE (keyedDigest k₂ (keyedDigest k₂ v₁))

lemma toNatBE_head_ofSeed (seed : Bytes) :
    Bytes.toNatBE (Stream.ofSeed seed).head = firstNonce seed := by
  simp only [Stream.head, Stream.ofSeed, firstNonce, hmacSha256_eq_keyedDigest]

/-- The signature with the first candidate nonce, if the nonce is fit and the first scalar
is low. -/
def firstTry? (secret : ℕ) (digest : Bytes) : Option Signature :=
  (withNonce? secret (Bytes.toNatBE digest % Curve.order)
    (firstNonce (Bytes.ofNatBE 32 secret ++ digest))).filter fun signature =>
      signature.r.val < lowBound

/-- Where it is fit and low, nothing else is tried. -/
lemma signLowR_of_firstTry {secret : ℕ} {digest : Bytes} {signature : Signature}
    (h : firstTry? secret digest = some signature) : signLowR secret digest = signature := by
  obtain ⟨hfit, hlow⟩ := Option.filter_eq_some_iff.mp h
  have hsign : sign secret digest (extraInput 0) = signature := by
    rw [extraInput, if_pos rfl, sign, List.append_nil, search, toNatBE_head_ofSeed, hfit,
      Option.getD_some]
  rw [signLowR, lowRFrom, hsign]
  exact if_pos (by simpa using hlow)

end Ecdsa

end CoinSpend
