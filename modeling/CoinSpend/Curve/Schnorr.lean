import CoinSpend.Hash.Sha256
import CoinSpend.Curve.Point

/-!
Schnorr signatures over the `x` coordinate of a key, with nonces derived
from key and message and 32 zero bytes in place of fresh randomness.

* `Schnorr.sign`: the signature of a digest; `Schnorr.length_sign`: it has 64
  bytes whatever the key and the digest.
-/

namespace CoinSpend

namespace Schnorr

/-- The scalar, or its negative, whose multiple of the base point has an even
second coordinate. -/
def evenScalar (scalar : Nat) (point : Curve.Point) : Nat :=
  if point.isOdd then Curve.order - scalar else scalar

/-- The nonce before its own parity is mended. -/
def nonce (secret : Nat) (publicX digest : Bytes) : Nat :=
  let mask := taggedHash "BIP0340/aux" (List.replicate 32 0)
  let masked := List.zipWith (· ^^^ ·) (Bytes.ofNatBE 32 secret) mask
  Bytes.toNatBE (taggedHash "BIP0340/nonce" (masked ++ publicX ++ digest)) % Curve.order

/-- The signature of a 32-byte digest by a secret scalar. -/
def sign (scalar : Nat) (digest : Bytes) : Bytes :=
  let point := Curve.mulBase scalar
  let publicX := Bytes.ofNatBE 32 point.x
  let secret := evenScalar scalar point
  let k₀ := nonce secret publicX digest
  let commitment := Curve.mulBase k₀
  let k := evenScalar k₀ commitment
  let commitmentX := Bytes.ofNatBE 32 commitment.x
  let challenge :=
    Bytes.toNatBE (taggedHash "BIP0340/challenge" (commitmentX ++ publicX ++ digest)) % Curve.order
  commitmentX ++ Bytes.ofNatBE 32 ((k + challenge * secret) % Curve.order)

@[simp] theorem length_sign (scalar : Nat) (digest : Bytes) : (sign scalar digest).length = 64 := by
  simp [sign]

end Schnorr

end CoinSpend
