import CoinSpend.Hash.Sha256
import CoinSpend.Curve.Point

/-!
ECDSA signatures with nonces derived from key and message.

* `Ecdsa.Signature`: two scalars, each below the order by its type.
* `Ecdsa.Stream`: the stream of candidate nonces drawn from a seed.
* `Ecdsa.sign`: one signature for each extra input to the seed, its second
  scalar in the lower half.
* `Ecdsa.signLowR`: the first of these whose first scalar is below `2 ^ 255`,
  with no extra input at first and then a counter.
-/

namespace CoinSpend

namespace Ecdsa

/-- A signature. -/
structure Signature where
  r : Curve.Scalar
  s : Curve.Scalar
  deriving DecidableEq

/-- The state from which candidate nonces are drawn. -/
structure Stream where
  key : Bytes
  value : Bytes

/-- The stream for a seed. -/
def Stream.ofSeed (seed : Bytes) : Stream :=
  let v₀ := List.replicate 32 1
  let k₁ := hmacSha256 (List.replicate 32 0) (v₀ ++ 0 :: seed)
  let v₁ := hmacSha256 k₁ v₀
  let k₂ := hmacSha256 k₁ (v₁ ++ 1 :: seed)
  ⟨k₂, hmacSha256 k₂ v₁⟩

/-- The candidate that is drawn next. -/
def Stream.head (stream : Stream) : Bytes :=
  hmacSha256 stream.key stream.value

/-- The stream after the next candidate was refused. -/
def Stream.tail (stream : Stream) : Stream :=
  let v := stream.head
  let k := hmacSha256 stream.key (v ++ [0])
  ⟨k, hmacSha256 k v⟩

/-- The signature by `secret` of `message` with the nonce `k`, if `k` is fit
for it. -/
def withNonce? (secret message k : Nat) : Option Signature :=
  if k = 0 ∨ Curve.order ≤ k then none
  else
    let r := (Curve.mulBase k).x % Curve.order
    let s := Curve.invMod k Curve.order * (message + r * secret) % Curve.order
    if r = 0 ∨ s = 0 then none
    else some ⟨.ofNat r,
      .ofNat (if Curve.order / 2 < s then Curve.order - s else s)⟩

/-- The signature with the first fit nonce among the next `n`. -/
def search (secret message : Nat) : Nat → Stream → Option Signature
  | 0, _ => none
  | n + 1, stream =>
    match withNonce? secret message (Bytes.toNatBE stream.head) with
    | some signature => some signature
    | none => search secret message n stream.tail

/-- The signature of a 32-byte digest by the scalar `secret`. The first
nonce is refused with a chance of about `2 ^ -128`, so that the bound on
the tries is never met. -/
def sign (secret : Nat) (digest extra : Bytes) : Signature :=
  let seed := Bytes.ofNatBE 32 secret ++ digest ++ extra
  (search secret (Bytes.toNatBE digest % Curve.order) 64 (.ofSeed seed)).getD ⟨.ofNat 0, .ofNat 0⟩

/-- The extra input of the try with this number: none at first. -/
def extraInput (counter : Nat) : Bytes :=
  if counter = 0 then [] else Bytes.ofNatLE 32 counter

/-- The numbers of 32 bytes below this bound keep their top bit clear. -/
def lowBound : Nat :=
  0x8000000000000000000000000000000000000000000000000000000000000000

/-- The first signature with a low `r` among `n + 1` tries from the number
`counter` on. -/
def lowRFrom (secret : Nat) (digest : Bytes) : Nat → Nat → Signature
  | 0, counter => sign secret digest (extraInput counter)
  | n + 1, counter =>
    let signature := sign secret digest (extraInput counter)
    if signature.r.val < lowBound then signature else lowRFrom secret digest n (counter + 1)

/-- The signature of a 32-byte digest whose `r` takes at most 32 bytes. Every
second try has one, so that the bound on the tries is never met. -/
def signLowR (secret : Nat) (digest : Bytes) : Signature :=
  lowRFrom secret digest 1024 0

end Ecdsa

end CoinSpend
