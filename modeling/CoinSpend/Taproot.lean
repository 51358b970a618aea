import CoinSpend.Key
import CoinSpend.Transaction.Encode

/-!
Output keys that commit to a tree of scripts.

* `Taproot.leafHash`, `Taproot.tweak`: the digest of a script as a leaf, and
  the number by which a key that commits to a root is moved.
* `XOnlyKey.commit`: the output key of an internal key and a root.
* `ControlBlock`: what shows, beside the script, that an output key commits to
  it.
* `PrivateKey.commitScalar`: the secret of the output key without scripts.
-/

namespace CoinSpend

namespace Taproot

/-- The version of the leaves that hold scripts. -/
def leafVersion : UInt8 :=
  0xc0

/-- The digest of a script as a leaf. -/
def leafHash (script : Script) : Bytes :=
  taggedHash "TapLeaf" (leafVersion :: sized script)

/-- The number by which a key is moved to commit to a root, or to no root. -/
def tweak (key : XOnlyKey) (root : Option Bytes) : Nat :=
  Bytes.toNatBE (taggedHash "TapTweak" (key.bytes ++ root.getD []))

end Taproot

/-- An output key and the parity of its second coordinate. -/
structure OutputKey where
  key : XOnlyKey
  odd : Bool
  deriving DecidableEq

/-- The output key of an internal key and a root. -/
def XOnlyKey.commit (key : XOnlyKey) (root : Option Bytes) : OutputKey :=
  let lifted := (Curve.lift? (Bytes.toNatBE key.bytes) false).getD ⟨0, 0⟩
  let point := ((Curve.base.mul (Taproot.tweak key root)).add lifted).toPoint
  ⟨.ofNat point.x, point.isOdd⟩

/-- The proof that an output key commits to a script. -/
structure ControlBlock where
  /-- The version of the leaf, with the parity of the output key in its lowest
  bit. -/
  head : UInt8
  internalKey : XOnlyKey
  /-- The digests of the neighbours on the way to the root. -/
  path : List Bytes
  deriving DecidableEq

namespace ControlBlock

/-- The block for the only leaf of a tree. -/
def single (internalKey : XOnlyKey) (output : OutputKey) : ControlBlock where
  head := Taproot.leafVersion ||| if output.odd then 1 else 0
  internalKey := internalKey
  path := []

/-- The written form. -/
def encode (block : ControlBlock) : Bytes :=
  block.head :: block.internalKey.bytes ++ block.path.flatten

/-- The byte string in `n` pieces of 32 bytes. -/
def pieces : Nat → Bytes → List Bytes
  | 0, _ => []
  | n + 1, b => b.take 32 :: pieces n (b.drop 32)

/-- The block with a written form. A path has at most 128 steps. -/
def decode? : Bytes → Option ControlBlock
  | [] => none
  | head :: rest =>
    if h : (rest.take 32).length = 32 then
      let path := rest.drop 32
      if path.length % 32 = 0 ∧ path.length / 32 ≤ 128 then
        some ⟨head, ⟨rest.take 32, h⟩, pieces (path.length / 32) path⟩
      else none
    else none

end ControlBlock

/-- The secret of the output key that commits to no scripts. -/
def PrivateKey.commitScalar (key : PrivateKey) : Nat :=
  let point := key.point
  let even := if point.isOdd then Curve.order - key.secret.scalar else key.secret.scalar
  (even + Taproot.tweak (.ofNat point.x) none) % Curve.order

end CoinSpend
