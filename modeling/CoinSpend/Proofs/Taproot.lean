import CoinSpend.Bytes.Lemmas
import CoinSpend.Proofs.Curve.Group
import CoinSpend.Script.Basic
import CoinSpend.Taproot

/-!
How a written proof opens an output for a script.

* `XOnlyKey.Lifts`: there is a point over a key. `PrivateKey.lifts_xOnly`: so it is with
  the key of every secret.
* `Taproot.movedPoint?`: the point over a key, moved by a multiple of the base point.
* `Taproot.Opens`: the proof is read off its bytes; the script and the path make a
  root, and the point over the internal key is moved by the digest of this key and the
  root. There has to be one, and the moved point has to be that of the output, with the
  parity of the proof.
* `ControlBlock.decode?_encode_single`: the written proof for a lone script is
  read back.
* `Taproot.opens_single`: it opens the output that commits to the script.
-/

namespace CoinSpend

/-- There is a point over the key. -/
def XOnlyKey.Lifts (key : XOnlyKey) : Prop :=
  ∃ point, Curve.lift? (Bytes.toNatBE key.bytes) false = some point

/-- The key of a secret is the first coordinate of a point of the curve. -/
lemma PrivateKey.lifts_xOnly (key : PrivateKey) : key.xOnly.Lifts := by
  obtain ⟨x, y, hxy, -, hpoint⟩ := Curve.exists_mulBase key.secret.pos key.secret.lt_order
  obtain ⟨point, hlift, -⟩ := Curve.exists_lift? (Curve.nonsingular_iff.mp hxy) false
  have hx : x.val < 256 ^ 32 := Nat.lt_trans (ZMod.val_lt x) (by decide)
  refine ⟨point, ?_⟩
  rw [xOnly, PrivateKey.point, hpoint, XOnlyKey.ofNat, Bytes.toNatBE_ofNatBE hx, hlift]

namespace Taproot

/-- The digest of two neighbours in a tree, the smaller one first. -/
def branchHash (a b : Bytes) : Bytes :=
  taggedHash "TapBranch" (if a ≤ b then a ++ b else b ++ a)

/-- The point with even second coordinate over a key, moved by `n` times the base point.
There is none if the key is the first coordinate of no point. -/
def movedPoint? (key : XOnlyKey) (n : Nat) : Option Curve.Point :=
  (Curve.lift? (Bytes.toNatBE key.bytes) false).map fun lifted =>
    ((Curve.base.mul n).add lifted).toPoint

/-- A written proof opens an output locked by `lock` for a script. A digest of key and root
that is not below the order, of which no example is known, is taken like all others. -/
def Opens (proof : Bytes) (script lock : Script) : Prop :=
  ∃ block root point, ControlBlock.decode? proof = some block ∧
    block.head &&& 0xfe = leafVersion ∧
    root = block.path.foldl branchHash
      (taggedHash "TapLeaf" ((block.head &&& 0xfe) :: sized script)) ∧
    movedPoint? block.internalKey
      (Bytes.toNatBE (taggedHash "TapTweak" (block.internalKey.bytes ++ root))) = some point ∧
    lock = Script.p2tr (Bytes.ofNatBE 32 point.x) ∧ (block.head &&& 1 = 1 ↔ point.isOdd)

/-- The output key of a key and a root is the moved point. -/
lemma exists_movedPoint {key : XOnlyKey} (h : key.Lifts) (root : Bytes) :
    ∃ point, movedPoint? key (tweak key (some root)) = some point ∧
      key.commit (some root) = ⟨.ofNat point.x, point.isOdd⟩ := by
  obtain ⟨lifted, hlifted⟩ := h
  refine ⟨_, by rw [movedPoint?, hlifted, Option.map_some], ?_⟩
  rw [XOnlyKey.commit, hlifted, Option.getD_some]

end Taproot

namespace ControlBlock

/-- Version and parity are told apart in the first byte. -/
lemma head_single (key : XOnlyKey) (output : OutputKey) :
    (single key output).head &&& 0xfe = Taproot.leafVersion ∧
      ((single key output).head &&& 1 = 1 ↔ output.odd) := by
  simp only [single, Taproot.leafVersion]
  cases output.odd <;> decide

lemma encode_single (key : XOnlyKey) (output : OutputKey) :
    (single key output).encode = (single key output).head :: key.bytes := by
  simp [encode, single]

/-- The written proof for a lone script has 33 bytes. -/
lemma length_encode_single (key : XOnlyKey) (output : OutputKey) :
    (single key output).encode.length = 33 := by
  simp [encode_single, key.length_eq]

/-- The written proof for a lone script is read back. -/
lemma decode?_encode_single (key : XOnlyKey) (output : OutputKey) :
    decode? (single key output).encode = some (single key output) := by
  have htake : key.bytes.take 32 = key.bytes := List.take_of_length_le (Nat.le_of_eq key.length_eq)
  have hdrop : key.bytes.drop 32 = [] := List.drop_of_length_le (Nat.le_of_eq key.length_eq)
  simp [encode_single, decode?, htake, hdrop, key.length_eq, pieces]
  rfl

end ControlBlock

/-- The proof for a lone script opens the output that commits to it. -/
lemma Taproot.opens_single {key : XOnlyKey} (h : key.Lifts) (script : Script) :
    Opens (ControlBlock.single key (key.commit (some (leafHash script)))).encode script
      (Script.p2tr (key.commit (some (leafHash script))).key.bytes) := by
  obtain ⟨hversion, hparity⟩ :=
    ControlBlock.head_single key (key.commit (some (leafHash script)))
  obtain ⟨point, hpoint, hcommit⟩ := exists_movedPoint h (leafHash script)
  refine ⟨_, _, point, ControlBlock.decode?_encode_single key _, hversion, rfl, ?_, ?_, ?_⟩
  · rw [hversion]
    exact hpoint
  · rw [hcommit]
    rfl
  · rw [hparity, hcommit]

end CoinSpend
