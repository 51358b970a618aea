import CoinSpend.Hash.Sha256

/-!
RIPEMD-160, and the 20-byte hash of keys and scripts made with it.

* `Ripemd160.hash`: the digest, from two lines of 80 steps for each block.
* `hash160`: RIPEMD-160 of SHA-256; `length_hash160`: it has 20 bytes.
-/

namespace CoinSpend

namespace Ripemd160

/-- The five words that are carried from block to block. -/
structure State where
  a : UInt32
  b : UInt32
  c : UInt32
  d : UInt32
  e : UInt32

/-- The words before the first block. -/
def initial : State :=
  ⟨0x67452301, 0xefcdab89, 0x98badcfe, 0x10325476, 0xc3d2e1f0⟩

/-- The message word that each step of the left line takes. -/
def leftOrder : List Nat :=
  [0, 1, 2, 3, 4, 5, 6, 7, 8, 9, 10, 11, 12, 13, 14, 15,
   7, 4, 13, 1, 10, 6, 15, 3, 12, 0, 9, 5, 2, 14, 11, 8,
   3, 10, 14, 4, 9, 15, 8, 1, 2, 7, 0, 6, 13, 11, 5, 12,
   1, 9, 11, 10, 0, 8, 12, 4, 13, 3, 7, 15, 14, 5, 6, 2,
   4, 0, 5, 9, 7, 12, 2, 10, 14, 1, 3, 8, 11, 6, 15, 13]

/-- The message word that each step of the right line takes. -/
def rightOrder : List Nat :=
  [5, 14, 7, 0, 9, 2, 11, 4, 13, 6, 15, 8, 1, 10, 3, 12,
   6, 11, 3, 7, 0, 13, 5, 10, 14, 15, 8, 12, 4, 9, 1, 2,
   15, 5, 1, 3, 7, 14, 6, 9, 11, 8, 12, 2, 10, 0, 4, 13,
   8, 6, 4, 1, 3, 11, 15, 0, 5, 12, 2, 13, 9, 7, 10, 14,
   12, 15, 10, 4, 1, 5, 8, 7, 6, 2, 13, 14, 0, 3, 9, 11]

/-- The rotation of each step of the left line. -/
def leftShift : List UInt32 :=
  [11, 14, 15, 12, 5, 8, 7, 9, 11, 13, 14, 15, 6, 7, 9, 8,
   7, 6, 8, 13, 11, 9, 7, 15, 7, 12, 15, 9, 11, 7, 13, 12,
   11, 13, 6, 7, 14, 9, 13, 15, 14, 8, 13, 6, 5, 12, 7, 5,
   11, 12, 14, 15, 14, 15, 9, 8, 9, 14, 5, 6, 8, 6, 5, 12,
   9, 15, 5, 11, 6, 8, 13, 12, 5, 12, 13, 14, 11, 8, 5, 6]

/-- The rotation of each step of the right line. -/
def rightShift : List UInt32 :=
  [8, 9, 9, 11, 13, 15, 15, 5, 7, 7, 8, 11, 14, 14, 12, 6,
   9, 13, 15, 7, 12, 8, 9, 11, 7, 7, 12, 7, 6, 15, 13, 11,
   9, 7, 15, 11, 8, 6, 6, 14, 12, 13, 5, 14, 13, 13, 7, 5,
   15, 5, 8, 11, 14, 14, 6, 14, 6, 9, 12, 9, 12, 5, 15, 8,
   8, 5, 12, 9, 12, 5, 14, 6, 8, 13, 6, 5, 15, 13, 11, 11]

/-- The constant of each sixteen steps of the left line. -/
def leftConstant : List UInt32 :=
  [0x00000000, 0x5a827999, 0x6ed9eba1, 0x8f1bbcdc, 0xa953fd4e]

/-- The constant of each sixteen steps of the right line. -/
def rightConstant : List UInt32 :=
  [0x50a28be6, 0x5c4dd124, 0x6d703ef3, 0x7a6d76e9, 0x00000000]

/-- Rotation of a word to the left. -/
def rotl (x n : UInt32) : UInt32 :=
  (x <<< n) ||| (x >>> (32 - n))

/-- The mixing function of the `i`-th sixteen steps of the left line. -/
def mix (i : Nat) (x y z : UInt32) : UInt32 :=
  match i with
  | 0 => x ^^^ y ^^^ z
  | 1 => (x &&& y) ||| ((x ^^^ 0xffffffff) &&& z)
  | 2 => (x ||| (y ^^^ 0xffffffff)) ^^^ z
  | 3 => (x &&& z) ||| (y &&& (z ^^^ 0xffffffff))
  | _ => x ^^^ (y ||| (z ^^^ 0xffffffff))

/-- One step, with the mixing function's index, the message word, the
constant and the rotation. -/
def State.step (s : State) (i : Nat) (x k shift : UInt32) : State :=
  let t := rotl (s.a + mix i s.b s.c s.d + x + k) shift + s.e
  ⟨s.e, t, s.b, rotl s.c 10, s.d⟩

/-- The words of a byte string, the least significant byte of each first. -/
def words : Bytes → List UInt32
  | b₀ :: b₁ :: b₂ :: b₃ :: rest =>
    (b₀.toUInt32 ||| (b₁.toUInt32 <<< 8) ||| (b₂.toUInt32 <<< 16) ||| (b₃.toUInt32 <<< 24))
      :: words rest
  | _ => []

/-- Takes one 64-byte block in. -/
def State.compress (s : State) (block : Bytes) : State :=
  let x := (words block).toArray
  let left := (leftOrder.zip leftShift).zipIdx.foldl
    (fun t ((w, shift), j) => t.step (j / 16) (x.getD w 0) (leftConstant.getD (j / 16) 0) shift) s
  let right := (rightOrder.zip rightShift).zipIdx.foldl
    (fun t ((w, shift), j) =>
      t.step (4 - j / 16) (x.getD w 0) (rightConstant.getD (j / 16) 0) shift) s
  ⟨s.b + left.c + right.d, s.c + left.d + right.e, s.d + left.e + right.a,
    s.e + left.a + right.b, s.a + left.b + right.c⟩

/-- Takes `n` blocks in, one after the other. -/
def State.absorb (s : State) : Nat → Bytes → State
  | 0, _ => s
  | n + 1, message => (s.compress (message.take 64)).absorb n (message.drop 64)

/-- The digest that a state stands for. -/
def State.bytes (s : State) : Bytes :=
  [s.a, s.b, s.c, s.d, s.e].flatMap fun w => Bytes.ofNatLE 4 w.toNat

/-- The message with the closing bit, zeros and its length in bits, a whole
number of blocks. -/
def pad (message : Bytes) : Bytes :=
  let n := message.length
  message ++ 0x80 :: (List.replicate ((119 - n % 64) % 64) 0 ++ Bytes.ofNatLE 8 (8 * n))

/-- The digest of a message. -/
def hash (message : Bytes) : Bytes :=
  let padded := pad message
  (initial.absorb (padded.length / 64) padded).bytes

@[simp] theorem length_hash (message : Bytes) : (hash message).length = 20 := by
  simp [hash, State.bytes]

end Ripemd160

/-- The 20-byte hash of keys and scripts. -/
def hash160 (message : Bytes) : Bytes :=
  Ripemd160.hash (sha256 message)

@[simp] theorem length_hash160 (message : Bytes) : (hash160 message).length = 20 :=
  Ripemd160.length_hash _

end CoinSpend
