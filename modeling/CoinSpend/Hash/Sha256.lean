import CoinSpend.Bytes

/-!
SHA-256 and the digests made from it.

* `Sha256.hash`: the 32-byte digest, from a fold of `Sha256.State.compress`
  over the 64-byte blocks of the padded message.
* `doubleSha256`, `taggedHash`, `hmacSha256`: two rounds of the digest, the
  digest under a tag, and the keyed digest.
* `length_sha256`, `length_doubleSha256`, `length_taggedHash`,
  `length_hmacSha256`: all of them have 32 bytes.
-/

namespace CoinSpend

namespace Sha256

/-- The eight words that are carried from block to block. -/
structure State where
  a : UInt32
  b : UInt32
  c : UInt32
  d : UInt32
  e : UInt32
  f : UInt32
  g : UInt32
  h : UInt32

/-- The words before the first block. -/
def initial : State :=
  ⟨0x6a09e667, 0xbb67ae85, 0x3c6ef372, 0xa54ff53a, 0x510e527f, 0x9b05688c, 0x1f83d9ab, 0x5be0cd19⟩

/-- The constant of each of the 64 rounds. -/
def roundConstants : List UInt32 :=
  [0x428a2f98, 0x71374491, 0xb5c0fbcf, 0xe9b5dba5, 0x3956c25b, 0x59f111f1, 0x923f82a4, 0xab1c5ed5,
   0xd807aa98, 0x12835b01, 0x243185be, 0x550c7dc3, 0x72be5d74, 0x80deb1fe, 0x9bdc06a7, 0xc19bf174,
   0xe49b69c1, 0xefbe4786, 0x0fc19dc6, 0x240ca1cc, 0x2de92c6f, 0x4a7484aa, 0x5cb0a9dc, 0x76f988da,
   0x983e5152, 0xa831c66d, 0xb00327c8, 0xbf597fc7, 0xc6e00bf3, 0xd5a79147, 0x06ca6351, 0x14292967,
   0x27b70a85, 0x2e1b2138, 0x4d2c6dfc, 0x53380d13, 0x650a7354, 0x766a0abb, 0x81c2c92e, 0x92722c85,
   0xa2bfe8a1, 0xa81a664b, 0xc24b8b70, 0xc76c51a3, 0xd192e819, 0xd6990624, 0xf40e3585, 0x106aa070,
   0x19a4c116, 0x1e376c08, 0x2748774c, 0x34b0bcb5, 0x391c0cb3, 0x4ed8aa4a, 0x5b9cca4f, 0x682e6ff3,
   0x748f82ee, 0x78a5636f, 0x84c87814, 0x8cc70208, 0x90befffa, 0xa4506ceb, 0xbef9a3f7, 0xc67178f2]

/-- Rotation of a word to the right. -/
def rotr (x n : UInt32) : UInt32 :=
  (x >>> n) ||| (x <<< (32 - n))

/-- The words of a byte string, the most significant byte of each first. -/
def words : Bytes → List UInt32
  | b₀ :: b₁ :: b₂ :: b₃ :: rest =>
    ((b₀.toUInt32 <<< 24) ||| (b₁.toUInt32 <<< 16) ||| (b₂.toUInt32 <<< 8) ||| b₃.toUInt32)
      :: words rest
  | _ => []

/-- One more word of the message schedule `w`, whose next index is `w.size`. -/
def extendSchedule (w : Array UInt32) : Array UInt32 :=
  let n := w.size
  let x := w.getD (n - 15) 0
  let y := w.getD (n - 2) 0
  let s₀ := rotr x 7 ^^^ rotr x 18 ^^^ (x >>> 3)
  let s₁ := rotr y 17 ^^^ rotr y 19 ^^^ (y >>> 10)
  w.push (w.getD (n - 16) 0 + s₀ + w.getD (n - 7) 0 + s₁)

/-- The 64 words that one block feeds to the rounds. -/
def schedule (block : Bytes) : Array UInt32 :=
  (List.range 48).foldl (fun w _ => extendSchedule w) (words block).toArray

/-- One round, with its constant `k` and its schedule word `w`. -/
def State.round (s : State) (k w : UInt32) : State :=
  let s₁ := rotr s.e 6 ^^^ rotr s.e 11 ^^^ rotr s.e 25
  let ch := (s.e &&& s.f) ^^^ ((s.e ^^^ 0xffffffff) &&& s.g)
  let t₁ := s.h + s₁ + ch + k + w
  let s₀ := rotr s.a 2 ^^^ rotr s.a 13 ^^^ rotr s.a 22
  let maj := (s.a &&& s.b) ^^^ (s.a &&& s.c) ^^^ (s.b &&& s.c)
  ⟨t₁ + s₀ + maj, s.a, s.b, s.c, s.d + t₁, s.e, s.f, s.g⟩

/-- The wordwise sum of two states. -/
def State.add (s t : State) : State :=
  ⟨s.a + t.a, s.b + t.b, s.c + t.c, s.d + t.d, s.e + t.e, s.f + t.f, s.g + t.g, s.h + t.h⟩

/-- Takes one 64-byte block in. -/
def State.compress (s : State) (block : Bytes) : State :=
  let rounds := roundConstants.zip (schedule block).toList
  s.add (rounds.foldl (fun t (k, w) => t.round k w) s)

/-- Takes `n` blocks in, one after the other. -/
def State.absorb (s : State) : Nat → Bytes → State
  | 0, _ => s
  | n + 1, message => (s.compress (message.take 64)).absorb n (message.drop 64)

/-- The digest that a state stands for. -/
def State.bytes (s : State) : Bytes :=
  [s.a, s.b, s.c, s.d, s.e, s.f, s.g, s.h].flatMap fun w => Bytes.ofNatBE 4 w.toNat

/-- The message with the closing bit, zeros and its length in bits, a whole
number of blocks. -/
def pad (message : Bytes) : Bytes :=
  let n := message.length
  message ++ 0x80 :: (List.replicate ((119 - n % 64) % 64) 0 ++ Bytes.ofNatBE 8 (8 * n))

/-- The digest of a message. -/
def hash (message : Bytes) : Bytes :=
  let padded := pad message
  (initial.absorb (padded.length / 64) padded).bytes

end Sha256

/-- The SHA-256 digest. -/
def sha256 (message : Bytes) : Bytes :=
  Sha256.hash message

@[simp] theorem length_sha256 (message : Bytes) : (sha256 message).length = 32 := by
  simp [sha256, Sha256.hash, Sha256.State.bytes]

/-- The SHA-256 digest of the SHA-256 digest. -/
def doubleSha256 (message : Bytes) : Bytes :=
  sha256 (sha256 message)

@[simp] theorem length_doubleSha256 (message : Bytes) : (doubleSha256 message).length = 32 :=
  length_sha256 _

/-- The digest under a tag, whose own digest goes in front twice. -/
def taggedHash (tag : String) (message : Bytes) : Bytes :=
  let mark := sha256 tag.toUTF8.data.toList
  sha256 (mark ++ mark ++ message)

@[simp] theorem length_taggedHash (tag : String) (message : Bytes) :
    (taggedHash tag message).length = 32 :=
  length_sha256 _

/-- The keyed digest, for keys of at most 64 bytes. -/
def hmacSha256 (key message : Bytes) : Bytes :=
  let block := key ++ List.replicate (64 - key.length) 0
  sha256 (block.map (· ^^^ 0x5c) ++ sha256 (block.map (· ^^^ 0x36) ++ message))

@[simp] theorem length_hmacSha256 (key message : Bytes) : (hmacSha256 key message).length = 32 :=
  length_sha256 _

end CoinSpend
