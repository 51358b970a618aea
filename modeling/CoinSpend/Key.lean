import CoinSpend.Curve.Point
import CoinSpend.Error
import CoinSpend.Hash.Ripemd160

/-!
Private and public keys.

* `SecretKey`: a scalar between zero and the order, by its type.
* `PrivateKey`: a secret with the form of its public key and the kind of
  network it belongs to; `PrivateKey.publicKey` and `PrivateKey.xOnly` are what
  belongs to it.
* `PublicKey`: a point with the form in which it is written;
  `PublicKey.ofBytes` reads both forms and `PublicKey.ofHex` reads text.
* `XOnlyKey`: the 32 bytes of the first coordinate of a point.
-/

namespace CoinSpend

/-- A secret scalar. -/
structure SecretKey where
  scalar : Nat
  pos : 0 < scalar
  lt_order : scalar < Curve.order
  deriving DecidableEq

namespace SecretKey

/-- The secret written in 32 bytes, if it is one. -/
def ofBytes? (b : Bytes) : Option SecretKey :=
  let n := Bytes.toNatBE b
  if h : 0 < n ∧ n < Curve.order then some ⟨n, h.1, h.2⟩ else none

/-- The 32 bytes of a secret. -/
def bytes (secret : SecretKey) : Bytes :=
  Bytes.ofNatBE 32 secret.scalar

end SecretKey

/-- The first coordinate of a point, in 32 bytes. -/
structure XOnlyKey where
  bytes : Bytes
  length_eq : bytes.length = 32

/-- Two keys are equal if their bytes are. -/
instance : DecidableEq XOnlyKey := fun
  | ⟨a, _⟩, ⟨b, _⟩ => decidable_of_iff (a = b) (by simp)

/-- The key with this first coordinate. -/
def XOnlyKey.ofNat (x : Nat) : XOnlyKey :=
  ⟨Bytes.ofNatBE 32 x, Bytes.length_ofNatBE 32 x⟩

/-- A point, and whether it is written in the short form. -/
structure PublicKey where
  point : Curve.Point
  compressed : Bool
  deriving DecidableEq

namespace PublicKey

/-- The short form: a mark with the parity and the first coordinate. -/
def shortBytes (key : PublicKey) : Bytes :=
  (if key.point.isOdd then 3 else 2) :: Bytes.ofNatBE 32 key.point.x

/-- The long form: a mark and both coordinates. -/
def longBytes (key : PublicKey) : Bytes :=
  4 :: (Bytes.ofNatBE 32 key.point.x ++ Bytes.ofNatBE 32 key.point.y)

@[simp] theorem length_shortBytes (key : PublicKey) : key.shortBytes.length = 33 := by
  simp [shortBytes]

@[simp] theorem length_longBytes (key : PublicKey) : key.longBytes.length = 65 := by
  simp [longBytes]

/-- The form in which the key is written. -/
def bytes (key : PublicKey) : Bytes :=
  if key.compressed then key.shortBytes else key.longBytes

theorem length_bytes_le (key : PublicKey) : key.bytes.length ≤ 65 := by
  rw [bytes]
  split <;> simp

/-- The hash of the written form. -/
def hash (key : PublicKey) : Bytes :=
  hash160 key.bytes

/-- The text of the written form. -/
def text (key : PublicKey) : String :=
  Hex.encode key.bytes

/-- The point of a short form. -/
def ofShort? : Bytes → Option Curve.Point
  | mark :: x =>
    if mark = 2 ∨ mark = 3 then Curve.lift? (Bytes.toNatBE x) (mark == 3) else none
  | [] => none

/-- The point of the two coordinates of a long form. -/
def ofCoordinates? (b : Bytes) : Option Curve.Point :=
  let point : Curve.Point := ⟨Bytes.toNatBE (b.take 32), Bytes.toNatBE (b.drop 32)⟩
  if point.onCurve then some point else none

/-- The key with a written form. -/
def ofBytes (b : Bytes) : Except PublicKeyFault PublicKey :=
  if b.length = 33 then
    match ofShort? b with
    | some point => .ok ⟨point, true⟩
    | none => .error .notAPoint
  else if b.length = 65 then
    if b.headD 0 = 4 then
      match ofCoordinates? (b.drop 1) with
      | some point => .ok ⟨point, false⟩
      | none => .error .notAPoint
    else .error (.mark (b.headD 0))
  else .error (.badLength b.length)

/-- The key that a hexadecimal text stands for. -/
def ofHex (text : String) : Except TxError PublicKey :=
  match Hex.decodeMarked text with
  | .error fault => .error (.invalidPublicKey (.hex fault))
  | .ok b =>
    match ofBytes b with
    | .error fault => .error (.invalidPublicKey fault)
    | .ok key => .ok key

end PublicKey

/-- A secret, the form of its public key, and the kind of network. -/
structure PrivateKey where
  secret : SecretKey
  compressed : Bool
  network : NetworkKind
  deriving DecidableEq

namespace PrivateKey

/-- The point of the key. -/
def point (key : PrivateKey) : Curve.Point :=
  Curve.mulBase key.secret.scalar

/-- The public key, in the form that the private key asks for. -/
def publicKey (key : PrivateKey) : PublicKey :=
  ⟨key.point, key.compressed⟩

/-- The public key by its first coordinate. -/
def xOnly (key : PrivateKey) : XOnlyKey :=
  .ofNat key.point.x

/-- The same secret with a public key in the short form. -/
def inShortForm (key : PrivateKey) : PrivateKey :=
  { key with compressed := true }

end PrivateKey

end CoinSpend
