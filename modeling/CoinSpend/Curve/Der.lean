import CoinSpend.Curve.Ecdsa

/-!
The DER form of ECDSA signatures.

* `Der.encode`: a sequence of two integers, each in the fewest bytes that
  keep its top bit clear.
* `Der.decode?`: lengths have to be exact and in their shortest form, and
  integers have to be minimal. An integer that is negative, longer than 32
  bytes or not below the order is accepted and read as zero.
-/

namespace CoinSpend

namespace Der

open Ecdsa (Signature)

/-- The bytes of a number without leading zero bytes. -/
def magnitude (n : Nat) : Bytes :=
  (Bytes.ofNatBE 32 n).dropWhile (· == 0)

/-- The content of an integer: a zero byte goes in front of a top bit, and
stands for zero. -/
def integerContent (n : Nat) : Bytes :=
  match magnitude n with
  | [] => [0]
  | b :: rest => if 0x80 ≤ b then 0 :: b :: rest else b :: rest

/-- A tag, a short length and the content. -/
def element (tag : UInt8) (content : Bytes) : Bytes :=
  tag :: UInt8.ofNat content.length :: content

/-- The DER form of a signature. -/
def encode (signature : Signature) : Bytes :=
  element 0x30
    (element 0x02 (integerContent signature.r.val) ++
      element 0x02 (integerContent signature.s.val))

/-- Reads a length, short or long, and leaves the rest. -/
def readLength? : Bytes → Option (Nat × Bytes)
  | [] => none
  | b :: rest =>
    if b < 0x80 then some (b.toNat, rest)
    else
      let width := b.toNat - 0x80
      if b = 0x80 ∨ b = 0xff ∨ rest.length < width ∨ rest.head? = some 0 ∨ 8 < width then none
      else
        let n := Bytes.toNatBE (rest.take width)
        let tail := rest.drop width
        if tail.length < n ∨ n < 128 then none else some (n, tail)

/-- The content is in its shortest form. -/
def isMinimal : Bytes → Bool
  | [] => false
  | [_] => true
  | a :: b :: _ => !(a == 0 && b < 0x80) && !(a == 0xff && 0x80 ≤ b)

/-- The number of a minimal content, zero where it is no scalar. -/
def scalarOf (content : Bytes) : Curve.Scalar :=
  let n := Bytes.toNatBE content
  .ofNat (if content.headD 0 < 0x80 ∧ n < Curve.order then n else 0)

/-- Reads an integer and leaves the rest. -/
def readInteger? : Bytes → Option (Curve.Scalar × Bytes)
  | 0x02 :: rest => do
    let (n, rest) ← readLength? rest
    let content := rest.take n
    if rest.length < n ∨ !isMinimal content then none
    else some (scalarOf content, rest.drop n)
  | _ => none

/-- Reads a signature that takes the whole byte string. -/
def decode? : Bytes → Option Signature
  | 0x30 :: rest => do
    let (n, rest) ← readLength? rest
    if n ≠ rest.length then none
    else
      let (r, rest) ← readInteger? rest
      let (s, rest) ← readInteger? rest
      if rest.isEmpty then some ⟨r, s⟩ else none
  | _ => none

end Der

end CoinSpend
