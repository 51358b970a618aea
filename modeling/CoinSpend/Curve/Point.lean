import CoinSpend.Bytes
import CoinSpend.Curve.Field

/-!
Points of the curve `y² = x³ + 7` and their multiples.

* `Curve.Point`: a point by its two coordinates.
* `Curve.Projective`: the same with a common denominator, in which doubling
  and addition need no inverse; a zero denominator is the neutral element.
* `Curve.Point.mul`, `Curve.mulBase`: multiples of a point and of the base
  point. The neutral element, which no secret scalar reaches, becomes the
  point with two zero coordinates.
* `Curve.lift?`: the point over an `x` coordinate with a given parity.
-/

namespace CoinSpend

namespace Curve

/-- A point by its coordinates. -/
structure Point where
  x : Nat
  y : Nat
  deriving Repr, DecidableEq

/-- The base point. -/
def base : Point where
  x := 0x79be667ef9dcbbac55a06295ce870b07029bfcdb2dce28d959f2815b16f81798
  y := 0x483ada7726a3c4655da4fbfc0e1108a8fd17b448a68554199c47d08ffb10d4b8

/-- The right side of the curve equation. -/
def rhs (x : Nat) : Nat :=
  (x * x % fieldPrime * x + 7) % fieldPrime

/-- The point has reduced coordinates and satisfies the curve equation. -/
def Point.onCurve (p : Point) : Bool :=
  p.x < fieldPrime && p.y < fieldPrime && p.y * p.y % fieldPrime == rhs p.x

/-- The second coordinate is odd. -/
def Point.isOdd (p : Point) : Bool :=
  p.y % 2 == 1

/-- The point over `x` whose second coordinate is odd as told. -/
def lift? (x : Nat) (odd : Bool) : Option Point :=
  if x < fieldPrime then
    (sqrt? (rhs x)).map fun y =>
      ⟨x, if (y % 2 == 1) == odd then y else fieldPrime - y⟩
  else none

/-- A point `(x / z², y / z³)`. -/
structure Projective where
  x : Nat
  y : Nat
  z : Nat

/-- The neutral element. -/
def Projective.zero : Projective := ⟨1, 1, 0⟩

/-- The point itself, with denominator one. -/
def Point.toProjective (p : Point) : Projective := ⟨p.x, p.y, 1⟩

/-- Twice a point. -/
def Projective.double (p : Projective) : Projective :=
  if p.z = 0 ∨ p.y = 0 then .zero
  else
    let a := p.x * p.x % fieldPrime
    let b := p.y * p.y % fieldPrime
    let c := b * b % fieldPrime
    let d := 4 * p.x * b % fieldPrime
    let e := 3 * a % fieldPrime
    let x := subMod (e * e % fieldPrime) (2 * d % fieldPrime)
    let y := subMod (e * subMod d x % fieldPrime) (8 * c % fieldPrime)
    ⟨x, y, 2 * p.y * p.z % fieldPrime⟩

/-- The sum with a point of denominator one. -/
def Projective.add (p : Projective) (q : Point) : Projective :=
  if p.z = 0 then q.toProjective
  else
    let zz := p.z * p.z % fieldPrime
    let u := q.x * zz % fieldPrime
    let s := q.y * (zz * p.z % fieldPrime) % fieldPrime
    if u = p.x then
      if s = p.y then p.double else .zero
    else
      let h := subMod u p.x
      let r := subMod s p.y
      let hh := h * h % fieldPrime
      let hhh := hh * h % fieldPrime
      let v := p.x * hh % fieldPrime
      let x := subMod (subMod (r * r % fieldPrime) hhh) (2 * v % fieldPrime)
      let y := subMod (r * subMod v x % fieldPrime) (p.y * hhh % fieldPrime)
      ⟨x, y, p.z * h % fieldPrime⟩

/-- The coordinates of a point. -/
def Projective.toPoint (p : Projective) : Point :=
  if p.z = 0 then ⟨0, 0⟩
  else
    let w := invMod p.z fieldPrime
    let ww := w * w % fieldPrime
    ⟨p.x * ww % fieldPrime, p.y * (ww * w % fieldPrime) % fieldPrime⟩

/-- Double and add over the bits of `k` below `n`, the highest one first. -/
def mulLoop (p : Point) (k : Nat) : Nat → Projective → Projective
  | 0, acc => acc
  | n + 1, acc =>
    let twice := acc.double
    mulLoop p k n (if k.testBit n then twice.add p else twice)

/-- A multiple of a point, for factors below `2 ^ 256`. -/
def Point.mul (p : Point) (k : Nat) : Projective :=
  mulLoop p k 256 .zero

/-- A multiple of the base point. -/
def mulBase (k : Nat) : Point :=
  (base.mul k).toPoint

end Curve

end CoinSpend
