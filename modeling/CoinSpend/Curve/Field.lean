/-!
Arithmetic modulo the two primes of the curve: the prime of the coordinates
and the order of the group.

* `Curve.fieldPrime`, `Curve.order`: the two primes, and `Curve.Scalar`: the
  numbers below the order.
* `Curve.powMod`, `Curve.invMod`, `Curve.sqrt?`: powers, inverses by Fermat's
  theorem, and square roots of coordinates.
-/

namespace CoinSpend

namespace Curve

/-- The prime modulo which coordinates are taken. -/
def fieldPrime : Nat :=
  0xfffffffffffffffffffffffffffffffffffffffffffffffffffffffefffffc2f

/-- The number of points of the group. -/
def order : Nat :=
  0xfffffffffffffffffffffffffffffffebaaedce6af48a03bbfd25e8cd0364141

theorem order_pos : 0 < order := by decide

/-- A number below the order. -/
abbrev Scalar := Fin order

/-- The scalar that a number is modulo the order. -/
def Scalar.ofNat (n : Nat) : Scalar :=
  ⟨n % order, Nat.mod_lt n order_pos⟩

/-- Square and multiply over the bits of `exponent` below `n`, the highest
one first. -/
def powLoop (base exponent modulus : Nat) : Nat → Nat → Nat
  | 0, acc => acc
  | n + 1, acc =>
    let square := acc * acc % modulus
    powLoop base exponent modulus n
      (if exponent.testBit n then square * base % modulus else square)

/-- A power with an exponent below `2 ^ 256`. -/
def powMod (base exponent modulus : Nat) : Nat :=
  powLoop base exponent modulus 256 1

/-- The inverse modulo a prime. -/
def invMod (a prime : Nat) : Nat :=
  powMod a (prime - 2) prime

/-- The difference of two reduced coordinates. -/
def subMod (a b : Nat) : Nat :=
  (a + fieldPrime - b) % fieldPrime

/-- A square root of a coordinate, if it has one: the prime is three modulo
four, so that a power finds it. -/
def sqrt? (a : Nat) : Option Nat :=
  let root := powMod a ((fieldPrime + 1) / 4) fieldPrime
  if root * root % fieldPrime = a % fieldPrime then some root else none

end Curve

end CoinSpend
