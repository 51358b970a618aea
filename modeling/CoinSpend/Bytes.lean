/-!
Byte strings and the numbers written in them.

* `Bytes.ofNatLE` and `Bytes.ofNatBE` write the low bytes of a number in a
  fixed width, and `Bytes.toNatLE`, `Bytes.toNatBE` read a number back.
* `Bytes.ofNatLE_toNatLE`: every byte string is the writing of its number.
-/

namespace CoinSpend

/-- A byte string. -/
abbrev Bytes := List UInt8

namespace Bytes

/-- The `n` low bytes of `v`, the least significant one first. -/
def ofNatLE : Nat → Nat → Bytes
  | 0, _ => []
  | n + 1, v => UInt8.ofNat v :: ofNatLE n (v / 256)

/-- The `n` low bytes of `v`, the most significant one first. -/
def ofNatBE (n v : Nat) : Bytes :=
  (ofNatLE n v).reverse

/-- The number whose bytes these are, the least significant one first. -/
def toNatLE : Bytes → Nat
  | [] => 0
  | b :: rest => b.toNat + 256 * toNatLE rest

/-- The number whose bytes these are, the most significant one first. -/
def toNatBE (b : Bytes) : Nat :=
  toNatLE b.reverse

@[simp] theorem length_ofNatLE (n v : Nat) : (ofNatLE n v).length = n := by
  induction n generalizing v with
  | zero => rfl
  | succ n ih => simp [ofNatLE, ih]

@[simp] theorem length_ofNatBE (n v : Nat) : (ofNatBE n v).length = n := by
  simp [ofNatBE]

/-- Writing the number of a byte string gives the byte string again. -/
theorem ofNatLE_toNatLE (b : Bytes) : ofNatLE b.length (toNatLE b) = b := by
  induction b with
  | nil => rfl
  | cons x rest ih =>
    have hx := x.toNat_lt
    have hdiv : (x.toNat + 256 * toNatLE rest) / 256 = toNatLE rest := by omega
    have hmod : UInt8.ofNat (x.toNat + 256 * toNatLE rest) = x := by
      apply UInt8.toNat_inj.mp
      simp only [UInt8.toNat_ofNat']; omega
    simp only [List.length_cons, ofNatLE, toNatLE, hdiv, hmod, ih]

end Bytes

end CoinSpend
