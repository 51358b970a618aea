import Mathlib.Algebra.Order.Ring.Nat
import CoinSpend.Bytes

/-!
Numbers and the bytes in which they are written.

* `Bytes.toNatLE_ofNatLE` and `Bytes.toNatBE_ofNatBE`: a number that fits its
  width is read back. `Bytes.ofNatBE_toNatBE`: so is a byte string from its number.
* `Bytes.toNatLE_lt` and `Bytes.toNatBE_lt`: the number of `n` bytes fits `n` bytes.
* `Bytes.toNatBE_cons`: what a byte in front adds.
-/

namespace CoinSpend

namespace Bytes

/-- A number below `256 ^ n` is read back from its `n` bytes. -/
theorem toNatLE_ofNatLE {n v : Nat} (h : v < 256 ^ n) : toNatLE (ofNatLE n v) = v := by
  induction n generalizing v with
  | zero => simp at h; simp [ofNatLE, toNatLE, h]
  | succ n ih =>
    have hv : v / 256 < 256 ^ n := by
      rw [Nat.div_lt_iff_lt_mul (by decide)]; rwa [Nat.pow_succ] at h
    simp only [ofNatLE, toNatLE, ih hv, UInt8.toNat_ofNat']
    omega

/-- A number below `256 ^ n` is read back from its `n` bytes, the most
significant one first. -/
theorem toNatBE_ofNatBE {n v : Nat} (h : v < 256 ^ n) : toNatBE (ofNatBE n v) = v := by
  rw [toNatBE, ofNatBE, List.reverse_reverse, toNatLE_ofNatLE h]

/-- Writing the number of a byte string, the most significant byte first, gives the byte
string again. -/
theorem ofNatBE_toNatBE (b : Bytes) : ofNatBE b.length (toNatBE b) = b := by
  rw [ofNatBE, toNatBE, ← List.length_reverse, ofNatLE_toNatLE, List.reverse_reverse]

/-- The number of a byte string fits its length. -/
theorem toNatLE_lt (b : Bytes) : toNatLE b < 256 ^ b.length := by
  induction b with
  | nil => simp [toNatLE]
  | cons x rest ih =>
    have hx := x.toNat_lt
    rw [toNatLE, List.length_cons, Nat.pow_succ]
    omega

/-- Of two byte strings one after the other, the second one counts above the
first. -/
theorem toNatLE_append (a b : Bytes) :
    toNatLE (a ++ b) = toNatLE a + 256 ^ a.length * toNatLE b := by
  induction a with
  | nil => simp [toNatLE]
  | cons x rest ih =>
    rw [List.cons_append, toNatLE, ih, toNatLE, List.length_cons, Nat.pow_succ, Nat.mul_add,
      Nat.add_assoc, Nat.mul_left_comm, Nat.mul_assoc]

/-- So it does if the most significant byte comes first. -/
theorem toNatBE_lt (b : Bytes) : toNatBE b < 256 ^ b.length := by
  have hlt := toNatLE_lt b.reverse
  rwa [List.length_reverse] at hlt

/-- A byte in front is the most significant one. -/
theorem toNatBE_cons (x : UInt8) (rest : Bytes) :
    toNatBE (x :: rest) = toNatBE rest + 256 ^ rest.length * x.toNat := by
  rw [toNatBE, List.reverse_cons, toNatLE_append, List.length_reverse]
  simp [toNatBE, toNatLE]

end Bytes

end CoinSpend
