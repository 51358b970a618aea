import Mathlib.Algebra.Field.ZMod
import Mathlib.FieldTheory.Finite.Basic
import CoinSpend.Curve.Point
import CoinSpend.Proofs.Curve.Prime

/-!
Coordinates as members of a field.

* `Curve.Coordinate`: the numbers modulo the prime, which are a field.
* `Curve.cast_subMod`, `Curve.cast_invMod`, `Curve.cast_rhs`: what is computed with reduced
  numbers is what it is called. `Curve.sqrt?_of_sq`: a square has a root, as the prime is
  three modulo four.
* `Curve.exists_lift?`: over the first coordinate of a point there is one of either parity.
-/

namespace CoinSpend

namespace Curve

/-- A coordinate, modulo the prime. -/
abbrev Coordinate : Type := ZMod fieldPrime

lemma fieldPrime_pos : 0 < fieldPrime := by decide

/-- Reduced numbers are told apart modulo the prime. -/
lemma cast_inj {a b : ℕ} (ha : a < fieldPrime) (hb : b < fieldPrime) :
    (a : Coordinate) = b ↔ a = b := by
  rw [ZMod.natCast_eq_natCast_iff', Nat.mod_eq_of_lt ha, Nat.mod_eq_of_lt hb]

lemma cast_eq_zero_iff {a : ℕ} (ha : a < fieldPrime) : (a : Coordinate) = 0 ↔ a = 0 := by
  rw [← Nat.cast_zero, cast_inj ha fieldPrime_pos]

/-- A small number is not zero modulo the prime. -/
lemma ofNat_ne_zero {n : ℕ} (hpos : 0 < n) (h : n < fieldPrime) : (n : Coordinate) ≠ 0 := by
  rw [Ne, cast_eq_zero_iff h]
  exact Nat.ne_of_gt hpos

lemma subMod_lt (a b : ℕ) : subMod a b < fieldPrime :=
  Nat.mod_lt _ fieldPrime_pos

lemma cast_subMod (a : ℕ) {b : ℕ} (hb : b < fieldPrime) :
    (subMod a b : Coordinate) = a - b := by
  rw [subMod, ZMod.natCast_mod, Nat.cast_sub (by omega), Nat.cast_add, ZMod.natCast_self, add_zero]

/-- The inverse by Fermat's theorem; zero stands for that of zero. -/
lemma cast_invMod_of_prime {prime : ℕ} [Fact prime.Prime] (htwo : 2 < prime)
    (hle : prime ≤ 2 ^ 256) (a : ℕ) : (invMod a prime : ZMod prime) = (a : ZMod prime)⁻¹ := by
  rw [invMod, cast_powMod (by omega)]
  by_cases ha : (a : ZMod prime) = 0
  · rw [ha, zero_pow (by omega), inv_zero]
  · refine eq_inv_of_mul_eq_one_left ?_
    rw [← pow_succ, show prime - 2 + 1 = prime - 1 by omega]
    exact ZMod.pow_card_sub_one_eq_one ha

lemma cast_invMod (a : ℕ) : (invMod a fieldPrime : Coordinate) = (a : Coordinate)⁻¹ :=
  cast_invMod_of_prime (by decide) (by decide) a

/-- The right side of the curve equation. -/
lemma cast_rhs (x : ℕ) : (rhs x : Coordinate) = (x : Coordinate) ^ 3 + 7 := by
  rw [rhs, ZMod.natCast_mod, Nat.cast_add, Nat.cast_mul, ZMod.natCast_mod, Nat.cast_mul]
  push_cast
  ring

/-- A square has a root: the power that is taken for one is its square up to a power that
is one by Fermat's theorem. -/
lemma sqrt?_of_sq {a : ℕ} {y : Coordinate} (h : (a : Coordinate) = y ^ 2) :
    ∃ root, sqrt? a = some root ∧ root < fieldPrime ∧ (root : Coordinate) ^ 2 = y ^ 2 := by
  have hroot : (powMod a ((fieldPrime + 1) / 4) fieldPrime : Coordinate) ^ 2 = y ^ 2 := by
    have hexponent : 2 * ((fieldPrime + 1) / 4 * 2) = fieldPrime + 1 := by decide
    rw [cast_powMod (by decide), h, ← pow_mul, ← pow_mul, hexponent, pow_succ, ZMod.pow_card, sq]
  refine ⟨_, if_pos ?_, powMod_lt prime_fieldPrime.one_lt _ _, hroot⟩
  rw [← ZMod.natCast_eq_natCast_iff', Nat.cast_mul, ← sq, hroot, h]

/-- Over the first coordinate of a point there is a point of either parity. -/
lemma exists_lift? {x y : Coordinate} (h : y ^ 2 = x ^ 3 + 7) (odd : Bool) :
    ∃ point, lift? x.val odd = some point ∧ point.x = x.val ∧ point.isOdd = odd ∧
      point.y ≤ fieldPrime ∧ (point.y : Coordinate) ^ 2 = x ^ 3 + 7 := by
  have hsquare : (rhs x.val : Coordinate) = y ^ 2 := by
    rw [cast_rhs, ZMod.natCast_zmod_val, h]
  obtain ⟨root, hroot, hlt, hsq⟩ := sqrt?_of_sq hsquare
  refine ⟨_, by rw [lift?, if_pos (ZMod.val_lt x), hroot, Option.map_some], rfl, ?_, ?_, ?_⟩
  · have hprime : fieldPrime % 2 = 1 := by decide
    simp only [Point.isOdd]
    split_ifs with hparity
    · exact beq_iff_eq.mp hparity
    · rw [beq_iff_eq] at hparity
      cases odd <;> simp at hparity ⊢ <;> omega
  · dsimp only
    split_ifs <;> omega
  · dsimp only
    split_ifs
    · rw [hsq, h]
    · rw [Nat.cast_sub hlt.le, ZMod.natCast_self, zero_sub, neg_sq, hsq, h]

/-- Over the first coordinate of a point with an even second coordinate there is this point. -/
lemma lift?_of_even {x y : Coordinate} (h : y ^ 2 = x ^ 3 + 7) (heven : y.val % 2 = 0) :
    lift? x.val false = some ⟨x.val, y.val⟩ := by
  obtain ⟨⟨px, py⟩, hlift, hx, hparity, hle, hsq⟩ := exists_lift? h false
  have hprime : fieldPrime % 2 = 1 := by decide
  have hpy : py % 2 = 0 := by simpa [Point.isOdd] using hparity
  have hlt : py < fieldPrime := by
    dsimp only at hle
    omega
  obtain hsame | hopposite : (py : Coordinate) = y ∨ (py : Coordinate) = -y :=
    sq_eq_sq_iff_eq_or_eq_neg.mp (hsq.trans h.symm)
  · have hval : py = y.val := by rw [← hsame, ZMod.val_natCast_of_lt hlt]
    rw [hlift, hval, ← hx]
  · -- the other root is odd, unless both are zero
    have hval : py = (-y).val := by rw [← hopposite, ZMod.val_natCast_of_lt hlt]
    have hzero : y = 0 := by
      by_contra hne
      have hneg : (-y).val = fieldPrime - y.val := by
        rw [ZMod.neg_val, if_neg hne]
      have hy := ZMod.val_lt y
      omega
    rw [hlift, hval, hzero, neg_zero, ← hx]

end Curve

end CoinSpend
