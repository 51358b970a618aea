import Mathlib.AlgebraicGeometry.EllipticCurve.Affine.Point
import Mathlib.GroupTheory.OrderOfElement
import Mathlib.Tactic.FieldSimp
import Mathlib.Tactic.LinearCombination
import CoinSpend.Proofs.Curve.Coordinate

/-!
Multiples of points in the group of the curve.

* `Curve.curve`: the curve over the field of coordinates, whose points are a group.
* `Curve.Projective.Stands`: reduced coordinates stand for a point.
  `Curve.Projective.Stands.double`, `Curve.Projective.Stands.add`: what is computed from
  them stands for the double and for the sum.
* `Curve.stands_mul`: hence double and add makes multiples.
* `Curve.generator`: the base point as a member of the group; its order is prime
  (`Curve.addOrderOf_generator`), so that no multiple by a smaller number is the neutral
  element (`Curve.exists_mulBase`).
-/

namespace CoinSpend

namespace Curve

open WeierstrassCurve.Affine

/-- The curve `y² = x³ + 7`. -/
def curve : WeierstrassCurve.Affine Coordinate where
  a₁ := 0
  a₂ := 0
  a₃ := 0
  a₄ := 0
  a₆ := 7

/-- All solutions of the equation are points. -/
lemma nonsingular_iff {x y : Coordinate} : curve.Nonsingular x y ↔ y ^ 2 = x ^ 3 + 7 := by
  have hdiscriminant : curve.Δ ≠ 0 := by
    have hvalue : curve.Δ = -((21168 : ℕ) : Coordinate) := by
      simp only [WeierstrassCurve.Δ, WeierstrassCurve.b₂, WeierstrassCurve.b₄,
        WeierstrassCurve.b₆, WeierstrassCurve.b₈, curve]
      push_cast
      ring
    rw [hvalue, neg_ne_zero]
    exact ofNat_ne_zero (by decide) (by decide)
  rw [← equation_iff_nonsingular_of_Δ_ne_zero hdiscriminant, equation_iff]
  simp [curve]

/-- The negative of a point has the negative second coordinate. -/
lemma negY_eq (x y : Coordinate) : curve.negY x y = -y := by
  simp [negY, curve]

lemma two_ne_zero : (2 : Coordinate) ≠ 0 :=
  ofNat_ne_zero (n := 2) (by decide) (by decide)

/-- A second coordinate is that of the negative only if it is zero. -/
lemma eq_negY_iff {x y : Coordinate} : y = curve.negY x y ↔ y = 0 := by
  rw [negY_eq]
  constructor
  · intro h
    have hdouble : 2 * y = 0 := by linear_combination h
    exact (mul_eq_zero.mp hdouble).resolve_left two_ne_zero
  · rintro rfl
    exact neg_zero.symm

namespace Projective

/-- Coordinates stand for a point of the curve: without a denominator for the neutral
element, else for the point with the quotients. -/
inductive Stands : Projective → curve.Point → Prop
  | zero {P : Projective} (hz : P.z = 0) : Stands P 0
  | point {P : Projective} {x y : Coordinate} (h : curve.Nonsingular x y)
      (hx : P.x < fieldPrime) (hy : P.y < fieldPrime) (hz : P.z < fieldPrime) (hne : P.z ≠ 0)
      (x_eq : (P.x : Coordinate) = x * P.z ^ 2) (y_eq : (P.y : Coordinate) = y * P.z ^ 3) :
      Stands P (.some x y h)

variable {P : Projective} {A B : curve.Point}

lemma mod_lt (n : ℕ) : n % fieldPrime < fieldPrime :=
  Nat.mod_lt _ fieldPrime_pos

/-- The double, by the tangent. -/
lemma Stands.double (hP : P.Stands A) : P.double.Stands (A + A) := by
  cases hP with
  | zero hz =>
      rw [Projective.double, if_pos (.inl hz), add_zero]
      exact .zero rfl
  | @point x y h hx hy hz hne x_eq y_eq =>
      have hz₀ : (P.z : Coordinate) ≠ 0 := by rwa [Ne, cast_eq_zero_iff hz]
      by_cases hy₀ : P.y = 0
      · have hzero : y = 0 := by
          rw [hy₀, Nat.cast_zero, eq_comm, mul_eq_zero] at y_eq
          exact y_eq.resolve_right (pow_ne_zero 3 hz₀)
        rw [Projective.double, if_pos (.inr hy₀), Point.add_self_of_Y_eq (eq_negY_iff.mpr hzero)]
        exact .zero rfl
      · have hY : (P.y : Coordinate) ≠ 0 := by rwa [Ne, cast_eq_zero_iff hy]
        have hne₀ : y ≠ 0 := fun h₀ => hY (by rw [y_eq, h₀, zero_mul])
        have htangent : y ≠ curve.negY x y := fun h => hne₀ (eq_negY_iff.mp h)
        have hslope : curve.slope x x y y = 3 * x ^ 2 / (2 * y) := by
          rw [slope_of_Y_ne rfl htangent, negY_eq]
          simp only [curve]
          ring
        have htwo := two_ne_zero
        rw [Projective.double, if_neg (by tauto), Point.add_self_of_Y_ne htangent]
        refine .point _ (subMod_lt _ _) (subMod_lt _ _) (mod_lt _) ?_ ?_ ?_
        · rw [Ne, ← cast_eq_zero_iff (mod_lt _)]
          simp [hz₀, hY, htwo]
        · simp only [cast_subMod, mod_lt, ZMod.natCast_mod, Nat.cast_mul, Nat.cast_ofNat, addX,
            hslope, x_eq, y_eq]
          simp only [curve]
          field_simp
          ring
        · simp only [cast_subMod, mod_lt, subMod_lt, ZMod.natCast_mod, Nat.cast_mul, Nat.cast_ofNat,
            addY, negAddY, negY_eq, addX, hslope, x_eq, y_eq]
          simp only [curve]
          field_simp
          ring

/-- A point with denominator one stands for the point with its coordinates. -/
lemma Stands.exists_some {q : Curve.Point} {B : curve.Point} (h : q.toProjective.Stands B) :
    ∃ x y, ∃ h : curve.Nonsingular x y, B = .some x y h ∧ q.x < fieldPrime ∧ q.y < fieldPrime ∧
      (q.x : Coordinate) = x ∧ (q.y : Coordinate) = y := by
  cases h with
  | zero hz => cases hz
  | point h hx hy _ _ x_eq y_eq =>
      refine ⟨_, _, h, rfl, hx, hy, ?_, ?_⟩
      · simpa [Point.toProjective] using x_eq
      · simpa [Point.toProjective] using y_eq

/-- The sum with a point of denominator one, by the chord. -/
lemma Stands.add {q : Curve.Point} (hP : P.Stands A) (hq : q.toProjective.Stands B) :
    (P.add q).Stands (A + B) := by
  cases hP with
  | zero hz => rwa [Projective.add, if_pos hz, zero_add]
  | @point x y h hx hy hz hne x_eq y_eq =>
      have hz₀ : (P.z : Coordinate) ≠ 0 := by rwa [Ne, cast_eq_zero_iff hz]
      obtain ⟨x', y', h', rfl, -, -, hqx, hqy⟩ := hq.exists_some
      -- the coordinates of both points over the denominator of the first
      have hu : (q.x * (P.z * P.z % fieldPrime) % fieldPrime : ℕ) = P.x ↔ x' = x := by
        rw [← cast_inj (mod_lt _) hx]
        simp only [ZMod.natCast_mod, Nat.cast_mul, hqx, x_eq]
        rw [← sq]
        exact mul_left_inj' (pow_ne_zero 2 hz₀)
      have hs : (q.y * (P.z * P.z % fieldPrime * P.z % fieldPrime) % fieldPrime : ℕ) = P.y ↔
          y' = y := by
        rw [← cast_inj (mod_lt _) hy]
        simp only [ZMod.natCast_mod, Nat.cast_mul, hqy, y_eq]
        rw [← pow_three']
        exact mul_left_inj' (pow_ne_zero 3 hz₀)
      rw [Projective.add, if_neg hne]
      simp only [hu, hs]
      by_cases hxx : x' = x
      · subst hxx
        rw [if_pos rfl]
        by_cases hyy : y' = y
        · subst hyy
          rw [if_pos rfl]
          exact (Stands.point h hx hy hz hne x_eq y_eq).double
        · have hopposite : y = curve.negY x' y' :=
            (Y_eq_of_X_eq h.1 h'.1 rfl).resolve_left fun h => hyy h.symm
          rw [if_neg hyy, Point.add_of_Y_eq rfl hopposite]
          exact .zero rfl
      · have hchord : x ≠ x' := fun h => hxx h.symm
        have hslope : curve.slope x x' y y' = (y - y') / (x - x') := slope_of_X_ne hchord
        have hdiff : x - x' ≠ 0 := sub_ne_zero.mpr hchord
        rw [if_neg hxx, Point.add_of_X_ne hchord]
        refine .point _ (subMod_lt _ _) (subMod_lt _ _) (mod_lt _) ?_ ?_ ?_
        · rw [Ne, ← cast_eq_zero_iff (mod_lt _)]
          have hproduct : (P.z : Coordinate) * (x' * (P.z * P.z) - x * P.z ^ 2)
              = P.z ^ 3 * (x' - x) := by ring
          simp only [cast_subMod, hx, ZMod.natCast_mod, Nat.cast_mul, hqx, x_eq]
          rw [hproduct]
          exact mul_ne_zero (pow_ne_zero 3 hz₀) (sub_ne_zero.mpr hxx)
        · simp only [cast_subMod, mod_lt, hx, hy, ZMod.natCast_mod, Nat.cast_mul,
            Nat.cast_ofNat, addX, hslope, hqx, hqy, x_eq, y_eq]
          simp only [curve]
          field_simp
          ring
        · simp only [cast_subMod, mod_lt, subMod_lt, hx, hy, ZMod.natCast_mod, Nat.cast_mul,
            Nat.cast_ofNat, addY, negAddY, negY_eq, addX, hslope, hqx, hqy, x_eq, y_eq]
          simp only [curve]
          field_simp
          ring

/-- Without a denominator they stand for the neutral element only. -/
lemma Stands.eq_zero (hP : P.Stands A) (hz : P.z = 0) : A = 0 := by
  cases hP with
  | zero _ => rfl
  | point _ _ _ _ hne => exact absurd hz hne

/-- The quotients are the coordinates of the point. -/
lemma Stands.toPoint {x y : Coordinate} {h : curve.Nonsingular x y}
    (hP : P.Stands (.some x y h)) : P.toPoint = ⟨x.val, y.val⟩ := by
  cases hP with
  | point h hx hy hz hne x_eq y_eq =>
      have hz₀ : (P.z : Coordinate) ≠ 0 := by rwa [Ne, cast_eq_zero_iff hz]
      have hval {n : ℕ} {c : Coordinate} (hn : n < fieldPrime) (h : (n : Coordinate) = c) :
          n = c.val := by
        rw [← h, ZMod.val_natCast_of_lt hn]
      rw [Projective.toPoint, if_neg hne]
      simp only [Point.mk.injEq]
      refine ⟨hval (mod_lt _) ?_, hval (mod_lt _) ?_⟩
      · simp only [ZMod.natCast_mod, Nat.cast_mul, cast_invMod, x_eq]
        field_simp
      · simp only [ZMod.natCast_mod, Nat.cast_mul, cast_invMod, y_eq]
        field_simp

end Projective

/-! ### Multiples -/

section Multiples

variable {p : Point} {B : curve.Point}

/-- After the bits below `n` the accumulator has been doubled `n` times, and the multiple by
these bits has been added. -/
lemma stands_mulLoop (hp : p.toProjective.Stands B) (k n : ℕ) {acc : Projective}
    {A : curve.Point} (hacc : acc.Stands A) :
    (mulLoop p k n acc).Stands (2 ^ n • A + (k % 2 ^ n) • B) := by
  induction n generalizing acc A with
  | zero => simpa [mulLoop, Nat.mod_one] using hacc
  | succ n ih =>
      rw [mulLoop, mod_two_pow_succ]
      have hpower : 2 ^ (n + 1) • A = 2 ^ n • (A + A) := by
        rw [pow_succ, mul_nsmul', two_nsmul]
      cases k.testBit n with
      | true =>
          have hsum : 2 ^ (n + 1) • A + (k % 2 ^ n + 2 ^ n * true.toNat) • B
              = 2 ^ n • (A + A + B) + (k % 2 ^ n) • B := by
            rw [hpower, Bool.toNat_true, mul_one, add_nsmul, nsmul_add (A + A)]
            abel
          rw [hsum, if_pos rfl]
          exact ih (hacc.double.add hp)
      | false =>
          rw [hpower, Bool.toNat_false, mul_zero, add_zero, if_neg Bool.false_ne_true]
          exact ih hacc.double

/-- Double and add makes multiples. -/
lemma stands_mul (hp : p.toProjective.Stands B) {k : ℕ} (h : k < 2 ^ 256) :
    (p.mul k).Stands (k • B) := by
  have hloop := stands_mulLoop hp k 256 (.zero rfl : Projective.zero.Stands 0)
  rwa [nsmul_zero, zero_add, Nat.mod_eq_of_lt h] at hloop

end Multiples

/-! ### The base point -/

/-- The coordinates of a point stand for it. -/
lemma stands_toProjective {x y : Coordinate} (h : curve.Nonsingular x y) :
    (Point.toProjective ⟨x.val, y.val⟩).Stands (.some x y h) := by
  refine .point h (ZMod.val_lt x) (ZMod.val_lt y) prime_fieldPrime.one_lt Nat.one_ne_zero ?_ ?_
  · simp [Point.toProjective]
  · simp [Point.toProjective]

lemma nonsingular_base : curve.Nonsingular (base.x : Coordinate) (base.y : Coordinate) := by
  have hcurve : base.y * base.y % fieldPrime = rhs base.x := by decide +kernel
  rw [nonsingular_iff, ← cast_rhs, ← hcurve, ZMod.natCast_mod, Nat.cast_mul, sq]

/-- The base point in the group. -/
def generator : curve.Point :=
  .some base.x base.y nonsingular_base

lemma stands_base : base.toProjective.Stands generator := by
  have hstands := stands_toProjective nonsingular_base
  rwa [ZMod.val_natCast_of_lt (by decide), ZMod.val_natCast_of_lt (by decide)] at hstands

/-- The base point has prime order. -/
lemma addOrderOf_generator : addOrderOf generator = order := by
  have hmul : (base.mul order).Stands (order • generator) := stands_mul stands_base (by decide)
  have hend : (base.mul order).z = 0 := by decide +kernel
  exact addOrderOf_eq_prime (hmul.eq_zero hend) (Point.some_ne_zero nonsingular_base)

/-- Multiples of the base point depend on the factor modulo the order. -/
lemma nsmul_generator_congr {a b : ℕ} (h : (a : ZMod order) = b) :
    a • generator = b • generator := by
  rw [nsmul_eq_nsmul_iff_modEq, addOrderOf_generator]
  exact (ZMod.natCast_eq_natCast_iff a b order).mp h

/-- The multiple by the negative factor is the negative. -/
lemma nsmul_generator_of_neg {a b : ℕ} (h : (a : ZMod order) = -b) :
    a • generator = -(b • generator) := by
  refine eq_neg_of_add_eq_zero_left ?_
  rw [← add_nsmul, ← zero_nsmul generator]
  exact nsmul_generator_congr (by rw [Nat.cast_add, h, neg_add_cancel, Nat.cast_zero])

/-- A multiple by a smaller number is not the neutral element, and has coordinates. -/
lemma exists_mulBase {k : ℕ} (hpos : 0 < k) (h : k < order) :
    ∃ x y, ∃ hxy : curve.Nonsingular x y, k • generator = .some x y hxy ∧
      mulBase k = ⟨x.val, y.val⟩ := by
  have hne : k • generator ≠ 0 := by
    rw [Ne, ← addOrderOf_dvd_iff_nsmul_eq_zero, addOrderOf_generator]
    exact Nat.not_dvd_of_pos_of_lt hpos h
  have hstands : (base.mul k).Stands (k • generator) :=
    stands_mul stands_base (Nat.lt_trans h (by decide))
  cases hmultiple : k • generator with
  | zero => exact absurd hmultiple hne
  | some x y hxy =>
      rw [hmultiple] at hstands
      exact ⟨x, y, hxy, rfl, hstands.toPoint⟩

end Curve

end CoinSpend
