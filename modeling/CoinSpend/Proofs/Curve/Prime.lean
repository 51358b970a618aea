import Mathlib.Data.List.Prime
import Mathlib.Data.Nat.Prime.Basic
import Mathlib.NumberTheory.LucasPrimality
import CoinSpend.Curve.Field

/-!
The two primes of the curve.

* `Curve.cast_powMod`: square and multiply makes powers, for exponents below `2 ^ 256`.
* `Curve.Certificate`: a number with what shows by Lucas's test that it is prime, if the
  factors of its predecessor are. `Curve.Certificate.prime_of_passes`: the test is sound.
* `Curve.areCertified`: a chain of certificates; small factors are tried by division.
  `Curve.prime_of_areCertified`: every number of such a chain is prime.
* `Curve.prime_fieldPrime`, `Curve.prime_order`: so are the two primes, by
  `Curve.fieldPrimeChain` and `Curve.orderChain`.
-/

namespace CoinSpend

namespace Curve

/-! ### Powers -/

/-- One bit more of a number. -/
lemma mod_two_pow_succ (k n : ℕ) : k % 2 ^ (n + 1) = k % 2 ^ n + 2 ^ n * (k.testBit n).toNat := by
  rw [Nat.mod_pow_succ, Nat.toNat_testBit]

/-- After the bits below `n` the accumulator has been squared `n` times, and the power of
these bits has been multiplied in. -/
lemma cast_powLoop (base exponent modulus n acc : ℕ) :
    (powLoop base exponent modulus n acc : ZMod modulus)
      = (acc : ZMod modulus) ^ 2 ^ n * (base : ZMod modulus) ^ (exponent % 2 ^ n) := by
  induction n generalizing acc with
  | zero => simp [powLoop, Nat.mod_one]
  | succ n ih =>
      rw [powLoop, ih, mod_two_pow_succ]
      cases exponent.testBit n with
      | true =>
          simp only [if_true, ZMod.natCast_mod, Nat.cast_mul, Bool.toNat_true]
          ring
      | false =>
          simp only [Bool.false_eq_true, if_false, ZMod.natCast_mod, Nat.cast_mul, Bool.toNat_false]
          ring

/-- Square and multiply makes powers. -/
lemma cast_powMod {exponent : ℕ} (h : exponent < 2 ^ 256) (base modulus : ℕ) :
    (powMod base exponent modulus : ZMod modulus) = (base : ZMod modulus) ^ exponent := by
  rw [powMod, cast_powLoop, Nat.mod_eq_of_lt h, Nat.cast_one, one_pow, one_mul]

lemma powLoop_lt {modulus : ℕ} (h : 0 < modulus) (base exponent n : ℕ) {acc : ℕ}
    (hacc : acc < modulus) : powLoop base exponent modulus n acc < modulus := by
  induction n generalizing acc with
  | zero => exact hacc
  | succ n ih =>
      rw [powLoop]
      refine ih ?_
      split_ifs <;> exact Nat.mod_lt _ h

/-- Powers are reduced. -/
lemma powMod_lt {modulus : ℕ} (h : 1 < modulus) (base exponent : ℕ) :
    powMod base exponent modulus < modulus :=
  powLoop_lt (Nat.zero_lt_of_lt h) base exponent 256 h

/-- A power is one if it is computed as one. -/
lemma pow_eq_one_iff {modulus exponent : ℕ} (hmodulus : 1 < modulus) (h : exponent < 2 ^ 256)
    (base : ℕ) : (base : ZMod modulus) ^ exponent = 1 ↔ powMod base exponent modulus = 1 := by
  rw [← cast_powMod h, ← Nat.cast_one, ZMod.natCast_eq_natCast_iff',
    Nat.mod_eq_of_lt (powMod_lt hmodulus base exponent), Nat.mod_eq_of_lt hmodulus]

/-! ### Certificates -/

/-- A number, a base whose powers tell that it is prime, and the factors of its
predecessor with their exponents. -/
structure Certificate where
  number : ℕ
  base : ℕ
  factors : List (ℕ × ℕ)

/-- Lucas's test: the power with the predecessor is one, and no power with the predecessor
divided by a factor is. -/
def Certificate.passes (certificate : Certificate) : Bool :=
  1 < certificate.number && certificate.number ≤ 2 ^ 256 &&
    (certificate.factors.map fun factor => factor.1 ^ factor.2).prod == certificate.number - 1 &&
    powMod certificate.base (certificate.number - 1) certificate.number == 1 &&
    certificate.factors.all fun factor =>
      powMod certificate.base ((certificate.number - 1) / factor.1) certificate.number != 1

/-- A number that passes is prime if the factors of its predecessor are. -/
lemma Certificate.prime_of_passes {certificate : Certificate} (h : certificate.passes)
    (hfactors : ∀ factor ∈ certificate.factors, factor.1.Prime) : certificate.number.Prime := by
  simp only [passes, Bool.and_eq_true, decide_eq_true_eq, beq_iff_eq, List.all_eq_true,
    bne_iff_ne, ne_eq] at h
  obtain ⟨⟨⟨⟨hone, hbound⟩, hproduct⟩, hfull⟩, hparts⟩ := h
  have hlt {n : ℕ} (hn : n ≤ certificate.number - 1) : n < 2 ^ 256 := by omega
  refine lucas_primality certificate.number (certificate.base : ZMod certificate.number) ?_ ?_
  · exact (pow_eq_one_iff hone (hlt le_rfl) _).mpr hfull
  · intro q hq hdvd
    rw [← hproduct, Prime.dvd_prod_iff hq.prime] at hdvd
    obtain ⟨_, hpower, hdvd⟩ := hdvd
    obtain ⟨factor, hfactor, rfl⟩ := List.mem_map.mp hpower
    obtain rfl : q = factor.1 :=
      (Nat.prime_dvd_prime_iff_eq hq (hfactors factor hfactor)).mp (hq.dvd_of_dvd_pow hdvd)
    rw [ne_eq, pow_eq_one_iff hone (hlt (Nat.div_le_self _ _))]
    exact hparts factor hfactor

/-- No number up to the square root divides the number. -/
def isPrimeByDivision (n : ℕ) : Bool :=
  2 ≤ n && (List.range (n.sqrt + 1)).all fun d => d < 2 || n % d != 0

lemma prime_of_isPrimeByDivision {n : ℕ} (h : isPrimeByDivision n) : n.Prime := by
  simp only [isPrimeByDivision, Bool.and_eq_true, decide_eq_true_eq, List.all_eq_true,
    List.mem_range, Bool.or_eq_true, bne_iff_ne, ne_eq] at h
  obtain ⟨htwo, hnone⟩ := h
  refine Nat.prime_def_le_sqrt.mpr ⟨htwo, fun d hd hsqrt hdvd => ?_⟩
  obtain hsmall | hrest := hnone d (Nat.lt_succ_of_le hsqrt)
  · omega
  · exact hrest (Nat.mod_eq_zero_of_dvd hdvd)

/-- Every number of a chain passes, and each of its factors is known or comes before it in
the chain or is prime by division. -/
def areCertified : List ℕ → List Certificate → Bool
  | _, [] => true
  | known, certificate :: rest =>
    certificate.passes &&
      certificate.factors.all (fun factor => factor.1 ∈ known || isPrimeByDivision factor.1) &&
      areCertified (certificate.number :: known) rest

/-- Every number of a certified chain is prime, if the known ones are. -/
lemma prime_of_areCertified {known : List ℕ} {chain : List Certificate}
    (hknown : ∀ n ∈ known, n.Prime) (h : areCertified known chain) :
    ∀ n ∈ chain.map Certificate.number, n.Prime := by
  induction chain generalizing known with
  | nil => simp
  | cons certificate rest ih =>
      simp only [areCertified, Bool.and_eq_true, List.all_eq_true, Bool.or_eq_true,
        decide_eq_true_eq] at h
      obtain ⟨⟨hpasses, hfactors⟩, hrest⟩ := h
      have hprime : certificate.number.Prime := by
        refine Certificate.prime_of_passes hpasses fun factor hfactor => ?_
        obtain hmem | hdivision := hfactors factor hfactor
        · exact hknown _ hmem
        · exact prime_of_isPrimeByDivision hdivision
      rw [List.map_cons, List.forall_mem_cons]
      exact ⟨hprime, ih (List.forall_mem_cons.mpr ⟨hprime, hknown⟩) hrest⟩

/-! ### The two primes -/

/-- Certificates up to that of the prime of the coordinates. -/
def fieldPrimeChain : List Certificate := [
  ⟨13331831, 13, [(2, 1), (5, 1), (971, 1), (1373, 1)]⟩,
  ⟨173378833005251801, 6, [(2, 3), (5, 2), (2621, 1), (24809, 1), (13331831, 1)]⟩,
  ⟨22149492674086928081353, 5, [(2, 3), (3, 1), (5323, 1), (173378833005251801, 1)]⟩,
  ⟨132896956044521568488119, 6, [(2, 1), (3, 1), (22149492674086928081353, 1)]⟩,
  ⟨107590001, 3, [(2, 4), (5, 4), (7, 1), (29, 1), (53, 1)]⟩,
  ⟨255515944373312847190720520512484175977, 3, [(2, 3), (7, 2), (11, 1), (1627, 1), (2657, 1),
    (4423, 1), (41201, 1), (96557, 1), (7240687, 1), (107590001, 1)]⟩,
  ⟨205115282021455665897114700593932402728804164701536103180137503955397371, 10,
    [(2, 1), (3, 1), (5, 1), (29, 2), (31, 1), (7723, 1), (132896956044521568488119, 1),
      (255515944373312847190720520512484175977, 1)]⟩,
  ⟨fieldPrime, 3, [(2, 1), (3, 1), (7, 1), (13441, 1),
    (205115282021455665897114700593932402728804164701536103180137503955397371, 1)]⟩]

/-- Certificates up to that of the order. -/
def orderChain : List Certificate := [
  ⟨107361793816595537, 3, [(2, 4), (16699, 1), (85831, 1), (4681609, 1)]⟩,
  ⟨44706919, 6, [(2, 1), (3, 1), (797, 1), (9349, 1)]⟩,
  ⟨174723607534414371449, 3, [(2, 3), (17, 1), (59, 1), (4051, 1), (120233, 1), (44706919, 1)]⟩,
  ⟨545358713, 5, [(2, 3), (41, 1), (59, 1), (28181, 1)]⟩,
  ⟨297159362677, 2, [(2, 2), (3, 2), (11, 1), (461, 1), (1627771, 1)]⟩,
  ⟨29047611873442575647497758179, 2, [(2, 1), (293, 1), (305873, 1), (545358713, 1),
    (297159362677, 1)]⟩,
  ⟨341948486974166000522343609283189, 2, [(2, 2), (3, 3), (109, 1),
    (29047611873442575647497758179, 1)]⟩,
  ⟨order, 7, [(2, 6), (3, 1), (149, 1), (631, 1), (107361793816595537, 1),
    (174723607534414371449, 1), (341948486974166000522343609283189, 1)]⟩]

/-- The coordinates are taken modulo a prime. -/
lemma prime_fieldPrime : fieldPrime.Prime :=
  @prime_of_areCertified [] fieldPrimeChain (by simp) (by decide +kernel) _
    (by simp [fieldPrimeChain])

/-- The group has prime order. -/
lemma prime_order : order.Prime :=
  @prime_of_areCertified [] orderChain (by simp) (by decide +kernel) _ (by simp [orderChain])

instance : Fact fieldPrime.Prime := ⟨prime_fieldPrime⟩

instance : Fact order.Prime := ⟨prime_order⟩

end Curve

end CoinSpend
