import CoinSpend.Bytes.Lemmas
import CoinSpend.Curve.Ecdsa
import CoinSpend.Curve.Schnorr
import CoinSpend.Proofs.Curve.Group

/-!
What is signed can be verified.

* `Ecdsa.Verifies`: a signature of a message can be verified by a public point.
  `Ecdsa.verifies_of_withNonce`: the one that is made with a fit nonce can.
* `Ecdsa.signLowR_low`: the signature that is written is low in its second scalar, and in
  the first one if one of the tries is; unless nothing fit was found, it can be verified.
* `Schnorr.Verifies`, `Schnorr.verifies_sign`: the same for signatures by output keys.
-/

namespace CoinSpend

open Curve

lemma Curve.Scalar.val_ofNat {n : ℕ} (h : n < order) : (Scalar.ofNat n).val = n :=
  Nat.mod_eq_of_lt h

namespace Ecdsa

/-- The scalars of a signature are not zero, and the first one is the first coordinate of the
point that is made of the message and a public point with the second one. -/
structure Verifies (A : curve.Point) (message : ℕ) (signature : Signature) : Prop where
  r_ne_zero : signature.r.val ≠ 0
  s_ne_zero : signature.s.val ≠ 0
  exists_point : ∃ x y, ∃ h : curve.Nonsingular x y,
    ((message : ZMod order) / signature.s.val).val • generator
        + ((signature.r.val : ZMod order) / signature.s.val).val • A = .some x y h ∧
      x.val % order = signature.r.val

/-- What a signature is made of. -/
lemma withNonce?_eq_some {secret message k : ℕ} {signature : Signature}
    (h : withNonce? secret message k = some signature) :
    (0 < k ∧ k < order) ∧ ∃ s, 0 < s ∧ s < order ∧
      (s : ZMod order) = (k : ZMod order)⁻¹ * (message + signature.r.val * secret) ∧
      0 < signature.r.val ∧ signature.r.val = (mulBase k).x % order ∧
      signature.s.val = if order / 2 < s then order - s else s := by
  simp only [withNonce?] at h
  by_cases hk : k = 0 ∨ order ≤ k
  · rw [if_pos hk] at h
    cases h
  rw [if_neg hk] at h
  have hr : (mulBase k).x % order < order := Nat.mod_lt _ order_pos
  have hcast (r : ℕ) : ((invMod k order * (message + r * secret) % order : ℕ) : ZMod order)
      = (k : ZMod order)⁻¹ * (message + r * secret) := by
    rw [ZMod.natCast_mod, Nat.cast_mul, cast_invMod_of_prime (by decide) (by decide)]
    push_cast
    rfl
  have hs (r : ℕ) : invMod k order * (message + r * secret) % order < order :=
    Nat.mod_lt _ order_pos
  generalize hx : (mulBase k).x % order = r at h hr
  specialize hcast r
  specialize hs r
  generalize invMod k order * (message + r * secret) % order = s at h hcast hs
  by_cases hzero : r = 0 ∨ s = 0
  · rw [if_pos hzero] at h
    cases h
  rw [if_neg hzero, Option.some.injEq] at h
  subst h
  have hlow : (if order / 2 < s then order - s else s) < order := by
    split_ifs <;> omega
  refine ⟨by omega, s, by omega, hs, ?_, ?_, Scalar.val_ofNat hr, Scalar.val_ofNat hlow⟩
  · rw [Scalar.val_ofNat hr]
    exact hcast
  · rw [Scalar.val_ofNat hr]
    omega

/-- The second scalar is in the lower half. -/
lemma low_of_withNonce {secret message k : ℕ} {signature : Signature}
    (h : withNonce? secret message k = some signature) : signature.s.val ≤ order / 2 := by
  obtain ⟨-, s, -, hs, -, -, -, heq⟩ := withNonce?_eq_some h
  have hodd : order % 2 = 1 := by decide
  rw [heq]
  split_ifs <;> omega

/-- A signature with a fit nonce can be verified by the point of the secret. -/
lemma verifies_of_withNonce {secret message k : ℕ} {signature : Signature}
    (h : withNonce? secret message k = some signature) :
    Verifies (secret • generator) message signature := by
  obtain ⟨⟨hpos, hk⟩, s, hs₀, hs, hcast, hr₀, hr, hsig⟩ := withNonce?_eq_some h
  obtain ⟨x, y, hxy, hpoint, hmul⟩ := exists_mulBase hpos hk
  have hkne : (k : ZMod order) ≠ 0 := by
    rw [Ne, ZMod.natCast_eq_zero_iff]
    exact Nat.not_dvd_of_pos_of_lt hpos hk
  have hsne : (s : ZMod order) ≠ 0 := by
    rw [Ne, ZMod.natCast_eq_zero_iff]
    exact Nat.not_dvd_of_pos_of_lt hs₀ hs
  have hproduct : (message + signature.r.val * secret : ZMod order) = k * s := by
    rw [hcast, mul_inv_cancel_left₀ hkne]
  refine ⟨hr₀.ne', ?_, ?_⟩
  · rw [hsig]
    split_ifs <;> omega
  rw [← mul_nsmul', ← add_nsmul]
  have hfactor : ((((message : ZMod order) / signature.s.val).val
      + ((signature.r.val : ZMod order) / signature.s.val).val * secret : ℕ) : ZMod order)
        = k * s / signature.s.val := by
    rw [← hproduct]
    push_cast
    rw [ZMod.natCast_zmod_val, ZMod.natCast_zmod_val]
    ring
  by_cases hhigh : order / 2 < s
  · have hneg : (signature.s.val : ZMod order) = -s := by
      rw [hsig, if_pos hhigh, Nat.cast_sub hs.le, ZMod.natCast_self, zero_sub]
    have hminus : (k : ZMod order) * s / signature.s.val = -k := by
      rw [hneg, div_neg, mul_div_cancel_right₀ _ hsne]
    rw [nsmul_generator_of_neg (hfactor.trans hminus), hpoint,
      WeierstrassCurve.Affine.Point.neg_some]
    exact ⟨_, _, _, rfl, by rw [hr, hmul]⟩
  · have hplus : (k : ZMod order) * s / signature.s.val = k := by
      rw [hsig, if_neg hhigh, mul_div_cancel_right₀ _ hsne]
    rw [nsmul_generator_congr (hfactor.trans hplus), hpoint]
    exact ⟨_, _, _, rfl, by rw [hr, hmul]⟩

/-- Whatever is found is made with one of the candidates. -/
lemma exists_nonce_of_search {secret message n : ℕ} {stream : Stream} {signature : Signature}
    (h : search secret message n stream = some signature) :
    ∃ k, withNonce? secret message k = some signature := by
  induction n generalizing stream with
  | zero => cases h
  | succ n ih =>
      rw [search] at h
      cases htry : withNonce? secret message (Bytes.toNatBE stream.head) with
      | none =>
          rw [htry] at h
          exact ih h
      | some found =>
          rw [htry] at h
          exact ⟨_, htry.trans h⟩

/-- A signature is made with a fit nonce, unless none is found and both scalars are zero. -/
lemma sign_eq_or (secret : ℕ) (digest extra : Bytes) :
    sign secret digest extra = ⟨.ofNat 0, .ofNat 0⟩ ∨
      ∃ k, withNonce? secret (Bytes.toNatBE digest % order) k
        = some (sign secret digest extra) := by
  cases hfound : search secret (Bytes.toNatBE digest % order) 64
      (.ofSeed (Bytes.ofNatBE 32 secret ++ digest ++ extra)) with
  | none =>
      left
      rw [sign, hfound, Option.getD_none]
  | some signature =>
      right
      rw [sign, hfound, Option.getD_some]
      exact exists_nonce_of_search hfound

/-- The second scalar is in the lower half. -/
lemma low_sign (secret : ℕ) (digest extra : Bytes) :
    (sign secret digest extra).s.val ≤ order / 2 := by
  rcases sign_eq_or secret digest extra with hzero | ⟨k, hk⟩
  · rw [hzero]
    exact Nat.zero_le _
  · exact low_of_withNonce hk

/-- If a nonce is found, the signature can be verified. -/
lemma verifies_sign {secret : ℕ} {digest extra : Bytes}
    (h : (sign secret digest extra).r.val ≠ 0) :
    Verifies (secret • generator) (Bytes.toNatBE digest) (sign secret digest extra) := by
  rcases sign_eq_or secret digest extra with hzero | ⟨k, hk⟩
  · rw [hzero] at h
    exact absurd rfl h
  · obtain ⟨hr, hs, hpoint⟩ := verifies_of_withNonce hk
    rw [ZMod.natCast_mod] at hpoint
    exact ⟨hr, hs, hpoint⟩

/-- Tries go on to the first one with a low first scalar, or to the last one of all. -/
lemma exists_try_of_lowRFrom (secret : ℕ) (digest : Bytes) (n counter : ℕ) :
    ∃ c, counter ≤ c ∧ c ≤ counter + n ∧
      lowRFrom secret digest n counter = sign secret digest (extraInput c) ∧
      (∀ j, counter ≤ j → j < c → lowBound ≤ (sign secret digest (extraInput j)).r.val) ∧
      (c = counter + n ∨ (sign secret digest (extraInput c)).r.val < lowBound) := by
  induction n generalizing counter with
  | zero => exact ⟨counter, le_rfl, le_rfl, rfl, fun j _ _ => by omega, .inl rfl⟩
  | succ n ih =>
      by_cases hlow : (sign secret digest (extraInput counter)).r.val < lowBound
      · refine ⟨counter, le_rfl, by omega, ?_, fun j _ _ => by omega, .inr hlow⟩
        rw [lowRFrom]
        exact if_pos hlow
      · obtain ⟨c, hle, hbound, htry, hearlier, hlast⟩ := ih (counter + 1)
        refine ⟨c, by omega, by omega, ?_, fun j hj hjc => ?_, ?_⟩
        · rw [lowRFrom, ← htry]
          exact if_neg hlow
        · obtain rfl | hj := Nat.eq_or_lt_of_le hj
          · exact Nat.le_of_not_lt hlow
          · exact hearlier j hj hjc
        · rwa [Nat.add_right_comm counter 1 n] at hlast

/-- **Signatures are low.** The second scalar is always in the lower half. The first one
takes at most 32 bytes if it does in one of the tries. The signature can be verified by the
point of the secret, unless both scalars are zero as no nonce was found. -/
theorem signLowR_low (secret : ℕ) (digest : Bytes) :
    (signLowR secret digest).s.val ≤ order / 2 ∧
      ((∃ c ≤ 1024, (sign secret digest (extraInput c)).r.val < lowBound) →
        (signLowR secret digest).r.val < lowBound) ∧
      ((signLowR secret digest).r.val ≠ 0 →
        Verifies (secret • generator) (Bytes.toNatBE digest) (signLowR secret digest)) := by
  obtain ⟨c, -, hc, htry, hearlier, hlast⟩ := exists_try_of_lowRFrom secret digest 1024 0
  rw [Nat.zero_add] at hc hlast
  rw [signLowR, htry]
  refine ⟨low_sign _ _ _, ?_, verifies_sign⟩
  rintro ⟨j, hj, hlow⟩
  obtain rfl | hlast := hlast
  · obtain rfl | hlt := Nat.eq_or_lt_of_le hj
    · exact hlow
    · exact absurd hlow (Nat.not_lt.mpr (hearlier j (Nat.zero_le j) hlt))
  · exact hlast

end Ecdsa

namespace Schnorr

/-- The challenge of a signature with this first half. -/
def challenge (commitmentX publicX digest : Bytes) : ℕ :=
  Bytes.toNatBE (taggedHash "BIP0340/challenge" (commitmentX ++ publicX ++ digest)) % order

/-- A signature can be verified by a key: there are points over the key and over its first
half, and its second half times the base point is the latter, moved by the challenge times
the former. -/
def Verifies (publicX digest signature : Bytes) : Prop :=
  ∃ point commitment A B, lift? (Bytes.toNatBE publicX) false = some point ∧
    lift? (Bytes.toNatBE (signature.take 32)) false = some commitment ∧
    point.toProjective.Stands A ∧ commitment.toProjective.Stands B ∧
    Bytes.toNatBE (signature.drop 32) < order ∧
    Bytes.toNatBE (signature.drop 32) • generator
      = B + challenge (signature.take 32) publicX digest • A

/-- The scalar that is taken belongs to a point with the same first and an even second
coordinate. -/
lemma exists_even_multiple {scalar : ℕ} (hpos : 0 < scalar) (h : scalar < order) :
    ∃ x y, ∃ hxy : curve.Nonsingular x y, (mulBase scalar).x = x.val ∧ y.val % 2 = 0 ∧
      evenScalar scalar (mulBase scalar) • generator = .some x y hxy := by
  obtain ⟨x, y, hxy, hpoint, hmul⟩ := exists_mulBase hpos h
  rw [hmul]
  by_cases hodd : y.val % 2 = 1
  · have hneg : curve.Nonsingular x (-y) := by
      rw [nonsingular_iff, neg_sq]
      exact nonsingular_iff.mp hxy
    have heven : (-y).val % 2 = 0 := by
      have hprime : fieldPrime % 2 = 1 := by decide
      have hy := ZMod.val_lt y
      have hne : y ≠ 0 := by
        rintro rfl
        rw [ZMod.val_zero] at hodd
        cases hodd
      rw [ZMod.neg_val, if_neg hne]
      omega
    have hscalar : ((order - scalar : ℕ) : ZMod order) = -scalar := by
      rw [Nat.cast_sub h.le, ZMod.natCast_self, zero_sub]
    refine ⟨x, -y, hneg, rfl, heven, ?_⟩
    rw [evenScalar, if_pos (by simpa [Point.isOdd] using hodd), nsmul_generator_of_neg hscalar,
      hpoint, WeierstrassCurve.Affine.Point.neg_some]
    simp only [negY_eq]
  · refine ⟨x, y, hxy, rfl, by omega, ?_⟩
    rw [evenScalar, if_neg (by simpa [Point.isOdd] using hodd), hpoint]

/-- This point is the one over the coordinate, when it is read from 32 bytes. -/
lemma exists_lift_mulBase {scalar : ℕ} (hpos : 0 < scalar) (h : scalar < order) :
    ∃ point, lift? (Bytes.toNatBE (Bytes.ofNatBE 32 (mulBase scalar).x)) false = some point ∧
      point.toProjective.Stands (evenScalar scalar (mulBase scalar) • generator) := by
  obtain ⟨x, y, hxy, hx, heven, hpoint⟩ := exists_even_multiple hpos h
  have hlt : x.val < 256 ^ 32 := Nat.lt_trans (ZMod.val_lt x) (by decide)
  rw [hx, Bytes.toNatBE_ofNatBE hlt, hpoint]
  exact ⟨_, lift?_of_even (nonsingular_iff.mp hxy) heven, stands_toProjective hxy⟩

/-- The two halves of a signature. -/
lemma sign_of_nonce {scalar k : ℕ} {digest : Bytes}
    (h : nonce (evenScalar scalar (mulBase scalar)) (Bytes.ofNatBE 32 (mulBase scalar).x) digest
      = k) :
    sign scalar digest = Bytes.ofNatBE 32 (mulBase k).x ++
      Bytes.ofNatBE 32 ((evenScalar k (mulBase k) + challenge (Bytes.ofNatBE 32 (mulBase k).x)
        (Bytes.ofNatBE 32 (mulBase scalar).x) digest * evenScalar scalar (mulBase scalar))
          % order) := by
  subst h
  rfl

/-- **A signature can be verified** by the key of the secret, unless its nonce is zero. -/
theorem verifies_sign {scalar : ℕ} {digest : Bytes} (hpos : 0 < scalar) (h : scalar < order)
    (hnonce : nonce (evenScalar scalar (mulBase scalar)) (Bytes.ofNatBE 32 (mulBase scalar).x)
      digest ≠ 0) :
    Verifies (Bytes.ofNatBE 32 (mulBase scalar).x) digest (sign scalar digest) := by
  generalize hk : nonce (evenScalar scalar (mulBase scalar)) (Bytes.ofNatBE 32 (mulBase scalar).x)
    digest = k at hnonce
  have hklt : k < order := hk ▸ Nat.mod_lt _ order_pos
  rw [sign_of_nonce hk]
  obtain ⟨point, hpoint, hA⟩ := exists_lift_mulBase hpos h
  obtain ⟨commitment, hcommitment, hB⟩ := exists_lift_mulBase (Nat.pos_of_ne_zero hnonce) hklt
  have hlt (n : ℕ) : n % order < 256 ^ 32 := Nat.lt_trans (Nat.mod_lt _ order_pos) (by decide)
  refine ⟨point, commitment, _, _, hpoint, ?_, hA, hB, ?_, ?_⟩
  · rw [List.take_left' (Bytes.length_ofNatBE 32 _), hcommitment]
  · rw [List.drop_left' (Bytes.length_ofNatBE 32 _), Bytes.toNatBE_ofNatBE (hlt _)]
    exact Nat.mod_lt _ order_pos
  · rw [List.take_left' (Bytes.length_ofNatBE 32 _), List.drop_left' (Bytes.length_ofNatBE 32 _),
      Bytes.toNatBE_ofNatBE (hlt _), nsmul_generator_congr (ZMod.natCast_mod _ order), add_nsmul,
      mul_nsmul']

end Schnorr

end CoinSpend
