import Mathlib.Data.Nat.Notation
import Mathlib.Tactic.Lemma
import Mathlib.Tactic.SplitIfs
import CoinSpend.Bytes.Lemmas
import CoinSpend.Curve.Der

/-!
Signatures in DER form are read back.

* `Der.toNatBE_magnitude`: leaving out leading zero bytes keeps the number.
* `Der.length_encode_le`: a signature takes at most 72 bytes, and 70 if both scalars keep
  the top bit of 32 bytes clear (`Der.length_encode_le_of_low`).
* `Der.isMinimal_integerContent`, `Der.scalarOf_integerContent`: the content of
  an integer is minimal, and the integer is not taken for a negative one.
* `Der.readInteger?_element`: hence a written integer is read back.
* `Der.decode?_encode`: so is every signature.
-/

namespace CoinSpend

namespace Der

open Ecdsa (Signature)

/-! ### The bytes of an integer -/

/-- Leading zero bytes do not count. -/
lemma toNatBE_dropWhile (b : Bytes) :
    Bytes.toNatBE (b.dropWhile (· == 0)) = Bytes.toNatBE b := by
  induction b with
  | nil => rfl
  | cons x rest ih =>
      by_cases hx : x = 0
      · rw [List.dropWhile_cons_of_pos (by simp [hx]), ih, Bytes.toNatBE_cons, hx]
        simp
      · rw [List.dropWhile_cons_of_neg (by simp [hx])]

/-- A number of 32 bytes is that of its significant bytes. -/
lemma toNatBE_magnitude {n : ℕ} (h : n < 256 ^ 32) : Bytes.toNatBE (magnitude n) = n := by
  rw [magnitude, toNatBE_dropWhile, Bytes.toNatBE_ofNatBE h]

lemma length_magnitude_le (n : ℕ) : (magnitude n).length ≤ 32 := by
  rw [magnitude]
  calc ((Bytes.ofNatBE 32 n).dropWhile (· == 0)).length
      ≤ (Bytes.ofNatBE 32 n).length := (List.dropWhile_sublist _).length_le
    _ = 32 := Bytes.length_ofNatBE 32 n

/-- The significant bytes do not start with zero. -/
lemma ne_zero_of_magnitude {n : ℕ} {b : UInt8} {rest : Bytes} (h : magnitude n = b :: rest) :
    b ≠ 0 := by
  have hdrop : (Bytes.ofNatBE 32 n).dropWhile (· == 0) = b :: rest := h
  have hhead := List.head_dropWhile_not (· == 0) (l := Bytes.ofNatBE 32 n)
    (by rw [hdrop]; exact List.cons_ne_nil b rest)
  simp only [hdrop, List.head_cons] at hhead
  simpa using hhead

/-- The three forms of the content of an integer: zero, and significant bytes with
or without a zero byte in front, which keeps the top bit clear. -/
lemma cases_of_integerContent (n : ℕ) :
    (magnitude n = [] ∧ integerContent n = [0]) ∨
      ∃ b rest, magnitude n = b :: rest ∧ b ≠ 0 ∧
        ((0x80 ≤ b ∧ integerContent n = 0 :: b :: rest) ∨
          (b < 0x80 ∧ integerContent n = b :: rest)) := by
  cases hm : magnitude n with
  | nil => exact .inl ⟨rfl, by rw [integerContent, hm]⟩
  | cons b rest =>
      refine .inr ⟨b, rest, rfl, ne_zero_of_magnitude hm, ?_⟩
      by_cases hb : 0x80 ≤ b
      · exact .inl ⟨hb, by simp only [integerContent, hm, if_pos hb]⟩
      · exact .inr ⟨UInt8.not_le.mp hb, by simp only [integerContent, hm, if_neg hb]⟩

/-- An integer takes at most 33 bytes. -/
lemma length_integerContent_le (n : ℕ) : (integerContent n).length ≤ 33 := by
  have hle := length_magnitude_le n
  rcases cases_of_integerContent n with ⟨-, hc⟩ | ⟨b, rest, hm, -, ⟨-, hc⟩ | ⟨-, hc⟩⟩
  · rw [hc]
    decide
  · rw [hc, List.length_cons, ← hm]
    omega
  · rw [hc, ← hm]
    omega

/-- A signature takes at most 72 bytes. -/
lemma length_encode_le (signature : Signature) : (encode signature).length ≤ 72 := by
  have hr := length_integerContent_le signature.r.val
  have hs := length_integerContent_le signature.s.val
  simp only [encode, element, List.length_cons, List.length_append]
  omega

/-- An integer that keeps the top bit of 32 bytes clear takes no more of them. -/
lemma length_integerContent_le_of_low {n : ℕ} (h : n < Ecdsa.lowBound) :
    (integerContent n).length ≤ 32 := by
  have hle := length_magnitude_le n
  rcases cases_of_integerContent n with ⟨-, hc⟩ | ⟨b, rest, hm, -, ⟨hb, hc⟩ | ⟨-, hc⟩⟩
  · rw [hc]
    decide
  · -- with a byte in front there are fewer than 32 significant ones
    have hread := toNatBE_magnitude (Nat.lt_trans h (by decide))
    rw [hm, Bytes.toNatBE_cons] at hread
    rw [hm, List.length_cons] at hle
    rw [hc, List.length_cons, List.length_cons]
    by_contra hlong
    have hrest : rest.length = 31 := by omega
    have htop : 0x80 ≤ b.toNat := UInt8.le_iff_toNat_le.mp hb
    rw [hrest] at hread
    rw [Ecdsa.lowBound] at h
    omega
  · rw [hc, ← hm]
    exact hle

/-- A signature with two such scalars takes at most 70 bytes. -/
lemma length_encode_le_of_low {signature : Signature} (hr : signature.r.val < Ecdsa.lowBound)
    (hs : signature.s.val < Ecdsa.lowBound) : (encode signature).length ≤ 70 := by
  have hr := length_integerContent_le_of_low hr
  have hs := length_integerContent_le_of_low hs
  simp only [encode, element, List.length_cons, List.length_append]
  omega

/-- The content of an integer is in its shortest form. -/
lemma isMinimal_integerContent (n : ℕ) : isMinimal (integerContent n) = true := by
  rcases cases_of_integerContent n with ⟨-, hc⟩ | ⟨b, rest, -, hne, ⟨hb, hc⟩ | ⟨hb, hc⟩⟩
  · rw [hc]
    rfl
  · -- the zero in front is there for the top bit
    rw [hc, isMinimal]
    simp [UInt8.not_lt.mpr hb]
  · cases rest with
    | nil => rw [hc]; rfl
    | cons c rest =>
        have hff : b ≠ 0xff := by
          rintro rfl
          exact absurd hb (by decide)
        rw [hc, isMinimal]
        simp [hne, hff]

/-- The content of a scalar is taken for the scalar. -/
lemma scalarOf_integerContent (s : Curve.Scalar) : scalarOf (integerContent s.val) = s := by
  have hs : s.val < 256 ^ 32 := Nat.lt_trans s.isLt (by decide)
  have hm := toNatBE_magnitude hs
  have hhead : (integerContent s.val).headD 0 < 0x80 := by
    rcases cases_of_integerContent s.val with ⟨-, hc⟩ | ⟨b, rest, -, -, ⟨-, hc⟩ | ⟨hb, hc⟩⟩
    · rw [hc]; decide
    · rw [hc]; simp
    · rw [hc]; exact hb
  have hnat : Bytes.toNatBE (integerContent s.val) = s.val := by
    rcases cases_of_integerContent s.val with ⟨hz, hc⟩ | ⟨b, rest, hb, -, ⟨-, hc⟩ | ⟨-, hc⟩⟩
    · rw [hc, ← hm, hz]; rfl
    · rw [hc, Bytes.toNatBE_cons, ← hb, hm]; rfl
    · rw [hc, ← hb, hm]
  rw [scalarOf]
  simp only [hhead, hnat, s.isLt, and_self, if_true]
  exact Fin.ext (Nat.mod_eq_of_lt s.isLt)

/-! ### Elements -/

/-- A short length is read back. -/
lemma readLength?_ofNat {n : ℕ} (rest : Bytes) (h : n < 128) :
    readLength? (UInt8.ofNat n :: rest) = some (n, rest) := by
  have hn : (UInt8.ofNat n).toNat = n := by
    rw [UInt8.toNat_ofNat']
    omega
  have hlt : UInt8.ofNat n < 0x80 := by
    rw [UInt8.lt_iff_toNat_lt, hn]
    exact h
  rw [readLength?, if_pos hlt, hn]

/-- A written integer is read back, and nothing more. -/
lemma readInteger?_element (s : Curve.Scalar) (rest : Bytes) :
    readInteger? (element 0x02 (integerContent s.val) ++ rest) = some (s, rest) := by
  have hle := length_integerContent_le s.val
  have hshort : ¬((integerContent s.val ++ rest).length < (integerContent s.val).length ∨
      (!isMinimal (integerContent s.val)) = true) := by
    rw [isMinimal_integerContent, List.length_append]
    simp
  rw [element, List.cons_append, List.cons_append, readInteger?,
    readLength?_ofNat _ (by omega)]
  simp only [Option.bind_eq_bind, Option.bind_some, List.take_left, List.drop_left,
    if_neg hshort, scalarOf_integerContent]

/-- A signature is read back from its written form. -/
theorem decode?_encode (signature : Signature) :
    decode? (encode signature) = some signature := by
  have hr := length_integerContent_le signature.r.val
  have hs := length_integerContent_le signature.s.val
  rw [encode, element, decode?, readLength?_ofNat _ (by simp [element]; omega)]
  simp only [Option.bind_eq_bind, Option.bind_some, ne_eq, not_true_eq_false, if_false,
    readInteger?_element]
  rw [← List.append_nil (element 0x02 (integerContent signature.s.val)), readInteger?_element]
  rfl

end Der

end CoinSpend
