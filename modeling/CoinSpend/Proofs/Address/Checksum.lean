import Mathlib.Algebra.Order.Ring.Nat
import Mathlib.Data.List.Induction
import Mathlib.Tactic.Lemma
import CoinSpend.Address.Bech32

/-!
The checksum of witness addresses is the one row of symbols that fits.

* `Bech32.advance_xor`: without a symbol to take in, the register is linear in
  exclusive or.
* `Bech32.foldl_step`: hence up to six symbols are added to what as many zeros
  would leave, namely as the number that they make up.
* `Bech32.ofNat_number_eq_iff`: six symbols and a register are the same thing.
* `Bech32.isValid_append_iff`: so exactly one row of six symbols makes a text valid,
  and `Bech32.checksum` is this row.
-/

namespace CoinSpend

namespace Bech32

/-! ### The register without symbols -/

/-- Adds a feedback word, if its bit leaves the register. -/
def tap (register acc : BitVec 30) (entry : BitVec 30 × ℕ) : BitVec 30 :=
  if register.getLsbD (25 + entry.2) then acc ^^^ entry.1 else acc

lemma feedback_eq (register : BitVec 30) :
    feedback register = generators.zipIdx.foldl (tap register) 0 := rfl

/-- The register after one symbol of value zero. -/
def advance (register : BitVec 30) : BitVec 30 :=
  (register <<< 5) ^^^ feedback register

lemma step_eq (register : BitVec 30) (value : ℕ) :
    step register value = advance register ^^^ BitVec.ofNat 30 value := by
  rw [step, advance, BitVec.xor_assoc, BitVec.xor_assoc,
    BitVec.xor_comm (BitVec.ofNat 30 value)]

lemma tap_xor (a b x y : BitVec 30) (entry : BitVec 30 × ℕ) :
    tap (a ^^^ b) (x ^^^ y) entry = tap a x entry ^^^ tap b y entry := by
  have hswap : x ^^^ y ^^^ entry.1 = x ^^^ entry.1 ^^^ y := by
    rw [BitVec.xor_assoc, BitVec.xor_comm y, BitVec.xor_assoc]
  have hcancel : x ^^^ entry.1 ^^^ (y ^^^ entry.1) = x ^^^ y := by
    rw [BitVec.xor_comm y, BitVec.xor_assoc, ← BitVec.xor_assoc entry.1, BitVec.xor_self,
      BitVec.zero_xor]
  rw [tap, tap, tap, BitVec.getLsbD_xor]
  cases a.getLsbD (25 + entry.2) <;> cases b.getLsbD (25 + entry.2)
  · rfl
  · exact BitVec.xor_assoc x y entry.1
  · exact hswap
  · exact hcancel.symm

/-- The feedback is linear. -/
lemma feedback_xor (a b : BitVec 30) : feedback (a ^^^ b) = feedback a ^^^ feedback b := by
  have hfold (entries : List (BitVec 30 × ℕ)) (x y : BitVec 30) :
      entries.foldl (tap (a ^^^ b)) (x ^^^ y)
        = entries.foldl (tap a) x ^^^ entries.foldl (tap b) y := by
    induction entries generalizing x y with
    | nil => rfl
    | cons entry entries ih => rw [List.foldl_cons, tap_xor, ih]; rfl
  rw [feedback_eq, feedback_eq, feedback_eq, ← hfold]
  rfl

/-- So is the register without symbols. -/
lemma advance_xor (a b : BitVec 30) : advance (a ^^^ b) = advance a ^^^ advance b := by
  have hshift : (a ^^^ b) <<< 5 = (a <<< 5) ^^^ (b <<< 5) := BitVec.shiftLeft_xor_distrib a b 5
  rw [advance, advance, advance, feedback_xor, hshift, BitVec.xor_assoc, BitVec.xor_assoc,
    ← BitVec.xor_assoc (b <<< 5), BitVec.xor_comm (b <<< 5), BitVec.xor_assoc (feedback a)]

/-- There is no feedback as long as no bit leaves the register. -/
lemma feedback_of_lt {register : BitVec 30} (h : register.toNat < 2 ^ 25) :
    feedback register = 0 := by
  have hbit (i : ℕ) : register.getLsbD (25 + i) = false := by
    have hle : 2 ^ 25 ≤ 2 ^ (25 + i) := Nat.pow_le_pow_right (by decide) (Nat.le_add_right 25 i)
    exact Nat.testBit_lt_two_pow (Nat.lt_of_lt_of_le h hle)
  have hfold (entries : List (BitVec 30 × ℕ)) (x : BitVec 30) :
      entries.foldl (tap register) x = x := by
    induction entries generalizing x with
    | nil => rfl
    | cons entry entries ih =>
        rw [List.foldl_cons, ih, tap, hbit]
        rfl
  rw [feedback_eq, hfold]

/-! ### The number that symbols make up -/

/-- The number that symbols make up, the first one highest. -/
def number (values : List ℕ) : ℕ :=
  values.foldl (fun n v => 32 * n + v) 0

lemma number_append_singleton (values : List ℕ) (v : ℕ) :
    number (values ++ [v]) = 32 * number values + v := by
  rw [number, List.foldl_append]
  rfl

lemma number_lt {values : List ℕ} (h : ∀ v ∈ values, v < 32) :
    number values < 32 ^ values.length := by
  induction values using List.reverseRecOn with
  | nil => decide
  | append_singleton values v ih =>
      have hv := h v (by simp)
      have hrest := ih fun w hw => h w (List.mem_append_left [v] hw)
      rw [number_append_singleton, List.length_append, List.length_singleton, Nat.pow_succ]
      omega

/-- A number moves up by one symbol as long as it has fewer than six. -/
lemma advance_ofNat {n : ℕ} (h : n < 2 ^ 25) :
    advance (BitVec.ofNat 30 n) = BitVec.ofNat 30 (32 * n) := by
  have hn : (BitVec.ofNat 30 n).toNat = n := by
    rw [BitVec.toNat_ofNat]
    exact Nat.mod_eq_of_lt (by omega)
  have hfeedback : feedback (BitVec.ofNat 30 n) = 0#30 := feedback_of_lt (by rwa [hn])
  rw [advance, hfeedback, BitVec.xor_zero]
  apply BitVec.eq_of_toNat_eq
  rw [BitVec.toNat_shiftLeft, hn, BitVec.toNat_ofNat, Nat.shiftLeft_eq, Nat.mul_comm]

/-- A symbol takes the place that was made for it. -/
lemma ofNat_xor_ofNat {n v : ℕ} (hv : v < 32) :
    BitVec.ofNat 30 (32 * n) ^^^ BitVec.ofNat 30 v = BitVec.ofNat 30 (32 * n + v) := by
  have hadd : 32 * n ^^^ v = 32 * n + v := by
    have hv : v < 2 ^ 5 := hv
    apply Nat.eq_of_testBit_eq
    intro i
    have hsum := Nat.testBit_two_pow_mul_add n hv i
    have hhigh := Nat.testBit_two_pow_mul (i := 5) (a := n) (j := i)
    rw [show 32 = 2 ^ 5 from rfl, Nat.testBit_xor, hsum, hhigh]
    by_cases hi : i < 5
    · simp [hi, Nat.not_le.mpr hi]
    · have hnone : v.testBit i = false :=
        Nat.testBit_lt_two_pow
          (Nat.lt_of_lt_of_le hv (Nat.pow_le_pow_right (by decide) (Nat.not_lt.mp hi)))
      simp [hi, hnone]
      omega
  rw [← BitVec.ofNat_xor, hadd]

/-- At most six symbols are added to what as many zeros would leave. -/
lemma foldl_step {values : List ℕ} (hlength : values.length ≤ 6) (h : ∀ v ∈ values, v < 32)
    (register : BitVec 30) :
    values.foldl step register
      = (List.replicate values.length 0).foldl step register
        ^^^ BitVec.ofNat 30 (number values) := by
  induction values using List.reverseRecOn with
  | nil => exact (BitVec.xor_zero).symm
  | append_singleton values v ih =>
      rw [List.length_append, List.length_singleton] at hlength
      have hv := h v (by simp)
      have hinit : ∀ w ∈ values, w < 32 := fun w hw => h w (List.mem_append_left [v] hw)
      have hlt : number values < 2 ^ 25 :=
        calc number values < 32 ^ values.length := number_lt hinit
          _ ≤ 32 ^ 5 := Nat.pow_le_pow_right (by decide) (by omega)
          _ = 2 ^ 25 := by decide
      rw [List.foldl_append, List.foldl_cons, List.foldl_nil, ih (by omega) hinit, step_eq,
        advance_xor, advance_ofNat hlt, BitVec.xor_assoc, ofNat_xor_ofNat hv,
        ← number_append_singleton, List.length_append, List.length_singleton,
        List.replicate_succ', List.foldl_append, List.foldl_cons, List.foldl_nil, step_eq,
        BitVec.xor_zero]

/-! ### The checksum -/

/-- The six symbols of a register. -/
def symbolsOfRegister (register : BitVec 30) : List ℕ :=
  [25, 20, 15, 10, 5, 0].map fun shift => (register >>> shift).toNat % 32

/-- Six symbols and a register are the same thing. -/
lemma ofNat_number_eq_iff {values : List ℕ} (hlength : values.length = 6)
    (h : ∀ v ∈ values, v < 32) {register : BitVec 30} :
    BitVec.ofNat 30 (number values) = register ↔ values = symbolsOfRegister register := by
  have hlt := register.isLt
  have hnumber : number values < 2 ^ 30 := by
    have hpow := number_lt h
    rwa [hlength] at hpow
  have hnat : BitVec.ofNat 30 (number values) = register ↔ number values = register.toNat := by
    rw [← BitVec.toNat_inj, BitVec.toNat_ofNat, Nat.mod_eq_of_lt hnumber]
  have hdigits : symbolsOfRegister register
      = [register.toNat / 2 ^ 25 % 32, register.toNat / 2 ^ 20 % 32,
        register.toNat / 2 ^ 15 % 32, register.toNat / 2 ^ 10 % 32,
        register.toNat / 2 ^ 5 % 32, register.toNat / 2 ^ 0 % 32] := by
    simp only [symbolsOfRegister, List.map_cons, List.map_nil, BitVec.toNat_ushiftRight,
      Nat.shiftRight_eq_div_pow]
  obtain ⟨a, b, c, d, e, f, rfl⟩ : ∃ a b c d e f, values = [a, b, c, d, e, f] := by
    match values, hlength with
    | [a, b, c, d, e, f], _ => exact ⟨a, b, c, d, e, f, rfl⟩
  obtain ⟨ha, hb, hc, hd, he, hf⟩ : a < 32 ∧ b < 32 ∧ c < 32 ∧ d < 32 ∧ e < 32 ∧ f < 32 := by
    simpa using h
  have hsum : number [a, b, c, d, e, f]
      = 32 * (32 * (32 * (32 * (32 * (32 * 0 + a) + b) + c) + d) + e) + f := rfl
  rw [hnat, hdigits, hsum]
  simp only [List.cons.injEq, and_true]
  constructor
  · intro heq
    refine ⟨?_, ?_, ?_, ?_, ?_, ?_⟩ <;> omega
  · rintro ⟨ha', hb', hc', hd', he', hf'⟩
    omega

/-- Exactly one row of six symbols at the end is right. -/
theorem isValid_append_iff {hrp : List Char} {version : ℕ} {values last : List ℕ}
    (hlength : last.length = 6) (h : ∀ v ∈ last, v < 32) :
    isValid hrp version (values ++ last) = true ↔ last = checksum hrp version values := by
  have hresidue : residue (prefixValues hrp ++ (values ++ last))
      = residue (prefixValues hrp ++ values ++ List.replicate 6 0)
        ^^^ BitVec.ofNat 30 (number last) := by
    rw [← List.append_assoc, residue, List.foldl_append, foldl_step (Nat.le_of_eq hlength) h,
      hlength, ← List.foldl_append]
    rfl
  have hxor (x y z : BitVec 30) : x ^^^ y = z ↔ y = x ^^^ z := by
    constructor
    · rintro rfl
      rw [← BitVec.xor_assoc, BitVec.xor_self, BitVec.zero_xor]
    · rintro rfl
      rw [← BitVec.xor_assoc, BitVec.xor_self, BitVec.zero_xor]
  rw [isValid, beq_iff_eq, hresidue, hxor, ofNat_number_eq_iff hlength h]
  rfl

end Bech32

end CoinSpend
