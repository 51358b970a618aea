import Mathlib.Algebra.Order.Ring.Nat
import Mathlib.Data.List.Induction
import Mathlib.Tactic.Lemma
import Mathlib.Tactic.SplitIfs
import CoinSpend.Address.Bech32

/-!
Bytes as symbols of five bits, and back.

* `Bits.ofNat_toNat`, `Bits.toNat_ofNat`: numbers of a width and rows of as many
  bits are the same.
* `Bits.groups_flatMap`: cutting takes apart what was put together from rows of
  one length.
* `Bech32.flatMap_symbolsOf`: the bits of the symbols are those of the bytes and
  the fewest zeros that fill the last symbol.
* `Bech32.ofSymbols?_toSymbols`: hence the bytes are read back from their symbols.
* `Bech32.toSymbols_of_ofSymbols?`: and from no others, since what is left over
  has to be these zeros.
-/

namespace CoinSpend

namespace Bits

/-! ### Numbers and bits -/

@[simp] lemma length_ofNat (n v : ℕ) : (ofNat n v).length = n := by
  induction n with
  | zero => rfl
  | succ n ih => rw [ofNat, List.length_cons, ih]

/-- A bit at the end counts once, the others twice. -/
lemma toNat_append_singleton (bits : List Bool) (b : Bool) :
    toNat (bits ++ [b]) = 2 * toNat bits + b.toNat := by
  rw [toNat, List.foldl_append]
  rfl

/-- The lowest bit stands at the end. -/
lemma ofNat_succ (n v : ℕ) : ofNat (n + 1) v = ofNat n (v / 2) ++ [v.testBit 0] := by
  induction n with
  | zero => rfl
  | succ n ih => rw [ofNat, ih, ofNat, Nat.testBit_add_one, List.cons_append]

lemma toNat_lt (bits : List Bool) : toNat bits < 2 ^ bits.length := by
  induction bits using List.reverseRecOn with
  | nil => decide
  | append_singleton bits b ih =>
      have hb := b.toNat_lt
      rw [toNat_append_singleton, List.length_append, List.length_singleton, Nat.pow_succ]
      omega

/-- The bits of a number of this width make up the number. -/
lemma toNat_ofNat {n v : ℕ} (h : v < 2 ^ n) : toNat (ofNat n v) = v := by
  induction n generalizing v with
  | zero =>
      have hv : v = 0 := by simpa using h
      rw [hv]
      rfl
  | succ n ih =>
      have hhalf : v / 2 < 2 ^ n := by
        rw [Nat.pow_succ] at h
        omega
      rw [ofNat_succ, toNat_append_singleton, ih hhalf, Nat.testBit_zero]
      by_cases hodd : v % 2 = 1
      · simp [hodd]
        omega
      · simp [hodd]
        omega

/-- The number of some bits has these bits. -/
lemma ofNat_toNat (bits : List Bool) : ofNat bits.length (toNat bits) = bits := by
  induction bits using List.reverseRecOn with
  | nil => rfl
  | append_singleton bits b ih =>
      have hhalf : (2 * toNat bits + b.toNat) / 2 = toNat bits := by
        have hb := b.toNat_lt
        omega
      have hlow : (2 * toNat bits + b.toNat).testBit 0 = b := by
        rw [Nat.testBit_zero]
        cases b
        · simp
        · simp
      rw [List.length_append, List.length_singleton, ofNat_succ, toNat_append_singleton, hhalf, ih,
        hlow]

/-! ### Groups -/

lemma groups_nil (n : ℕ) : groups n [] = [] := by
  rw [groups]
  simp

/-- Bits that are not cut up yet lose their first group. -/
lemma groups_of_ne_nil {n : ℕ} {bits : List Bool} (hn : 0 < n) (h : bits ≠ []) :
    groups n bits = bits.take n :: groups n (bits.drop n) := by
  rw [groups, dif_pos ⟨hn, h⟩]

/-- Rows of one length add up. -/
lemma length_flatMap {α : Type} {n : ℕ} {f : α → List Bool} (h : ∀ x, (f x).length = n)
    (xs : List α) : (xs.flatMap f).length = n * xs.length := by
  induction xs with
  | nil => rfl
  | cons x xs ih =>
      rw [List.flatMap_cons, List.length_append, h x, ih, List.length_cons, Nat.mul_succ,
        Nat.add_comm]

/-- Rows of one length are cut apart again. -/
lemma groups_flatMap {α : Type} {n : ℕ} (hn : 0 < n) {f : α → List Bool}
    (h : ∀ x, (f x).length = n) (xs : List α) : groups n (xs.flatMap f) = xs.map f := by
  induction xs with
  | nil => exact groups_nil n
  | cons x xs ih =>
      have hne : f x ++ xs.flatMap f ≠ [] := by
        refine List.append_ne_nil_of_left_ne_nil ?_ _
        rw [← List.length_pos_iff, h x]
        exact hn
      rw [List.flatMap_cons, groups_of_ne_nil hn hne, List.take_left' (h x), List.drop_left' (h x),
        ih, List.map_cons]

end Bits

namespace Bech32

/-! ### The symbols of bits -/

/-- Bits in symbols of five, the last one filled up with zeros. -/
def symbolsOf (bits : List Bool) : List ℕ :=
  (Bits.groups 5 bits).map fun group => Bits.toNat (Bits.fill 5 group)

/-- The bits of bytes. -/
def bitsOf (program : Bytes) : List Bool :=
  program.flatMap fun b => Bits.ofNat 8 b.toNat

lemma toSymbols_eq (program : Bytes) : toSymbols program = symbolsOf (bitsOf program) := rfl

/-- The number of zeros that fill up the last symbol. -/
def padding (length : ℕ) : ℕ :=
  (5 - length % 5) % 5

lemma length_bitsOf (program : Bytes) : (bitsOf program).length = 8 * program.length := by
  rw [bitsOf, Bits.length_flatMap fun b : UInt8 => Bits.length_ofNat 8 b.toNat]

lemma length_fill {group : List Bool} (h : group.length ≤ 5) : (Bits.fill 5 group).length = 5 := by
  rw [Bits.fill, List.length_append, List.length_replicate]
  omega

/-- A group that is filled up is read as five bits. -/
lemma ofNat_toNat_fill {group : List Bool} (h : group.length ≤ 5) :
    Bits.ofNat 5 (Bits.toNat (Bits.fill 5 group))
      = group ++ List.replicate (5 - group.length) false := by
  have hbits := Bits.ofNat_toNat (Bits.fill 5 group)
  rwa [length_fill h] at hbits

/-- The first symbol holds five bits, or all bits if there are fewer. -/
lemma symbolsOf_of_ne_nil {bits : List Bool} (h : bits ≠ []) :
    symbolsOf bits = Bits.toNat (Bits.fill 5 (bits.take 5)) :: symbolsOf (bits.drop 5) := by
  rw [symbolsOf, Bits.groups_of_ne_nil (by decide) h, List.map_cons]
  rfl

/-- The bits of the symbols are the given ones, and the zeros that fill up the
last symbol. -/
lemma flatMap_symbolsOf (bits : List Bool) :
    (symbolsOf bits).flatMap (Bits.ofNat 5)
      = bits ++ List.replicate (padding bits.length) false := by
  induction bits using Bits.groups.induct 5 with
  | case1 bits h _ ih =>
      rw [symbolsOf_of_ne_nil h.2, List.flatMap_cons, ih,
        ofNat_toNat_fill (List.length_take_le 5 bits), List.length_take, List.length_drop]
      by_cases hfull : 5 ≤ bits.length
      · have hpadding : padding (bits.length - 5) = padding bits.length := by
          rw [padding, padding]
          omega
        rw [Nat.min_eq_left hfull, hpadding, Nat.sub_self, List.replicate_zero, List.append_nil,
          ← List.append_assoc, List.take_append_drop]
      · -- the last symbol takes all bits and is filled up
        have hlast : padding bits.length = 5 - bits.length := by
          have hpos := List.length_pos_iff.mpr h.2
          rw [padding]
          omega
        have hshort : bits.length ≤ 5 := by omega
        have hnone : padding (bits.length - 5) = 0 := by
          rw [Nat.sub_eq_zero_of_le hshort]
          rfl
        rw [List.take_of_length_le hshort, List.drop_of_length_le hshort, Nat.min_eq_right hshort,
          hnone, hlast]
        simp
  | case2 bits h =>
      obtain rfl : bits = [] := by simpa using h
      rw [symbolsOf, Bits.groups_nil]
      rfl

/-- Symbols have values below 32. -/
lemma lt_of_mem_symbolsOf (bits : List Bool) : ∀ v ∈ symbolsOf bits, v < 32 := by
  induction bits using Bits.groups.induct 5 with
  | case1 bits h _ ih =>
      have hlt := Bits.toNat_lt (Bits.fill 5 (bits.take 5))
      rw [length_fill (List.length_take_le 5 bits)] at hlt
      rw [symbolsOf_of_ne_nil h.2]
      exact List.forall_mem_cons.mpr ⟨hlt, ih⟩
  | case2 bits h =>
      obtain rfl : bits = [] := by simpa using h
      rw [symbolsOf, Bits.groups_nil]
      simp

/-- Symbols are known from their bits. -/
lemma eq_of_flatMap_eq {values others : List ℕ} (hvalues : ∀ v ∈ values, v < 32)
    (hothers : ∀ v ∈ others, v < 32)
    (h : values.flatMap (Bits.ofNat 5) = others.flatMap (Bits.ofNat 5)) : values = others := by
  have hback {xs : List ℕ} (hxs : ∀ v ∈ xs, v < 32) :
      (Bits.groups 5 (xs.flatMap (Bits.ofNat 5))).map Bits.toNat = xs := by
    rw [Bits.groups_flatMap (by decide) (Bits.length_ofNat 5), List.map_map]
    refine (List.map_congr_left fun v hv => ?_).trans (List.map_id xs)
    exact Bits.toNat_ofNat (hxs v hv)
  rw [← hback hvalues, h, hback hothers]

/-! ### Bytes and symbols -/

/-- The bytes of bits in groups of eight. -/
def bytesOf (bits : List Bool) : Bytes :=
  (Bits.groups 8 bits).map fun group => UInt8.ofNat (Bits.toNat group)

/-- The bytes that were put in bits. -/
lemma bytesOf_bitsOf (program : Bytes) : bytesOf (bitsOf program) = program := by
  rw [bytesOf, bitsOf, Bits.groups_flatMap (by decide) fun b : UInt8 => Bits.length_ofNat 8 b.toNat,
    List.map_map]
  refine (List.map_congr_left fun b _ => ?_).trans (List.map_id program)
  have hb : b.toNat < 2 ^ 8 := b.toNat_lt
  rw [Function.comp_apply, Bits.toNat_ofNat hb, UInt8.ofNat_toNat, id]

/-- Bits that make whole bytes are the bits of these bytes. -/
lemma bitsOf_bytesOf {bits : List Bool} (h : 8 ∣ bits.length) : bitsOf (bytesOf bits) = bits := by
  induction bits using Bits.groups.induct 8 with
  | case1 bits hne _ ih =>
      have hpos := List.length_pos_iff.mpr hne.2
      have htake : (bits.take 8).length = 8 := by
        rw [List.length_take]
        omega
      have hrest : 8 ∣ (bits.drop 8).length := by
        rw [List.length_drop]
        omega
      have hlt := Bits.toNat_lt (bits.take 8)
      rw [htake] at hlt
      have hgroup := Bits.ofNat_toNat (bits.take 8)
      rw [htake] at hgroup
      have hbyte : (UInt8.ofNat (Bits.toNat (bits.take 8))).toNat = Bits.toNat (bits.take 8) := by
        rw [UInt8.toNat_ofNat']
        exact Nat.mod_eq_of_lt hlt
      have hcons : bytesOf bits
          = UInt8.ofNat (Bits.toNat (bits.take 8)) :: bytesOf (bits.drop 8) := by
        rw [bytesOf, Bits.groups_of_ne_nil (by decide) hne.2, List.map_cons]
        rfl
      rw [hcons, bitsOf, List.flatMap_cons, hbyte, hgroup]
      exact (congrArg (bits.take 8 ++ ·) (ih hrest)).trans (List.take_append_drop 8 bits)
  | case2 bits hnil =>
      obtain rfl : bits = [] := by simpa using hnil
      rw [bytesOf, Bits.groups_nil]
      rfl

/-- What symbols stand for: their bits make whole bytes, up to at most four zeros. -/
lemma ofSymbols?_eq_some_iff {values : List ℕ} {program : Bytes} :
    ofSymbols? values = some program ↔
      ∃ k ≤ 4, values.flatMap (Bits.ofNat 5) = bitsOf program ++ List.replicate k false := by
  have hread : ofSymbols? values =
      if ((values.flatMap (Bits.ofNat 5)).drop
          ((values.flatMap (Bits.ofNat 5)).length / 8 * 8)).length ≤ 4 ∧
        ((values.flatMap (Bits.ofNat 5)).drop
          ((values.flatMap (Bits.ofNat 5)).length / 8 * 8)).all (!·)
      then some (bytesOf ((values.flatMap (Bits.ofNat 5)).take
        ((values.flatMap (Bits.ofNat 5)).length / 8 * 8)))
      else none := rfl
  rw [hread]
  generalize values.flatMap (Bits.ofNat 5) = bits
  constructor
  · intro h
    split_ifs at h with hrest
    obtain rfl := Option.some.inj h
    obtain ⟨hlength, hzeros⟩ := hrest
    have hwhole : 8 ∣ (bits.take (bits.length / 8 * 8)).length := by
      rw [List.length_take, Nat.min_eq_left (Nat.div_mul_le_self _ _)]
      exact Nat.dvd_mul_left 8 _
    have hreplicate : bits.drop (bits.length / 8 * 8)
        = List.replicate (bits.drop (bits.length / 8 * 8)).length false :=
      List.eq_replicate_iff.mpr ⟨rfl, by simpa using hzeros⟩
    refine ⟨_, hlength, ?_⟩
    rw [bitsOf_bytesOf hwhole, ← hreplicate, List.take_append_drop]
  · rintro ⟨k, hk, rfl⟩
    have hwhole : (bitsOf program ++ List.replicate k false).length / 8 * 8
        = (bitsOf program).length := by
      rw [List.length_append, List.length_replicate, length_bitsOf]
      omega
    rw [hwhole, List.drop_left, List.take_left, bytesOf_bitsOf, if_pos]
    simpa using hk

/-- Bytes are read back from their symbols. -/
theorem ofSymbols?_toSymbols (program : Bytes) : ofSymbols? (toSymbols program) = some program := by
  refine ofSymbols?_eq_some_iff.mpr ⟨padding (bitsOf program).length, ?_, ?_⟩
  · rw [padding]
    omega
  · rw [toSymbols_eq, flatMap_symbolsOf]

/-- Bytes are read from their own symbols only. -/
theorem toSymbols_of_ofSymbols? {values : List ℕ} {program : Bytes}
    (hvalues : ∀ v ∈ values, v < 32) (h : ofSymbols? values = some program) :
    toSymbols program = values := by
  obtain ⟨k, hk, hbits⟩ := ofSymbols?_eq_some_iff.mp h
  have hlength : 5 * values.length = (bitsOf program).length + k := by
    have hcount := congrArg List.length hbits
    rwa [Bits.length_flatMap (Bits.length_ofNat 5), List.length_append,
      List.length_replicate] at hcount
  -- fewer than five zeros fill up the last symbol in one way only
  have hpadding : padding (bitsOf program).length = k := by
    rw [padding]
    omega
  rw [toSymbols_eq]
  refine eq_of_flatMap_eq (lt_of_mem_symbolsOf _) hvalues ?_
  rw [flatMap_symbolsOf, hpadding, hbits]

end Bech32

end CoinSpend
