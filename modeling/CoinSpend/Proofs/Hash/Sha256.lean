import Mathlib.Data.List.GetD
import Mathlib.Data.Nat.Digits.Defs
import Mathlib.Tactic.Lemma
import CoinSpend.Bytes.Lemmas
import CoinSpend.Hash.Sha256

/-!
SHA-256 in numbers.

The same digest without words of a fixed width: a word is a number below `2 ^ 32`, a
block is one number, and the words that a round may still need are a window of sixteen
in it. What is computed with numbers is evaluated much faster than with words.

* `Sha256.Numbers`: a state in numbers. `Sha256.numbers_round`: a round.
* `Sha256.slide`: the window after one more word. `Sha256.slide_window`: it holds the
  sixteen words of the message schedule that were made last.
* `Sha256.feed`: the words in the order in which the rounds take them.
  `Sha256.toList_schedule`: these are the words of the schedule.
* `Sha256.numbers_compress`, `Sha256.numbers_absorb`: blocks taken in.
* `sha256_eq_digest`: hence the digest.
-/

namespace CoinSpend

namespace Sha256

/-! ### Words -/

/-- The number of words. -/
def radix : ℕ :=
  2 ^ 32

/-- Rotation to the right. -/
def rotate (x n : ℕ) : ℕ :=
  x >>> n ||| (x <<< (32 - n)) % radix

/-- Rotations by a proper part of a word. -/
lemma toNat_rotr (x : UInt32) {n : UInt32} (hpos : 0 < n.toNat) (hlt : n.toNat < 32) :
    (rotr x n).toNat = rotate x.toNat n.toNat := by
  have hsub : (32 - n).toNat = 32 - n.toNat := UInt32.toNat_sub_of_le _ _ (by
    rw [UInt32.le_iff_toNat_le]
    exact Nat.le_of_lt hlt)
  have hback : (32 - n.toNat) % 32 = 32 - n.toNat := Nat.mod_eq_of_lt (by omega)
  rw [rotr, UInt32.toNat_or, UInt32.toNat_shiftRight, UInt32.toNat_shiftLeft, hsub, hback,
    Nat.mod_eq_of_lt hlt, rotate, radix]

/-! ### Rounds -/

/-- A state in numbers. -/
structure Numbers where
  a : ℕ
  b : ℕ
  c : ℕ
  d : ℕ
  e : ℕ
  f : ℕ
  g : ℕ
  h : ℕ

/-- The numbers of a state. -/
def State.numbers (s : State) : Numbers :=
  ⟨s.a.toNat, s.b.toNat, s.c.toNat, s.d.toNat, s.e.toNat, s.f.toNat, s.g.toNat, s.h.toNat⟩

namespace Numbers

/-- One round, with its constant `k` and its schedule word `w`. -/
def round (s : Numbers) (k w : ℕ) : Numbers :=
  let s₁ := rotate s.e 6 ^^^ rotate s.e 11 ^^^ rotate s.e 25
  let ch := (s.e &&& s.f) ^^^ ((s.e ^^^ 0xffffffff) &&& s.g)
  let t₁ := s.h + s₁ + ch + k + w
  let s₀ := rotate s.a 2 ^^^ rotate s.a 13 ^^^ rotate s.a 22
  let maj := (s.a &&& s.b) ^^^ (s.a &&& s.c) ^^^ (s.b &&& s.c)
  ⟨(t₁ + s₀ + maj) % radix, s.a, s.b, s.c, (s.d + t₁) % radix, s.e, s.f, s.g⟩

/-- The sum of two states, word by word. -/
def add (s t : Numbers) : Numbers :=
  ⟨(s.a + t.a) % radix, (s.b + t.b) % radix, (s.c + t.c) % radix, (s.d + t.d) % radix,
    (s.e + t.e) % radix, (s.f + t.f) % radix, (s.g + t.g) % radix, (s.h + t.h) % radix⟩

end Numbers

/-- A round takes numbers to numbers. -/
lemma numbers_round (s : State) (k w : UInt32) :
    (s.round k w).numbers = s.numbers.round k.toNat w.toNat := by
  simp (disch := decide) only [State.numbers, State.round, Numbers.round, radix, toNat_rotr,
    UInt32.toNat_add, UInt32.toNat_xor, UInt32.toNat_and, UInt32.reduceToNat, Nat.add_mod_mod,
    Nat.mod_add_mod]

/-- So does the sum of two states. -/
lemma numbers_add (s t : State) : (s.add t).numbers = s.numbers.add t.numbers := by
  simp only [State.numbers, State.add, Numbers.add, radix, UInt32.toNat_add]

/-! ### The message schedule -/

/-- The word that follows in the schedule, after words of which the latest one comes
first. -/
def nextWord (ws : List UInt32) : UInt32 :=
  let x := ws.getD 14 0
  let y := ws.getD 1 0
  let s₀ := rotr x 7 ^^^ rotr x 18 ^^^ (x >>> 3)
  let s₁ := rotr y 17 ^^^ rotr y 19 ^^^ (y >>> 10)
  ws.getD 15 0 + s₀ + ws.getD 6 0 + s₁

/-- The words of the schedule with one more, the latest one first. -/
def extend (ws : List UInt32) : List UInt32 :=
  nextWord ws :: ws

lemma reverse_extendSchedule {w : Array UInt32} (h : 16 ≤ w.size) :
    (extendSchedule w).toList.reverse = extend w.toList.reverse := by
  have hget (i : ℕ) (hi : i < 16) : w.toList.reverse.getD i 0 = w.getD (w.size - 1 - i) 0 := by
    rw [List.getD_eq_getElem?_getD, List.getElem?_reverse (by rw [Array.length_toList]; omega),
      Array.length_toList, Array.getElem?_toList, Array.getD_eq_getD_getElem?]
  simp only [extendSchedule, extend, nextWord, Array.toList_push, List.reverse_append,
    List.reverse_singleton, List.singleton_append, hget 15 (by decide), hget 14 (by decide),
    hget 6 (by decide), hget 1 (by decide), Nat.sub_sub, Nat.reduceAdd]

lemma length_iterate_extend (n : ℕ) (ws : List UInt32) :
    (extend^[n] ws).length = n + ws.length := by
  induction n generalizing ws with
  | zero => rw [Function.iterate_zero_apply, Nat.zero_add]
  | succ n ih =>
      rw [Function.iterate_succ_apply, ih, extend, List.length_cons]
      omega

lemma drop_iterate_extend (n : ℕ) (ws : List UInt32) : (extend^[n] ws).drop n = ws := by
  induction n with
  | zero => rfl
  | succ n ih => rw [Function.iterate_succ_apply', extend, List.drop_succ_cons, ih]

/-- The next `n` words in the order in which the rounds take them: each is the oldest of
the sixteen that were made last. -/
def feed : ℕ → List UInt32 → List UInt32
  | 0, _ => []
  | n + 1, ws => ws.getD 15 0 :: feed n (extend ws)

lemma feed_eq (n : ℕ) {ws : List UInt32} (h : 16 ≤ ws.length) :
    feed n ws = (((extend^[n] ws).drop 16).take n).reverse := by
  induction n generalizing ws with
  | zero => rfl
  | succ n ih =>
      have hlong : 16 ≤ (extend ws).length := Nat.le_succ_of_le h
      -- the oldest of the sixteen words stands behind the words that are fed later
      have hlast : ((extend^[n] (extend ws)).drop 16)[n]? = some (ws.getD 15 0) := by
        rw [List.getElem?_drop, Nat.add_comm, ← List.getElem?_drop, drop_iterate_extend, extend,
          List.getElem?_cons_succ, List.getElem?_eq_getElem h, List.getD_eq_getElem _ _ h]
      rw [feed, ih hlong, Function.iterate_succ_apply, List.take_add_one, hlast,
        Option.toList_some, List.reverse_append, List.reverse_singleton, List.singleton_append]

/-- The schedule of a block. -/
lemma toList_schedule {block : Bytes} (h : (words block).length = 16) :
    (schedule block).toList = feed 64 (words block).reverse := by
  have hiterate (n : ℕ) : 16 ≤ (extendSchedule^[n] (words block).toArray).size ∧
      (extendSchedule^[n] (words block).toArray).toList.reverse
        = extend^[n] (words block).reverse := by
    induction n with
    | zero => exact ⟨Nat.le_of_eq h.symm, rfl⟩
    | succ n ih =>
        obtain ⟨hsize, hwords⟩ := ih
        rw [Function.iterate_succ_apply', Function.iterate_succ_apply', ← hwords]
        exact ⟨by rw [extendSchedule, Array.size_push]; omega, reverse_extendSchedule hsize⟩
  have hschedule : (schedule block).toList.reverse = extend^[48] (words block).reverse := by
    rw [schedule, List.foldl_const, List.length_range]
    exact (hiterate 48).2
  have hlength : (extend^[48] (words block).reverse).length = 64 := by
    rw [length_iterate_extend, List.length_reverse, h]
  have hsplit : extend^[64] (words block).reverse
      = extend^[16] (extend^[48] (words block).reverse) :=
    Function.iterate_add_apply extend 16 48 _
  rw [feed_eq 64 (by rw [List.length_reverse, h]), hsplit, drop_iterate_extend,
    List.take_of_length_le (Nat.le_of_eq hlength), ← hschedule, List.reverse_reverse]

/-! ### The window -/

/-- The word that follows, made from four of the last sixteen, the oldest of them
first. -/
def nextNumber (w₀ w₁ w₉ w₁₄ : ℕ) : ℕ :=
  (w₀ + (rotate w₁ 7 ^^^ rotate w₁ 18 ^^^ w₁ >>> 3) + w₉
    + (rotate w₁₄ 17 ^^^ rotate w₁₄ 19 ^^^ w₁₄ >>> 10)) % radix

lemma toNat_nextWord (ws : List UInt32) :
    (nextWord ws).toNat = nextNumber (ws.getD 15 0).toNat (ws.getD 14 0).toNat
      (ws.getD 6 0).toNat (ws.getD 1 0).toNat := by
  simp (disch := decide) only [nextWord, nextNumber, radix, toNat_rotr, UInt32.toNat_add,
    UInt32.toNat_xor, UInt32.toNat_shiftRight, UInt32.reduceToNat, Nat.mod_add_mod, Nat.reduceMod]

/-- A window of sixteen words, the oldest one being the highest, moved on to the next
word. -/
def slide (window : ℕ) : ℕ :=
  window % radix ^ 15 * radix
    + nextNumber (window / radix ^ 15) (window / radix ^ 14 % radix) (window / radix ^ 6 % radix)
        (window / radix % radix)

/-- The last sixteen words as one number. -/
def window (ws : List UInt32) : ℕ :=
  Nat.ofDigits radix ((ws.take 16).map UInt32.toNat)

lemma lt_radix_of_mem {ws : List UInt32} : ∀ n ∈ ws.map UInt32.toNat, n < radix := by
  intro n hn
  obtain ⟨w, -, rfl⟩ := List.mem_map.mp hn
  exact w.toNat_lt

/-- The words are read off the window. -/
lemma window_div_mod {ws : List UInt32} (h : 16 ≤ ws.length) {i : ℕ} (hi : i < 16) :
    window ws / radix ^ i % radix = (ws.getD i 0).toNat := by
  have hlt : i < ((ws.take 16).map UInt32.toNat).length := by
    rw [List.length_map, List.length_take]
    omega
  have hword : ((ws.take 16).map UInt32.toNat)[i] = (ws.getD i 0).toNat := by
    rw [List.getElem_map, List.getElem_take, List.getD_eq_getElem _ _ (by omega)]
  rw [window, Nat.ofDigits_div_pow_eq_ofDigits_drop i (by decide) _ lt_radix_of_mem,
    List.drop_eq_getElem_cons hlt, Nat.ofDigits_cons, Nat.add_mul_mod_self_left, hword]
  exact Nat.mod_eq_of_lt (ws.getD i 0).toNat_lt

lemma window_div {ws : List UInt32} (h : 16 ≤ ws.length) :
    window ws / radix ^ 15 = (ws.getD 15 0).toNat := by
  have hlt : window ws < radix ^ 16 := by
    calc window ws < radix ^ ((ws.take 16).map UInt32.toNat).length :=
          Nat.ofDigits_lt_base_pow_length (by decide) lt_radix_of_mem
      _ = radix ^ 16 := by rw [List.length_map, List.length_take, Nat.min_eq_left h]
  rw [← window_div_mod h (by decide), Nat.mod_eq_of_lt]
  exact Nat.div_lt_of_lt_mul (by rwa [← Nat.pow_succ])

/-- The window that is moved on holds the next word. -/
lemma slide_window {ws : List UInt32} (h : 16 ≤ ws.length) :
    slide (window ws) = window (extend ws) := by
  have hkept : window ws % radix ^ 15 = Nat.ofDigits radix ((ws.take 15).map UInt32.toNat) := by
    rw [window, Nat.ofDigits_mod_pow_eq_ofDigits_take 15 (by decide) _ lt_radix_of_mem,
      ← List.map_take, List.take_take, Nat.min_eq_left (by decide)]
  have hone := window_div_mod h (i := 1) (by decide)
  rw [Nat.pow_one] at hone
  rw [slide, window_div h, window_div_mod h (by decide), window_div_mod h (by decide), hone,
    ← toNat_nextWord, hkept, window, extend, List.take_succ_cons, List.map_cons, Nat.ofDigits_cons,
    Nat.add_comm, Nat.mul_comm]

/-- Numbers one above the other are joined by their bits. -/
lemma or_eq_add {a b i : ℕ} (ha : 2 ^ i ∣ a) (hb : b < 2 ^ i) : a ||| b = a + b := by
  obtain ⟨c, rfl⟩ := ha
  rw [Nat.two_pow_add_eq_or_of_lt hb]

/-- A byte at a place of a word. -/
lemma shiftLeft_mod (b : UInt8) {i : ℕ} (h : i ≤ 24) :
    (b.toNat <<< i) % 2 ^ 32 = b.toNat * 2 ^ i := by
  rw [Nat.shiftLeft_eq]
  refine Nat.mod_eq_of_lt ?_
  calc b.toNat * 2 ^ i < 2 ^ 8 * 2 ^ i := Nat.mul_lt_mul_of_pos_right b.toNat_lt (Nat.two_pow_pos i)
    _ = 2 ^ (8 + i) := (Nat.pow_add 2 8 i).symm
    _ ≤ 2 ^ 32 := Nat.pow_le_pow_right (by decide) (by omega)

/-- A word of four bytes. -/
lemma toNat_word (b₀ b₁ b₂ b₃ : UInt8) :
    ((b₀.toUInt32 <<< 24) ||| (b₁.toUInt32 <<< 16) ||| (b₂.toUInt32 <<< 8) ||| b₃.toUInt32).toNat
      = b₀.toNat * 16777216 + b₁.toNat * 65536 + b₂.toNat * 256 + b₃.toNat := by
  have h₁ := b₁.toNat_lt
  have h₂ := b₂.toNat_lt
  have h₃ := b₃.toNat_lt
  have htop : b₀.toNat * 2 ^ 24 ||| b₁.toNat * 2 ^ 16 = b₀.toNat * 16777216 + b₁.toNat * 65536 :=
    or_eq_add (i := 24) (by omega) (by omega)
  have hmiddle : b₀.toNat * 16777216 + b₁.toNat * 65536 ||| b₂.toNat * 2 ^ 8
      = b₀.toNat * 16777216 + b₁.toNat * 65536 + b₂.toNat * 256 :=
    or_eq_add (i := 16) (by omega) (by omega)
  simp only [UInt32.toNat_or, UInt32.toNat_shiftLeft, UInt8.toNat_toUInt32, UInt32.reduceToNat,
    Nat.reduceMod]
  rw [shiftLeft_mod b₀ (by decide), shiftLeft_mod b₁ (by decide), shiftLeft_mod b₂ (by decide),
    htop, hmiddle]
  exact or_eq_add (i := 8) (by omega) (by omega)

/-- A block is the number whose digits are its words. -/
lemma toNatBE_eq_ofDigits {n : ℕ} {block : Bytes} (h : block.length = 4 * n) :
    (words block).length = n ∧
      Bytes.toNatBE block = Nat.ofDigits radix ((words block).reverse.map UInt32.toNat) := by
  induction n generalizing block with
  | zero =>
      obtain rfl := List.length_eq_zero_iff.mp h
      exact ⟨rfl, rfl⟩
  | succ n ih =>
      obtain ⟨b₀, b₁, b₂, b₃, rest, rfl⟩ : ∃ b₀ b₁ b₂ b₃ rest,
          block = b₀ :: b₁ :: b₂ :: b₃ :: rest := by
        match block, h with
        | b₀ :: b₁ :: b₂ :: b₃ :: rest, _ => exact ⟨b₀, b₁, b₂, b₃, rest, rfl⟩
      have hrest : rest.length = 4 * n := by
        simp only [List.length_cons] at h
        omega
      obtain ⟨hlength, hnumber⟩ := ih hrest
      have hscale : radix ^ n = 256 ^ rest.length := by
        rw [hrest, Nat.pow_mul]
        rfl
      refine ⟨by rw [words, List.length_cons, hlength], ?_⟩
      rw [words, List.reverse_cons, List.map_append, List.map_singleton, Nat.ofDigits_append,
        Nat.ofDigits_singleton, List.length_map, List.length_reverse, hlength, ← hnumber, hscale,
        toNat_word]
      simp only [Bytes.toNatBE_cons, List.length_cons, Nat.pow_succ]
      ring

/-! ### Blocks -/

namespace Numbers

/-- The rounds with these constants, fed from a window. -/
def rounds : List ℕ → ℕ → Numbers → Numbers
  | [], _, s => s
  | k :: ks, window, s => rounds ks (slide window) (s.round k (window / radix ^ 15))

/-- Takes a block in. -/
def compress (s : Numbers) (block : ℕ) : Numbers :=
  s.add (rounds (roundConstants.map UInt32.toNat) block s)

/-- Takes `n` blocks in, one after the other. -/
def absorb (s : Numbers) : ℕ → Bytes → Numbers
  | 0, _ => s
  | n + 1, message => (s.compress (Bytes.toNatBE (message.take 64))).absorb n (message.drop 64)

/-- The digest that a state stands for. -/
def bytes (s : Numbers) : Bytes :=
  [s.a, s.b, s.c, s.d, s.e, s.f, s.g, s.h].flatMap (Bytes.ofNatBE 4)

end Numbers

/-- Rounds that are fed with words are those fed from the window. -/
lemma numbers_foldl_round (ks : List UInt32) {ws : List UInt32} (h : 16 ≤ ws.length) (s : State) :
    ((ks.zip (feed ks.length ws)).foldl (fun t (k, w) => t.round k w) s).numbers
      = s.numbers.rounds (ks.map UInt32.toNat) (window ws) := by
  induction ks generalizing ws s with
  | nil => rfl
  | cons k ks ih =>
      have hlong : 16 ≤ (extend ws).length := Nat.le_succ_of_le h
      rw [List.length_cons, feed, List.zip_cons_cons, List.foldl_cons, ih hlong, List.map_cons,
        Numbers.rounds, slide_window h, window_div h, numbers_round]

/-- A block of 64 bytes is taken in as one number. -/
lemma numbers_compress (s : State) {block : Bytes} (h : block.length = 64) :
    (s.compress block).numbers = s.numbers.compress (Bytes.toNatBE block) := by
  obtain ⟨hlength, hnumber⟩ := toNatBE_eq_ofDigits (n := 16) h
  have hsixteen : (words block).reverse.length = 16 := by rw [List.length_reverse, hlength]
  have hwindow : window (words block).reverse = Bytes.toNatBE block := by
    rw [window, List.take_of_length_le (Nat.le_of_eq hsixteen), hnumber]
  have hcount : 64 = roundConstants.length := rfl
  rw [State.compress, numbers_add, toList_schedule hlength, hcount,
    numbers_foldl_round _ (Nat.le_of_eq hsixteen.symm), hwindow, Numbers.compress]

lemma numbers_absorb (n : ℕ) {message : Bytes} (h : 64 * n ≤ message.length) (s : State) :
    (s.absorb n message).numbers = s.numbers.absorb n message := by
  induction n generalizing message s with
  | zero => rfl
  | succ n ih =>
      have hblock : (message.take 64).length = 64 := by
        rw [List.length_take]
        omega
      rw [State.absorb, ih (by rw [List.length_drop]; omega), numbers_compress s hblock,
        Numbers.absorb]

/-- The digest in numbers. -/
def digest (message : Bytes) : Bytes :=
  let padded := pad message
  (initial.numbers.absorb (padded.length / 64) padded).bytes

end Sha256

/-- The digest is the one that is made with numbers. -/
theorem sha256_eq_digest (message : Bytes) : sha256 message = Sha256.digest message := by
  rw [sha256, Sha256.hash, Sha256.digest, ← Sha256.numbers_absorb _ (Nat.mul_div_le _ _)]
  rfl

end CoinSpend
