import Mathlib.Data.Nat.Digits.Lemmas
import Mathlib.Tactic.SplitIfs
import CoinSpend.Bytes.Lemmas
import CoinSpend.Proofs.Outcome

/-!
Hexadecimal text is read back.

* `Hex.value?_digit`: each of the sixteen digits has its own value.
* `Hex.decode_encode`: the text of a byte string stands for this byte string.
* `Hex.decodeMarked_encode`: so it does where a mark may stand in front, since no
  digit is taken for the mark.
* `Hex.length_le_of_decodeMarked`: a text is longer than what it stands for.
* `Hex.encode_of_decodeMarked`: a text that stands for a byte string is its text,
  up to the mark and the case of the digits.
* `Hex.exists_decode_of_values`: text and byte string have one number.
* `Hex.decode_eq_ok_iff`, `Hex.decodeMarked_eq_ok_iff`: nothing is read but the texts of
  byte strings, and these are read in either case.
-/

namespace CoinSpend

/-- A text in lower case has its characters in lower case. -/
lemma toList_toLower (text : String) : text.toLower.toList = text.toList.map Char.toLower :=
  String.toList_map

/-- Characters of one byte are as many as the bytes. -/
lemma utf8ByteSize_ofList {cs : List Char} (h : ∀ c ∈ cs, c.utf8Size = 1) :
    (String.ofList cs).utf8ByteSize = cs.length := by
  induction cs with
  | nil => rfl
  | cons c cs ih =>
      obtain ⟨hc, hcs⟩ := List.forall_mem_cons.mp h
      rw [String.ofList_cons, String.utf8ByteSize_append, String.utf8ByteSize_singleton, hc, ih hcs,
        List.length_cons, Nat.add_comm]

namespace Hex

/-! ### Digits -/

/-- A digit has its value. -/
lemma value?_digit {n : ℕ} (h : n < 16) : value? (digit n) = some n :=
  (by decide : ∀ n : Fin 16, value? (digit n) = some n.val) ⟨n, h⟩

/-- A digit takes one byte. -/
lemma length_utf8EncodeChar_digit {n : ℕ} (h : n < 16) :
    (String.utf8EncodeChar (digit n)).length = 1 :=
  (by decide : ∀ n : Fin 16, (String.utf8EncodeChar (digit n)).length = 1) ⟨n, h⟩

/-- A digit is no letter of the mark. -/
lemma digit_ne_mark {n : ℕ} (h : n < 16) : digit n ≠ 'x' ∧ digit n ≠ 'X' :=
  (by decide : ∀ n : Fin 16, digit n ≠ 'x' ∧ digit n ≠ 'X') ⟨n, h⟩

/-- The two halves of a byte are values of digits, and make up the byte. -/
lemma halves (b : UInt8) :
    b.toNat / 16 < 16 ∧ b.toNat % 16 < 16 ∧
      UInt8.ofNat (16 * (b.toNat / 16) + b.toNat % 16) = b := by
  have hb := b.toNat_lt
  refine ⟨by omega, by omega, ?_⟩
  rw [Nat.div_add_mod, UInt8.ofNat_toNat]

/-! ### Texts -/

/-- The digits of a byte string are read back from any position on. -/
lemma decodeFrom_digits (index : ℕ) (b : Bytes) :
    decodeFrom index (b.flatMap digits) = .ok b := by
  induction b generalizing index with
  | nil => rfl
  | cons x rest ih =>
      obtain ⟨hhigh, hlow, hbyte⟩ := halves x
      simp only [List.flatMap_cons, digits, List.cons_append, List.nil_append, decodeFrom,
        value?_digit hhigh, value?_digit hlow, ih, hbyte]
      rfl

/-- The text of a byte string has two bytes for each byte. -/
lemma utf8ByteSize_encode (b : Bytes) : (encode b).utf8ByteSize = 2 * b.length := by
  rw [encode, String.ofList, String.utf8ByteSize_ofByteArray, List.utf8Encode,
    List.size_toByteArray]
  induction b with
  | nil => rfl
  | cons x rest ih =>
      obtain ⟨hhigh, hlow, -⟩ := halves x
      simp only [List.flatMap_cons, digits, List.cons_append, List.nil_append,
        List.length_append, length_utf8EncodeChar_digit hhigh, length_utf8EncodeChar_digit hlow,
        List.length_cons, ih]
      omega

/-- The text of a byte string stands for it. -/
theorem decode_encode (b : Bytes) : decode (encode b) = .ok b := by
  have heven : ¬(encode b).utf8ByteSize % 2 = 1 := by
    rw [utf8ByteSize_encode]
    omega
  rw [decode, if_neg heven, encode, String.toList_ofList, decodeFrom_digits]

/-- No mark is taken away from the text of a byte string. -/
lemma stripMark_encode (b : Bytes) : stripMark (encode b) = encode b := by
  cases b with
  | nil => rfl
  | cons x rest =>
      obtain ⟨-, hlow, -⟩ := halves x
      obtain ⟨hsmall, hlarge⟩ := digit_ne_mark hlow
      have hlist : (encode (x :: rest)).toList
          = digit (x.toNat / 16) :: digit (x.toNat % 16) :: rest.flatMap digits := by
        rw [encode, String.toList_ofList, List.flatMap_cons]
        rfl
      rw [stripMark, hlist]
      split
      · rename_i heq
        simp_all
      · rename_i heq
        simp_all
      · rfl

/-- The text of a byte string stands for it where a mark is allowed. -/
theorem decodeMarked_encode (b : Bytes) : decodeMarked (encode b) = .ok b := by
  rw [decodeMarked, stripMark_encode, decode_encode]

/-! ### Lengths -/

/-- Two digits make one byte. -/
lemma length_of_decodeFrom {index : ℕ} {digits : List Char} {b : Bytes}
    (h : decodeFrom index digits = .ok b) : 2 * b.length = digits.length := by
  fun_induction decodeFrom index digits generalizing b with
  | case1 => cases h; rfl
  | case2 index c => cases h
  | case3 index c => cases h
  | case4 index high low rest => cases h
  | case5 index high low rest => cases h
  | case6 index high low rest x y hx hy ih =>
      obtain ⟨tail, htail, htail_eq⟩ := bind_eq_ok_iff.mp h
      obtain rfl := pure_eq_ok_iff.mp htail_eq
      have hrest := ih htail
      simp only [List.length_cons]
      omega

/-- A text has at least two characters for each byte that it stands for. -/
lemma length_le_of_decodeMarked {text : String} {b : Bytes} (h : decodeMarked text = .ok b) :
    2 * b.length ≤ text.length := by
  have hmark : (stripMark text).length ≤ text.length := by
    rw [← String.length_toList, ← String.length_toList, stripMark]
    split <;> simp_all <;> omega
  rw [decodeMarked, decode] at h
  split_ifs at h
  have hlength := length_of_decodeFrom h
  rw [String.length_toList] at hlength
  omega

/-! ### Case -/

/-- Only ASCII characters have values. -/
lemma toNat_lt_of_value? {c : Char} {n : ℕ} (h : value? c = some n) : c.toNat < 128 := by
  rw [value?] at h
  split_ifs at h with hdigit hlower hupper
  · exact Nat.lt_of_le_of_lt hdigit.2 (by decide)
  · exact Nat.lt_of_le_of_lt hlower.2 (by decide)
  · exact Nat.lt_of_le_of_lt hupper.2 (by decide)

/-- A character with a value is the digit of this value, up to its case. -/
lemma digit_of_value? {c : Char} {n : ℕ} (h : value? c = some n) :
    n < 16 ∧ digit n = c.toLower := by
  have hc := toNat_lt_of_value? h
  have hall : ∀ i : Fin 128, ∀ v ∈ value? (Char.ofNat i),
      v < 16 ∧ digit v = (Char.ofNat i).toLower := by
    decide
  have hvalue := hall ⟨c.toNat, hc⟩ n
  rw [Char.ofNat_toNat] at hvalue
  exact hvalue h

/-- Digits that are read are written again in lower case. -/
lemma flatMap_digits_of_decodeFrom {index : ℕ} {chars : List Char} {b : Bytes}
    (h : decodeFrom index chars = .ok b) : b.flatMap digits = chars.map Char.toLower := by
  fun_induction decodeFrom index chars generalizing b with
  | case1 => cases h; rfl
  | case2 index c => cases h
  | case3 index c => cases h
  | case4 index high low rest => cases h
  | case5 index high low rest => cases h
  | case6 index high low rest x y hx hy ih =>
      obtain ⟨tail, htail, htail_eq⟩ := bind_eq_ok_iff.mp h
      obtain rfl := pure_eq_ok_iff.mp htail_eq
      obtain ⟨hxlt, hxdigit⟩ := digit_of_value? hx
      obtain ⟨hylt, hydigit⟩ := digit_of_value? hy
      have hbyte : (UInt8.ofNat (16 * x + y)).toNat = 16 * x + y := by
        rw [UInt8.toNat_ofNat']
        omega
      have hhigh : (16 * x + y) / 16 = x := by omega
      have hlow : (16 * x + y) % 16 = y := by omega
      rw [List.flatMap_cons, ih htail, digits, hbyte, hhigh, hlow, hxdigit, hydigit]
      rfl

/-- A text that stands for a byte string is the text of this byte string, up to the
case of the digits. -/
lemma encode_of_decode {text : String} {b : Bytes} (h : decode text = .ok b) :
    encode b = text.toLower := by
  rw [decode] at h
  split_ifs at h
  apply String.toList_injective
  rw [encode, String.toList_ofList, flatMap_digits_of_decodeFrom h, toList_toLower]

/-- A text that stands for a byte string is the text of this byte string, up to
the mark and the case of the digits. -/
theorem encode_of_decodeMarked {text : String} {b : Bytes} (h : decodeMarked text = .ok b) :
    encode b = (stripMark text).toLower :=
  encode_of_decode h

/-! ### Numbers -/

/-- Digits in pairs are read from any position on, and the bytes have their number. -/
lemma exists_decodeFrom_of_values {chars : List Char} {values : List ℕ}
    (h : List.Forall₂ (fun c v => value? c = some v) chars values) (heven : chars.length % 2 = 0)
    (index : ℕ) :
    ∃ b, decodeFrom index chars = .ok b ∧ Bytes.toNatBE b = Nat.ofDigits 16 values.reverse := by
  fun_induction decodeFrom index chars generalizing values with
  | case1 =>
      obtain rfl := List.forall₂_nil_left_iff.mp h
      exact ⟨[], rfl, rfl⟩
  | case2 index c => cases heven
  | case3 index c => cases heven
  | case4 index high low rest hhigh =>
      cases h with
      | cons hx _ => simp [hhigh] at hx
  | case5 index high low rest x hlow hhigh =>
      cases h with
      | cons _ h => cases h with
        | cons hy _ => simp [hlow] at hy
  | case6 index high low rest x y hy hx ih =>
      obtain ⟨_, _, hx', hlow, rfl⟩ := List.forall₂_cons_left_iff.mp h
      obtain ⟨_, values, hy', hrest, rfl⟩ := List.forall₂_cons_left_iff.mp hlow
      obtain rfl := Option.some.inj (hx.symm.trans hx')
      obtain rfl := Option.some.inj (hy.symm.trans hy')
      have heven' : rest.length % 2 = 0 := by
        simp only [List.length_cons] at heven
        omega
      obtain ⟨tail, htail, hnumber⟩ := ih hrest heven'
      have hxlt := (digit_of_value? hx).1
      have hylt := (digit_of_value? hy).1
      have hbyte : (UInt8.ofNat (16 * x + y)).toNat = 16 * x + y := by
        rw [UInt8.toNat_ofNat']
        omega
      have hpow : 256 ^ tail.length = 16 ^ values.length := by
        rw [← hrest.length_eq, ← length_of_decodeFrom htail, Nat.pow_mul]
      refine ⟨UInt8.ofNat (16 * x + y) :: tail, by rw [htail]; rfl, ?_⟩
      rw [Bytes.toNatBE_cons, hbyte, hnumber, hpow, Nat.ofDigits_reverse_cons,
        Nat.ofDigits_reverse_cons, List.length_cons, Nat.pow_succ]
      ring

/-- A text of an even number of digits stands for bytes, and these have its number. -/
lemma exists_decode_of_values {text : String} {values : List ℕ}
    (h : text.toList.mapM value? = some values) (heven : values.length % 2 = 0) :
    ∃ b, decode text = .ok b ∧ Bytes.toNatBE b = Nat.ofDigits 16 values.reverse := by
  have hdigits := mapM_eq_some_iff.mp h
  have hplain : ∀ c ∈ text.toList, c.utf8Size = 1 := by
    intro c hc
    obtain ⟨i, hi⟩ := List.mem_iff_getElem?.mp hc
    obtain ⟨v, -, hv⟩ := exists_getElem?_of_forall₂ hdigits hi
    exact Char.utf8Size_eq_one_iff.mpr (Nat.le_of_lt_succ (toNat_lt_of_value? hv))
  have hsize : text.utf8ByteSize = values.length := by
    rw [← hdigits.length_eq, ← utf8ByteSize_ofList hplain, String.ofList_toList]
  rw [decode, if_neg (by omega)]
  exact exists_decodeFrom_of_values hdigits (by rwa [hdigits.length_eq]) 0

/-! ### The texts of a byte string -/

/-- The case of a character does not change its value. -/
lemma value?_toLower (c : Char) : value? c.toLower = value? c := by
  by_cases hc : c.toNat < 128
  · have hall : ∀ i : Fin 128, value? (Char.ofNat i).toLower = value? (Char.ofNat i) := by
      decide
    have hvalue := hall ⟨c.toNat, hc⟩
    rwa [Char.ofNat_toNat] at hvalue
  · -- only ASCII letters have another case
    have hnot : ¬('A'.val ≤ c.val ∧ c.val ≤ 'Z'.val) := by
      rintro ⟨-, hupper⟩
      have hle : c.toNat ≤ 90 := hupper
      omega
    have hlower : c.toLower = c := dif_neg hnot
    rw [hlower]

/-- In the text of a byte string, in either case, every character has a value. -/
lemma exists_value?_of_toLower {text : String} {b : Bytes} (h : encode b = text.toLower)
    {c : Char} (hc : c ∈ text.toList) : ∃ v, value? c = some v := by
  have hmem : c.toLower ∈ (encode b).toList := by
    rw [h, toList_toLower]
    exact List.mem_map_of_mem hc
  rw [encode, String.toList_ofList, List.mem_flatMap] at hmem
  obtain ⟨x, -, hx⟩ := hmem
  obtain ⟨hhigh, hlow, -⟩ := halves x
  rw [← value?_toLower]
  rcases List.mem_pair.mp hx with heq | heq
  · exact ⟨_, heq ▸ value?_digit hhigh⟩
  · exact ⟨_, heq ▸ value?_digit hlow⟩

/-- **A text stands for a byte string if and only if it is its text**, up to the case of
the digits. -/
theorem decode_eq_ok_iff {text : String} {b : Bytes} :
    decode text = .ok b ↔ encode b = text.toLower := by
  refine ⟨encode_of_decode, fun h => ?_⟩
  obtain ⟨values, hvalues⟩ := exists_forall₂_of_forall fun c => exists_value?_of_toLower h
  have hlength : text.toList.length = 2 * b.length := by
    have htext := congrArg (fun t => t.toList.length) h
    simp only [toList_toLower, List.length_map] at htext
    rw [← htext, encode, String.toList_ofList]
    simp [digits, List.length_flatMap, Nat.mul_comm]
  have heven : values.length % 2 = 0 := by
    rw [← hvalues.length_eq, hlength]
    omega
  obtain ⟨other, hother, -⟩ := exists_decode_of_values (mapM_eq_some_iff.mpr hvalues) heven
  -- one text does not belong to two byte strings
  have htexts : encode other = encode b := (encode_of_decode hother).trans h.symm
  have hsame : (.ok other : Except Fault Bytes) = .ok b := by
    rw [← decode_encode other, ← decode_encode b, htexts]
  rw [hother, hsame]

/-- So it is where a mark may stand in front. -/
theorem decodeMarked_eq_ok_iff {text : String} {b : Bytes} :
    decodeMarked text = .ok b ↔ encode b = (stripMark text).toLower :=
  decode_eq_ok_iff

end Hex

end CoinSpend
