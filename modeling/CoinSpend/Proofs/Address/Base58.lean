import Mathlib.Data.List.TakeWhile
import Mathlib.Data.Nat.Digits.Lemmas
import CoinSpend.Address.Base58
import CoinSpend.Bytes.Lemmas
import CoinSpend.Proofs.Address.Alphabet

/-!
Base-58 text and the byte strings it stands for.

* `Base58.digitsLE_eq_digits`, `Base58.ofDigits_eq`: the digits of a number.
* `Base58.recode`: digits in another base, with the zeros in front kept;
  `Base58.recode_recode`: nothing is lost on the way.
* `Base58.decode?_eq_some_iff`, `Base58.decodeCheck_eq_ok_iff`: a text stands for a
  byte string if and only if it is what is written for it.
* `Base58.mem_alphabet_of_mem_encode`, `Base58.length_encode_le`: the characters and the
  length of a text.
* `Base58.Leads`: the first digits and the lengths that texts can have, by the
  first byte; `Base58.exists_leads`: every text has such a digit.
-/

namespace CoinSpend

namespace Base58

/-! ### Digits -/

lemma digitsLE_eq_digits {base : ℕ} (h : 2 ≤ base) (n : ℕ) :
    digitsLE base n = Nat.digits base n := by
  induction n using digitsLE.induct base with
  | case1 n hn _ ih => rw [digitsLE, dif_pos hn, ih, Nat.digits_def' h hn.2]
  | case2 n hn =>
      obtain rfl : n = 0 := by omega
      rw [digitsLE, dif_neg hn, Nat.digits_zero]

lemma ofDigits_eq (base : ℕ) (digits : List ℕ) :
    ofDigits base digits = Nat.ofDigits base digits.reverse := by
  have hstep : (fun n d => n * base + d) = fun n d : ℕ => d + base * n := by
    funext n d
    rw [Nat.add_comm, Nat.mul_comm]
  rw [Nat.ofDigits_eq_foldr, List.foldr_reverse, ofDigits, hstep]
  rfl

/-- The first digit is the highest one. -/
lemma ofDigits_cons (base d : ℕ) (digits : List ℕ) :
    ofDigits base (d :: digits) = ofDigits base digits + base ^ digits.length * d := by
  rw [ofDigits_eq, ofDigits_eq, Nat.ofDigits_reverse_cons]

lemma ofDigits_lt {base : ℕ} (hbase : 2 ≤ base) {digits : List ℕ} (h : ∀ d ∈ digits, d < base) :
    ofDigits base digits < base ^ digits.length := by
  rw [ofDigits_eq, ← List.length_reverse]
  exact Nat.ofDigits_lt_base_pow_length hbase fun d hd => h d (List.mem_reverse.mp hd)

/-- The first digit bounds the number from both sides. -/
lemma ofDigits_cons_bounds {base d : ℕ} (hbase : 2 ≤ base) {digits : List ℕ}
    (h : ∀ e ∈ d :: digits, e < base) :
    d * base ^ digits.length ≤ ofDigits base (d :: digits) ∧
      ofDigits base (d :: digits) < (d + 1) * base ^ digits.length := by
  have hrest := ofDigits_lt hbase (List.forall_mem_cons.mp h).2
  rw [ofDigits_cons, Nat.add_mul, Nat.one_mul, Nat.mul_comm d]
  omega

lemma lt_of_mem_map_toNat (b : Bytes) : ∀ v ∈ b.map UInt8.toNat, v < 256 := by
  intro v hv
  obtain ⟨x, -, rfl⟩ := List.mem_map.mp hv
  exact x.toNat_lt

/-- Bytes are the digits of their number. -/
lemma toNatBE_eq (b : Bytes) : Bytes.toNatBE b = ofDigits 256 (b.map UInt8.toNat) := by
  induction b with
  | nil => rfl
  | cons x b ih => rw [Bytes.toNatBE_cons, ih, List.map_cons, ofDigits_cons, List.length_map]

/-! ### Another base -/

/-- The digits of a number in another base, behind as many zeros as before. -/
def recode (source target : ℕ) (digits : List ℕ) : List ℕ :=
  digits.takeWhile (· == 0) ++ (digitsLE target (ofDigits source digits)).reverse

/-- The digits of a number do not start with a zero. -/
lemma takeWhile_reverse_digitsLE {base : ℕ} (h : 2 ≤ base) (n : ℕ) :
    (digitsLE base n).reverse.takeWhile (· == 0) = [] := by
  rw [digitsLE_eq_digits h]
  by_cases hn : n = 0
  · rw [hn, Nat.digits_zero]
    rfl
  · have hne : Nat.digits base n ≠ [] := Nat.digits_ne_nil_iff_ne_zero.mpr hn
    have hlast := Nat.getLast_digit_ne_zero base hn
    rw [← List.dropLast_append_getLast hne, List.reverse_append, List.reverse_singleton,
      List.singleton_append, List.takeWhile_cons_of_neg]
    simpa using hlast

/-- In the base they are in, digits stay as they are. -/
lemma recode_self {base : ℕ} (hbase : 2 ≤ base) {digits : List ℕ} (h : ∀ d ∈ digits, d < base) :
    recode base base digits = digits := by
  induction digits with
  | nil =>
      have hzero : digitsLE base (ofDigits base []) = [] := by
        rw [digitsLE_eq_digits hbase, ofDigits_eq, List.reverse_nil, Nat.ofDigits_nil,
          Nat.digits_zero]
      rw [recode, hzero]
      rfl
  | cons d digits ih =>
      by_cases hd : d = 0
      · have hzero : ofDigits base (0 :: digits) = ofDigits base digits := by
          rw [ofDigits_cons, Nat.mul_zero, Nat.add_zero]
        have hrest := ih (List.forall_mem_cons.mp h).2
        rw [recode] at hrest
        rw [hd, recode, hzero, List.takeWhile_cons_of_pos (by rfl), List.cons_append, hrest]
      · -- a digit other than zero in front is the last one of the number
        have hdigits : Nat.digits base (Nat.ofDigits base (d :: digits).reverse)
            = (d :: digits).reverse := by
          refine Nat.digits_ofDigits base hbase _ (fun e he => h e (List.mem_reverse.mp he)) ?_
          intro hne
          rwa [List.getLast_reverse, List.head_cons]
        rw [recode, List.takeWhile_cons_of_neg (by simpa using hd), List.nil_append, ofDigits_eq,
          digitsLE_eq_digits hbase, hdigits, List.reverse_reverse]

lemma takeWhile_recode (source : ℕ) {target : ℕ} (h : 2 ≤ target) (digits : List ℕ) :
    (recode source target digits).takeWhile (· == 0) = digits.takeWhile (· == 0) := by
  rw [recode, List.takeWhile_append_of_pos, takeWhile_reverse_digitsLE h, List.append_nil]
  exact fun d hd => List.mem_takeWhile_imp (p := (· == 0)) hd

/-- Zeros in front do not count. -/
lemma ofDigits_takeWhile_append (base : ℕ) (digits rest : List ℕ) :
    ofDigits base (digits.takeWhile (· == 0) ++ rest) = ofDigits base rest := by
  induction digits with
  | nil => rfl
  | cons d digits ih =>
      by_cases hd : d = 0
      · rw [hd, List.takeWhile_cons_of_pos (by rfl), List.cons_append, ofDigits_cons, Nat.mul_zero,
          Nat.add_zero, ih]
      · rw [List.takeWhile_cons_of_neg (by simpa using hd), List.nil_append]

lemma ofDigits_recode (source : ℕ) {target : ℕ} (h : 2 ≤ target) (digits : List ℕ) :
    ofDigits target (recode source target digits) = ofDigits source digits := by
  rw [recode, ofDigits_takeWhile_append, ofDigits_eq target, List.reverse_reverse,
    digitsLE_eq_digits h, Nat.ofDigits_digits]

lemma lt_of_mem_recode (source : ℕ) {target : ℕ} (h : 2 ≤ target) (digits : List ℕ) :
    ∀ d ∈ recode source target digits, d < target := by
  intro d hd
  rcases List.mem_append.mp hd with hd | hd
  · have hzero := List.mem_takeWhile_imp hd
    rw [beq_iff_eq.mp hzero]
    omega
  · rw [List.mem_reverse, digitsLE_eq_digits h] at hd
    exact Nat.digits_lt_base h hd

/-- Digits are found again after a change of the base and back. -/
lemma recode_recode {source target : ℕ} (hsource : 2 ≤ source) (htarget : 2 ≤ target)
    {digits : List ℕ} (h : ∀ d ∈ digits, d < source) :
    recode target source (recode source target digits) = digits := by
  rw [recode, takeWhile_recode source htarget, ofDigits_recode source htarget]
  exact recode_self hsource h

/-! ### Texts -/

/-- Digits and values below 58 are the same. -/
lemma mapM_value?_eq_some_iff {chars : List Char} {values : List ℕ} :
    chars.mapM value? = some values ↔ (∀ v ∈ values, v < 58) ∧ chars = values.map digit :=
  mapM_idxOf?_eq_some_iff alphabet (by decide) '1'

/-- A text consists of the digits in base 58 of the bytes. -/
lemma encode_eq (b : Bytes) :
    encode b = String.ofList ((recode 256 58 (b.map UInt8.toNat)).map digit) := by
  have hzeros : (b.takeWhile (· == 0)).map (fun _ => '1')
      = ((b.map UInt8.toNat).takeWhile (· == 0)).map digit := by
    rw [List.takeWhile_map, List.map_map]
    have htest : ((· == 0) ∘ UInt8.toNat) = fun x : UInt8 => x == 0 := by
      funext x
      rw [Function.comp_apply, Bool.eq_iff_iff, beq_iff_eq, beq_iff_eq, ← UInt8.toNat_inj]
      rfl
    rw [htest]
    refine List.map_congr_left fun x hx => ?_
    rw [beq_iff_eq.mp (List.mem_takeWhile_imp (p := (· == 0)) hx)]
    rfl
  rw [encode, recode, List.map_append, toNatBE_eq, hzeros]

/-- A text stands for the bytes that its digits make in base 256. -/
lemma decode?_eq (text : String) :
    decode? text = (text.toList.mapM value?).map fun values =>
      (recode 58 256 values).map UInt8.ofNat := by
  rw [decode?, Option.map_eq_bind]
  refine congrArg _ (funext fun values => congrArg some ?_)
  show _ = (recode 58 256 values).map UInt8.ofNat
  rw [recode, List.map_append]
  refine congrArg (· ++ _) (List.map_congr_left fun v hv => ?_)
  rw [beq_iff_eq.mp (List.mem_takeWhile_imp (p := (· == 0)) hv)]
  rfl

lemma map_toNat_map_ofNat {values : List ℕ} (h : ∀ v ∈ values, v < 256) :
    (values.map UInt8.ofNat).map UInt8.toNat = values := by
  rw [List.map_map]
  refine (List.map_congr_left fun v hv => ?_).trans (List.map_id values)
  rw [Function.comp_apply, UInt8.toNat_ofNat']
  exact Nat.mod_eq_of_lt (h v hv)

lemma map_ofNat_map_toNat (b : Bytes) : (b.map UInt8.toNat).map UInt8.ofNat = b := by
  rw [List.map_map]
  exact (List.map_congr_left fun x _ => UInt8.ofNat_toNat).trans (List.map_id b)

/-- **Texts and byte strings are the same.** A text stands for the byte string it
is written for, and for no other. -/
theorem decode?_eq_some_iff {text : String} {b : Bytes} :
    decode? text = some b ↔ text = encode b := by
  rw [decode?_eq, encode_eq, Option.map_eq_some_iff]
  constructor
  · rintro ⟨values, hvalues, rfl⟩
    obtain ⟨hlt, hchars⟩ := mapM_value?_eq_some_iff.mp hvalues
    rw [map_toNat_map_ofNat (lt_of_mem_recode 58 (by decide) values),
      recode_recode (by decide) (by decide) hlt, ← hchars, String.ofList_toList]
  · rintro rfl
    refine ⟨recode 256 58 (b.map UInt8.toNat), mapM_value?_eq_some_iff.mpr ⟨?_, ?_⟩, ?_⟩
    · exact lt_of_mem_recode 256 (by decide) _
    · rw [String.toList_ofList]
    · rw [recode_recode (by decide) (by decide) (lt_of_mem_map_toNat b), map_ofNat_map_toNat]

lemma length_checksum (payload : Bytes) : (checksum payload).length = 4 := by
  rw [checksum, List.length_take, length_doubleSha256]
  rfl

/-- **Checked texts and payloads are the same.** -/
theorem decodeCheck_eq_ok_iff {text : String} {payload : Bytes} :
    decodeCheck text = .ok payload ↔ text = encodeCheck payload := by
  rw [encodeCheck, ← decode?_eq_some_iff]
  constructor
  · intro h
    rw [decodeCheck] at h
    split at h
    · cases h
    · rename_i b hb
      dsimp only at h
      split_ifs at h with hlength hchecksum
      obtain rfl := Except.ok.inj h
      rw [hb, ← hchecksum, List.take_append_drop]
  · intro h
    have htake : (payload ++ checksum payload).length - 4 = payload.length := by
      rw [List.length_append, length_checksum, Nat.add_sub_cancel]
    have hlength : ¬(payload ++ checksum payload).length < 4 := by
      rw [List.length_append, length_checksum]
      omega
    rw [decodeCheck, h]
    dsimp only
    rw [if_neg hlength, htake, List.drop_left, List.take_left, if_pos rfl]

/-! ### Characters and length -/

/-- A text has no characters but the digits. -/
lemma mem_alphabet_of_mem_encode {b : Bytes} {c : Char} (h : c ∈ (encode b).toList) :
    c ∈ alphabet := by
  rw [encode_eq, String.toList_ofList] at h
  obtain ⟨d, hd, rfl⟩ := List.mem_map.mp h
  have hlt : d < alphabet.length := lt_of_mem_recode 256 (by decide) _ d hd
  rw [digit, List.getD_eq_getElem?_getD, List.getElem?_eq_getElem hlt, Option.getD_some]
  exact List.getElem_mem hlt

/-- Bytes without a zero in front take no more digits than the largest number of their
length. -/
lemma length_encode_le {version : UInt8} (hversion : version ≠ 0) {rest : Bytes} {k : ℕ}
    (h : 256 ^ (rest.length + 1) ≤ 58 ^ k) : (encode (version :: rest)).toList.length ≤ k := by
  have hne : version.toNat ≠ 0 := fun hzero => hversion (UInt8.toNat_inj.mp hzero)
  have hlt := ofDigits_lt (by decide) (lt_of_mem_map_toNat (version :: rest))
  rw [List.length_map] at hlt
  rw [encode_eq, String.toList_ofList, List.length_map, recode, List.map_cons,
    List.takeWhile_cons_of_neg (by simpa using hne), List.nil_append, List.length_reverse,
    digitsLE_eq_digits (by decide), Nat.digits_length_le_iff (by decide)]
  exact Nat.lt_of_lt_of_le hlt h

/-! ### The first digit -/

/-- A first digit `d`, with `k` more digits behind it, can belong to the byte
`version` with `size` more bytes behind it: either both are zero, or the numbers
that start so overlap. -/
def Leads (version : UInt8) (size d k : ℕ) : Prop :=
  version = 0 ∧ d = 0 ∨
    version ≠ 0 ∧ d ≠ 0 ∧ d * 58 ^ k < (version.toNat + 1) * 256 ^ size ∧
      version.toNat * 256 ^ size < (d + 1) * 58 ^ k

instance (version : UInt8) (size d k : ℕ) : Decidable (Leads version size d k) :=
  inferInstanceAs (Decidable (_ ∨ _))

/-- Every text starts with such a digit. -/
lemma exists_leads (version : UInt8) (rest : Bytes) :
    ∃ d k, d < 58 ∧ (encode (version :: rest)).toList.head? = some (digit d) ∧
      Leads version rest.length d k := by
  rw [encode_eq, String.toList_ofList, List.head?_map]
  by_cases hversion : version = 0
  · have hhead : (recode 256 58 ((version :: rest).map UInt8.toNat)).head? = some 0 := by
      rw [hversion, List.map_cons, recode, List.takeWhile_cons_of_pos (by rfl)]
      rfl
    exact ⟨0, 0, by decide, by rw [hhead]; rfl, .inl ⟨hversion, rfl⟩⟩
  · have hne : version.toNat ≠ 0 := fun hzero => hversion (UInt8.toNat_inj.mp hzero)
    have hnumber := ofDigits_recode 256 (by decide : 2 ≤ 58) ((version :: rest).map UInt8.toNat)
    have hfirst : (recode 256 58 ((version :: rest).map UInt8.toNat)).takeWhile (· == 0) = [] := by
      rw [takeWhile_recode 256 (by decide), List.map_cons, List.takeWhile_cons_of_neg]
      simpa using hne
    have hlt := lt_of_mem_recode 256 (by decide : 2 ≤ 58) ((version :: rest).map UInt8.toNat)
    -- both rows of digits have the same number, which each first digit bounds
    obtain ⟨hlow, hhigh⟩ := ofDigits_cons_bounds (by decide) (lt_of_mem_map_toNat (version :: rest))
    rw [List.length_map] at hlow hhigh
    cases hvalues : recode 256 58 ((version :: rest).map UInt8.toNat) with
    | nil =>
        have hpos : 0 < version.toNat * 256 ^ rest.length :=
          Nat.mul_pos (Nat.pos_of_ne_zero hne) (Nat.pow_pos (by decide))
        rw [hvalues] at hnumber
        have hzero : ofDigits 256 ((version :: rest).map UInt8.toNat) = 0 := hnumber.symm
        exact absurd (Nat.lt_of_lt_of_le hpos hlow) (Nat.not_lt.mpr (Nat.le_of_eq hzero))
    | cons d tail =>
        rw [hvalues] at hnumber hfirst hlt
        have hd : d ≠ 0 := by
          rintro rfl
          rw [List.takeWhile_cons_of_pos (by rfl)] at hfirst
          cases hfirst
        obtain ⟨hlow', hhigh'⟩ := ofDigits_cons_bounds (by decide) hlt
        rw [hnumber] at hlow' hhigh'
        exact ⟨d, tail.length, (List.forall_mem_cons.mp hlt).1, rfl,
          .inr ⟨hversion, hd, Nat.lt_of_le_of_lt hlow' hhigh, Nat.lt_of_le_of_lt hlow hhigh'⟩⟩

end Base58

end CoinSpend
