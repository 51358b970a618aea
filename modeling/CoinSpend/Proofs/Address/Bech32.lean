import Mathlib.Data.List.TakeWhile
import CoinSpend.Proofs.Address.Alphabet
import CoinSpend.Proofs.Address.Checksum
import CoinSpend.Proofs.Address.Symbols
import CoinSpend.Proofs.Bytes.Hex

/-!
The text of a witness program.

* `Bech32.mapM_value?_eq_some_iff`: symbols and values below 32 are the same.
* `Bech32.splitLast?_eq_some_iff`: the last separator is found, and nothing else.
* `Bech32.Decoded.symbols`: version, program and checksum of a decoded text, and
  `Bech32.decodeValues?_eq_some_iff`: these are the symbols that are accepted.
* `Bech32.Decoded.chars`: the characters of a decoded text in lower case.
* `Bech32.encode?_eq_some_iff`, `Bech32.decode?_eq_some_iff`: the text that is
  written for a program consists of these characters, and a text is read as the
  program if and only if it does so in lower case.
* `Bech32.IsPrefix`: the prefixes for which a written text is short enough to be
  read.
-/

namespace CoinSpend

namespace Bech32

/-! ### Characters -/

/-- A symbol is no separator, in lower case, and one byte long. -/
lemma symbol_plain {v : ℕ} (h : v < 32) :
    symbol v ≠ '1' ∧ (symbol v).toLower = symbol v ∧ (symbol v).utf8Size = 1 :=
  (by decide : ∀ v : Fin 32,
    symbol v ≠ '1' ∧ (symbol v).toLower = symbol v ∧ (symbol v).utf8Size = 1) ⟨v, h⟩

/-- Symbols and values below 32 are the same. -/
lemma mapM_value?_eq_some_iff {chars : List Char} {values : List ℕ} :
    chars.mapM value? = some values ↔ (∀ v ∈ values, v < 32) ∧ chars = values.map symbol :=
  mapM_idxOf?_eq_some_iff alphabet (by decide) 'q'

/-- The last separator is found, with what stands before and after it. -/
lemma splitLast?_eq_some_iff {chars front data : List Char} :
    splitLast? chars = some (front, data) ↔ chars = front ++ '1' :: data ∧ '1' ∉ data := by
  constructor
  · intro h
    rw [splitLast?] at h
    have hsplit := List.takeWhile_append_dropWhile (p := (· != '1')) (l := chars.reverse)
    cases hdrop : chars.reverse.dropWhile (· != '1') with
    | nil =>
        rw [hdrop] at h
        cases h
    | cons c before =>
        have hc : c = '1' := by
          have hhead := List.head_dropWhile_not (· != '1') (l := chars.reverse)
            (by rw [hdrop]; exact List.cons_ne_nil c before)
          simpa [hdrop] using hhead
        rw [hdrop] at h hsplit
        simp only [Option.some.injEq, Prod.mk.injEq] at h
        obtain ⟨rfl, rfl⟩ := h
        refine ⟨?_, ?_⟩
        · have hchars := congrArg List.reverse hsplit
          rw [List.reverse_append, List.reverse_cons, List.append_assoc, List.reverse_reverse,
            hc] at hchars
          exact hchars.symm
        · intro hmem
          have hne := List.mem_takeWhile_imp (List.mem_reverse.mp hmem)
          exact absurd hne (by decide)
  · rintro ⟨rfl, hdata⟩
    have hreverse : (front ++ '1' :: data).reverse = data.reverse ++ '1' :: front.reverse := by
      simp
    have hplain : ∀ c ∈ data.reverse, (c != '1') = true := by
      intro c hc
      rw [bne_iff_ne]
      rintro rfl
      exact hdata (List.mem_reverse.mp hc)
    rw [splitLast?, hreverse, List.takeWhile_append_of_pos hplain,
      List.dropWhile_append_of_pos hplain]
    simp

/-! ### Symbols -/

/-- Version, program and checksum, as symbols. -/
def Decoded.symbols (decoded : Decoded) : List ℕ :=
  decoded.version :: toSymbols decoded.program ++
    checksum decoded.hrp decoded.version (decoded.version :: toSymbols decoded.program)

/-- The version is known, and the length of the program fits it. -/
def Decoded.Fits (decoded : Decoded) : Prop :=
  decoded.version ≤ 16 ∧ lengthFits decoded.version decoded.program.length

lemma length_checksum (hrp : List Char) (version : ℕ) (values : List ℕ) :
    (checksum hrp version values).length = 6 := rfl

lemma lt_of_mem_checksum (hrp : List Char) (version : ℕ) (values : List ℕ) :
    ∀ v ∈ checksum hrp version values, v < 32 := by
  intro v hv
  obtain ⟨shift, -, rfl⟩ := List.mem_map.mp hv
  exact Nat.mod_lt _ (by decide)

lemma Decoded.Fits.lt_of_mem_symbols {decoded : Decoded} (h : decoded.Fits) :
    ∀ v ∈ decoded.symbols, v < 32 := by
  have hversion : decoded.version < 32 := Nat.lt_of_le_of_lt h.1 (by decide)
  refine List.forall_mem_cons.mpr ⟨hversion, List.forall_mem_append.mpr ⟨?_, ?_⟩⟩
  · exact lt_of_mem_symbolsOf _
  · exact lt_of_mem_checksum _ _ _

/-- What is accepted has six symbols at its end. -/
lemma eq_append_of_decodeValues? {hrp : List Char} {values : List ℕ} {decoded : Decoded}
    (h : decodeValues? hrp values = some decoded) :
    ∃ version data last, last.length = 6 ∧ values = version :: (data ++ last) := by
  cases values with
  | nil => cases h
  | cons version values =>
      rw [decodeValues?] at h
      split_ifs at h with hbad
      obtain ⟨-, hlength, -⟩ := not_or.mp hbad |>.imp_right not_or.mp
      refine ⟨version, values.take (values.length - 6), values.drop (values.length - 6), ?_, ?_⟩
      · rw [List.length_drop]
        omega
      · rw [List.take_append_drop]

/-- The symbols between the version and the last six hold the program. -/
lemma decodeValues?_append_eq_some_iff {hrp : List Char} {version : ℕ} {data last : List ℕ}
    {decoded : Decoded} (hlast : last.length = 6) :
    decodeValues? hrp (version :: (data ++ last)) = some decoded ↔
      version ≤ 16 ∧ isValid hrp version (version :: data ++ last) = true ∧
        ∃ program, ofSymbols? data = some program ∧ lengthFits version program.length ∧
          decoded = ⟨hrp, version, program⟩ := by
  have htake : (data ++ last).take ((data ++ last).length - 6) = data := by
    rw [List.length_append, hlast, Nat.add_sub_cancel, List.take_left]
  have hlength : ¬(data ++ last).length < 6 := by
    rw [List.length_append]
    omega
  rw [decodeValues?, htake, List.cons_append]
  constructor
  · intro h
    split_ifs at h with hbad
    obtain ⟨hversion, -, hvalid⟩ := not_or.mp hbad |>.imp_right not_or.mp
    obtain ⟨program, hprogram, h⟩ := Option.bind_eq_some_iff.mp h
    split_ifs at h with hfits
    exact ⟨Nat.not_lt.mp hversion, by simpa using hvalid, program, hprogram, hfits,
      (Option.some.inj h).symm⟩
  · rintro ⟨hversion, hvalid, program, hprogram, hfits, rfl⟩
    have hgood : ¬(16 < version ∨ (data ++ last).length < 6 ∨
        (!isValid hrp version (version :: (data ++ last))) = true) := by
      rw [hvalid, not_or, not_or]
      exact ⟨Nat.not_lt.mpr hversion, hlength, by decide⟩
    rw [if_neg hgood, hprogram]
    exact if_pos hfits

/-- Of all symbols exactly those are accepted that are written for a program. -/
lemma decodeValues?_eq_some_iff {hrp : List Char} {values : List ℕ}
    (hvalues : ∀ v ∈ values, v < 32) {decoded : Decoded} :
    decodeValues? hrp values = some decoded ↔
      decoded.hrp = hrp ∧ decoded.Fits ∧ values = decoded.symbols := by
  constructor
  · intro h
    obtain ⟨version, data, last, hlength, rfl⟩ := eq_append_of_decodeValues? h
    obtain ⟨hversion, hvalid, program, hprogram, hfits, rfl⟩ :=
      (decodeValues?_append_eq_some_iff hlength).mp h
    obtain ⟨hdata, hlast⟩ := List.forall_mem_append.mp (List.forall_mem_cons.mp hvalues).2
    -- the last six symbols are the only ones that make the rest valid
    have hchecksum := (isValid_append_iff hlength hlast).mp hvalid
    refine ⟨rfl, ⟨hversion, hfits⟩, ?_⟩
    rw [Decoded.symbols, toSymbols_of_ofSymbols? hdata hprogram, ← hchecksum, List.cons_append]
  · rintro ⟨rfl, hfits, rfl⟩
    have hvalid := (isValid_append_iff (length_checksum _ _ _)
      (lt_of_mem_checksum decoded.hrp decoded.version _)).mpr
        (rfl : checksum decoded.hrp decoded.version
          (decoded.version :: toSymbols decoded.program) = _)
    exact (decodeValues?_append_eq_some_iff (length_checksum _ _ _)).mpr
      ⟨hfits.1, hvalid, decoded.program, ofSymbols?_toSymbols decoded.program, hfits.2, rfl⟩

/-! ### Texts -/

/-- Prefix, separator and symbols, in lower case. -/
def Decoded.chars (decoded : Decoded) : List Char :=
  decoded.hrp ++ '1' :: decoded.symbols.map symbol

/-- The characters that may stand before the separator. -/
def IsPlain (hrp : List Char) : Prop :=
  hrp ≠ [] ∧ ∀ c ∈ hrp, 33 ≤ c.toNat ∧ c.toNat ≤ 126

lemma symbols_plain {decoded : Decoded} (h : decoded.Fits) :
    ∀ c ∈ decoded.symbols.map symbol, c ≠ '1' ∧ c.toLower = c ∧ c.utf8Size = 1 := by
  intro c hc
  obtain ⟨v, hv, rfl⟩ := List.mem_map.mp hc
  exact symbol_plain (h.lt_of_mem_symbols v hv)

/-- In lower case, a program is read from its own characters only. -/
lemma decodeLower?_eq_some_iff {chars : List Char} {decoded : Decoded} :
    decodeLower? chars = some decoded ↔
      IsPlain decoded.hrp ∧ decoded.Fits ∧ chars = decoded.chars := by
  constructor
  · intro h
    simp only [decodeLower?, Option.bind_eq_bind, Option.bind_eq_some_iff] at h
    obtain ⟨⟨hrp, data⟩, hsplit, h⟩ := h
    obtain ⟨rfl, -⟩ := splitLast?_eq_some_iff.mp hsplit
    split_ifs at h with hbad
    obtain ⟨values, hvalues, h⟩ := Option.bind_eq_some_iff.mp h
    obtain ⟨hlt, rfl⟩ := mapM_value?_eq_some_iff.mp hvalues
    obtain ⟨rfl, hfits, rfl⟩ := (decodeValues?_eq_some_iff hlt).mp h
    refine ⟨?_, hfits, rfl⟩
    simpa [IsPlain, not_or] using hbad
  · rintro ⟨hplain, hfits, rfl⟩
    have hsplit : splitLast? decoded.chars = some (decoded.hrp, decoded.symbols.map symbol) :=
      splitLast?_eq_some_iff.mpr ⟨rfl, fun hmem => (symbols_plain hfits _ hmem).1 rfl⟩
    have hvalues : (decoded.symbols.map symbol).mapM value? = some decoded.symbols :=
      mapM_value?_eq_some_iff.mpr ⟨hfits.lt_of_mem_symbols, rfl⟩
    have hgood : ¬(decoded.hrp.isEmpty ||
        !decoded.hrp.all (fun c => 33 ≤ c.toNat && c.toNat ≤ 126)) = true := by
      simpa [IsPlain, not_or] using hplain
    rw [decodeLower?, hsplit, Option.bind_eq_bind, Option.bind_some]
    dsimp only
    rw [if_neg hgood, hvalues, Option.bind_eq_bind, Option.bind_some]
    exact (decodeValues?_eq_some_iff hfits.lt_of_mem_symbols).mpr ⟨rfl, hfits, rfl⟩

/-- **Which text stands for which program.** A short text in one case that
consists, in lower case, of the characters of the program. -/
theorem decode?_eq_some_iff {text : String} {decoded : Decoded} :
    decode? text = some decoded ↔
      text.utf8ByteSize ≤ 90 ∧ (text = text.toLower ∨ text = text.toUpper) ∧
        IsPlain decoded.hrp ∧ decoded.Fits ∧ text.toLower.toList = decoded.chars := by
  rw [decode?, ← Nat.not_lt]
  by_cases hlength : 90 < text.utf8ByteSize
  · simp [hlength]
  · by_cases hcase : text = text.toLower ∨ text = text.toUpper
    · rw [if_neg hlength, if_pos hcase, decodeLower?_eq_some_iff]
      exact ⟨fun h => ⟨hlength, hcase, h⟩, fun h => h.2.2⟩
    · rw [if_neg hlength, if_neg hcase]
      exact ⟨nofun, fun h => absurd h.2.1 hcase⟩

/-- The text that is written for a program. -/
theorem encode?_eq_some_iff {hrp text : String} {version : ℕ} {program : Bytes} :
    encode? hrp version program = some text ↔
      lengthFits version program.length ∧
        text = String.ofList (Decoded.chars ⟨hrp.toList, version, program⟩) := by
  by_cases h : lengthFits version program.length
  · rw [encode?, if_pos h, Option.some.injEq, eq_comm]
    exact ⟨fun htext => ⟨h, htext⟩, And.right⟩
  · rw [encode?, if_neg h]
    exact ⟨nofun, fun htext => absurd htext.1 h⟩

/-! ### Texts that are written -/

/-- A prefix in lower case that leaves enough room for the longest program. -/
structure IsPrefix (hrp : List Char) : Prop where
  plain : IsPlain hrp
  lower : ∀ c ∈ hrp, c.toLower = c
  length_le : hrp.length ≤ 18

lemma bounds_of_lengthFits {version length : ℕ} (h : lengthFits version length) :
    2 ≤ length ∧ length ≤ 40 := by
  simp only [lengthFits, Bool.and_eq_true, decide_eq_true_eq] at h
  exact h.1

lemma length_symbols_le {decoded : Decoded} (h : decoded.Fits) : decoded.symbols.length ≤ 71 := by
  have hbits := congrArg List.length (flatMap_symbolsOf (bitsOf decoded.program))
  obtain ⟨-, hprogram⟩ := bounds_of_lengthFits h.2
  rw [Bits.length_flatMap (Bits.length_ofNat 5), List.length_append, List.length_replicate,
    length_bitsOf, padding, ← toSymbols_eq] at hbits
  rw [Decoded.symbols, List.length_append, List.length_cons, length_checksum]
  omega

variable {decoded : Decoded}

lemma plain_of_mem_chars (hfront : IsPrefix decoded.hrp) (h : decoded.Fits) :
    ∀ c ∈ decoded.chars, c.toLower = c ∧ c.utf8Size = 1 := by
  intro c hc
  rcases List.mem_append.mp hc with hc | hc
  · refine ⟨hfront.lower c hc, Char.utf8Size_eq_one_iff.mpr ?_⟩
    have hle := (hfront.plain.2 c hc).2
    exact Nat.le_trans hle (by decide)
  · rcases List.mem_cons.mp hc with rfl | hc
    · exact ⟨by decide, by decide⟩
    · exact (symbols_plain h c hc).2

/-- A written text is in lower case. -/
lemma toLower_ofList_chars (hfront : IsPrefix decoded.hrp) (h : decoded.Fits) :
    (String.ofList decoded.chars).toLower = String.ofList decoded.chars := by
  apply String.toList_injective
  rw [toList_toLower, String.toList_ofList]
  refine (List.map_congr_left fun c hc => ?_).trans (List.map_id decoded.chars)
  exact (plain_of_mem_chars hfront h c hc).1

/-- A written text is short. -/
lemma utf8ByteSize_ofList_chars_le (hfront : IsPrefix decoded.hrp) (h : decoded.Fits) :
    (String.ofList decoded.chars).utf8ByteSize ≤ 90 := by
  have hroom := hfront.length_le
  have hsymbols := length_symbols_le h
  rw [utf8ByteSize_ofList fun c hc => (plain_of_mem_chars hfront h c hc).2, Decoded.chars,
    List.length_append, List.length_cons, List.length_map]
  omega

/-- **Written texts are read.** -/
theorem decode?_ofList_chars (hfront : IsPrefix decoded.hrp) (h : decoded.Fits) :
    decode? (String.ofList decoded.chars) = some decoded := by
  refine decode?_eq_some_iff.mpr ⟨utf8ByteSize_ofList_chars_le hfront h, .inl ?_, hfront.plain, h, ?_⟩
  · exact (toLower_ofList_chars hfront h).symm
  · rw [toLower_ofList_chars hfront h, String.toList_ofList]

end Bech32

end CoinSpend
