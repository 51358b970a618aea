import CoinSpend.Proofs.Bytes.Hex
import CoinSpend.Proofs.Script.Scan
import CoinSpend.Script.Instruction

/-!
Scripts by their grammar.

* `Script.Written`: the written forms of one instruction. A push may have any length
  field that holds its length.
* `Script.split?_eq_some_iff`: the first instruction of a script is what stands written in
  front, and nothing else.
* `Script.reads_iff`: a script is read to its end if and only if it is a row of written
  instructions, which are those that are read.
* `Script.ofHex_exact`: hence the scripts that texts spell out are the complete ones.
-/

namespace CoinSpend

namespace Script

/-! ### Instructions and their written forms -/

/-- The written forms of an instruction. The code zero pushes nothing, the codes up to 75
push as many bytes as they say, three codes push what a length field announces, and the
others stand for themselves. -/
inductive Written : Bytes → Instruction → Prop where
  | zero : Written [0] (.push [])
  | direct {data : Bytes} (hpos : 1 ≤ data.length) (hle : data.length ≤ 75) :
      Written (UInt8.ofNat data.length :: data) (.push data)
  | announced {code : UInt8} {width : ℕ} {data : Bytes} (hcode : (code, width) ∈ lengthFields)
      (hlength : data.length < 256 ^ width) :
      Written (code :: (Bytes.ofNatLE width data.length ++ data)) (.push data)
  | op {code : UInt8} (h : 0x4e < code) : Written [code] (.op code)

/-- A push takes as many bytes as it is to take. -/
lemma takePush_eq_some_iff {n : ℕ} {b rest : Bytes} {i : Instruction} :
    takePush n b = some (i, rest) ↔
      ∃ data : Bytes, data.length = n ∧ i = .push data ∧ b = data ++ rest := by
  constructor
  · intro h
    rw [takePush] at h
    split_ifs at h with hlength
    cases h
    exact ⟨b.take n, hlength, rfl, (List.take_append_drop n b).symm⟩
  · rintro ⟨data, rfl, rfl, rfl⟩
    exact takePush_append data rest

/-- A push with a length field takes this field and as many bytes as it announces. -/
lemma takeSizedPush_eq_some_iff {width : ℕ} {b rest : Bytes} {i : Instruction} :
    takeSizedPush width b = some (i, rest) ↔
      ∃ data : Bytes, data.length < 256 ^ width ∧ i = .push data ∧
        b = Bytes.ofNatLE width data.length ++ (data ++ rest) := by
  constructor
  · intro h
    rw [takeSizedPush] at h
    split_ifs at h with hwidth
    obtain ⟨data, hlength, rfl, hrest⟩ := takePush_eq_some_iff.mp h
    have hfield : Bytes.ofNatLE width data.length = b.take width := by
      have hwritten := Bytes.ofNatLE_toNatLE (b.take width)
      rwa [hwidth, ← hlength] at hwritten
    have hlt := Bytes.toNatLE_lt (b.take width)
    rw [hwidth, ← hlength] at hlt
    exact ⟨data, hlt, rfl, by rw [hfield, ← hrest, List.take_append_drop]⟩
  · rintro ⟨data, hlength, rfl, rfl⟩
    exact takeSizedPush_append rest hlength

/-- What stands written in front of a script is its first instruction. -/
lemma Written.split?_append {part : Bytes} {i : Instruction} (h : Written part i) (rest : Bytes) :
    split? (part ++ rest) = some (i, rest) := by
  cases h with
  | zero =>
      have hle : ([] : Bytes).length ≤ maxPush := Nat.zero_le maxPush
      exact split?_push rest hle
  | @direct data hpos hle =>
      rw [← push_of_lt (by omega)]
      exact split?_push rest (by rw [maxPush]; omega)
  | announced hcode hlength =>
      rw [List.cons_append, List.append_assoc, split?, splitAfter?_of_mem hcode,
        takeSizedPush_append rest hlength]
  | op hcode => exact split?_op rest hcode

/-- The first instruction of a script that starts with a code is written there. -/
lemma exists_written_of_splitAfter? {code : UInt8} {b rest : Bytes} {i : Instruction}
    (h : splitAfter? code b = some (i, rest)) :
    ∃ part, Written part i ∧ code :: b = part ++ rest := by
  have hannounced {width : ℕ} (hcode : (code, width) ∈ lengthFields)
      (h : takeSizedPush width b = some (i, rest)) :
      ∃ part, Written part i ∧ code :: b = part ++ rest := by
    obtain ⟨data, hlength, rfl, rfl⟩ := takeSizedPush_eq_some_iff.mp h
    exact ⟨_, .announced hcode hlength, by rw [List.cons_append, List.append_assoc]⟩
  rw [splitAfter?] at h
  split_ifs at h with hdirect h₁ h₂ h₄
  · obtain ⟨data, hlength, rfl, rfl⟩ := takePush_eq_some_iff.mp h
    simp only [UInt8.lt_iff_toNat_lt, UInt8.reduceToNat] at hdirect
    have hcode : UInt8.ofNat data.length = code := by rw [hlength, UInt8.ofNat_toNat]
    by_cases hnil : data = []
    · subst hnil
      exact ⟨[0], .zero, by rw [← hcode]; rfl⟩
    · have hpos := List.length_pos_iff.mpr hnil
      exact ⟨_, .direct hpos (by omega), by rw [hcode, List.cons_append]⟩
  · exact hannounced (by rw [h₁]; decide) h
  · exact hannounced (by rw [h₂]; decide) h
  · exact hannounced (by rw [h₄]; decide) h
  · cases h
    refine ⟨[code], .op ?_, rfl⟩
    simp only [UInt8.lt_iff_toNat_lt, ← UInt8.toNat_inj, UInt8.reduceToNat] at hdirect h₁ h₂ h₄ ⊢
    omega

/-- **The first instruction is what stands written in front**, and only this. -/
theorem split?_eq_some_iff {script rest : Script} {i : Instruction} :
    split? script = some (i, rest) ↔ ∃ part, Written part i ∧ script = part ++ rest := by
  constructor
  · intro h
    cases script with
    | nil => cases h
    | cons code b => exact exists_written_of_splitAfter? h
  · rintro ⟨part, hpart, rfl⟩
    exact hpart.split?_append rest

/-! ### Complete scripts -/

lemma reads_nil_iff {script : Script} : Reads script [] ↔ script = [] := by
  constructor
  · intro h
    rw [Reads, scan] at h
    split at h
    · exact List.isEmpty_iff.mp (Prod.mk.inj h).2
    · cases (Prod.mk.inj h).1
  · rintro rfl
    exact .nil

/-- A script is read by its first instruction and the rest. -/
lemma reads_cons_iff {script : Script} {i : Instruction} {instructions : List Instruction} :
    Reads script (i :: instructions) ↔
      ∃ part rest, Written part i ∧ Reads rest instructions ∧ script = part ++ rest := by
  constructor
  · intro h
    rw [Reads, scan] at h
    split at h
    · cases (Prod.mk.inj h).1
    · rename_i first rest hsplit
      obtain ⟨part, hpart, rfl⟩ := split?_eq_some_iff.mp hsplit
      obtain ⟨hinstructions, hcomplete⟩ := Prod.mk.inj h
      obtain ⟨rfl, hrest⟩ := List.cons.inj hinstructions
      exact ⟨part, rest, hpart, Prod.ext hrest hcomplete, rfl⟩
  · rintro ⟨part, rest, hpart, hrest, rfl⟩
    rw [Reads, scan_of_split? (hpart.split?_append rest), hrest]

/-- **A script is read to its end if and only if it is a row of written
instructions.** -/
theorem reads_iff {script : Script} {instructions : List Instruction} :
    Reads script instructions ↔
      ∃ parts, List.Forall₂ Written parts instructions ∧ parts.flatten = script := by
  induction instructions generalizing script with
  | nil =>
      rw [reads_nil_iff]
      constructor
      · rintro rfl
        exact ⟨[], .nil, rfl⟩
      · rintro ⟨parts, hparts, rfl⟩
        rw [List.forall₂_nil_right_iff.mp hparts, List.flatten_nil]
  | cons i instructions ih =>
      rw [reads_cons_iff]
      constructor
      · rintro ⟨part, rest, hpart, hrest, rfl⟩
        obtain ⟨parts, hparts, rfl⟩ := ih.mp hrest
        exact ⟨part :: parts, .cons hpart hparts, List.flatten_cons⟩
      · rintro ⟨parts, hparts, rfl⟩
        obtain ⟨part, parts, hpart, hrest, rfl⟩ := List.forall₂_cons_right_iff.mp hparts
        exact ⟨part, parts.flatten, hpart, ih.mpr ⟨parts, hrest, rfl⟩, List.flatten_cons⟩

/-! ### Texts -/

/-- The outcomes of reading a text. -/
lemma ofHex_cases (text : String) :
    (∃ fault, Hex.decodeMarked text = .error fault ∧
        ofHex text = .error (.scriptDecode (.hex fault))) ∨
      ∃ script, Hex.decodeMarked text = .ok script ∧
        ofHex text =
          if (scan script).2 then .ok script else .error (.scriptDecode .truncatedPush) := by
  rw [ofHex]
  cases hhex : Hex.decodeMarked text with
  | error fault => exact .inl ⟨fault, rfl, rfl⟩
  | ok script => exact .inr ⟨script, rfl, rfl⟩

/-- **Scripts spelled out are the complete ones.** A text gives a script if and only if,
up to the mark in front and the case of the digits, it is the text of these very bytes
and the bytes are a row of written instructions. Every other text is refused as no
script. -/
theorem ofHex_exact (text : String) :
    (∀ script, ofHex text = .ok script ↔
      Hex.encode script = (Hex.stripMark text).toLower ∧
        ∃ parts instructions, List.Forall₂ Written parts instructions ∧
          parts.flatten = script) ∧
    ((∃ script, ofHex text = .ok script) ∨
      ∃ fault, ofHex text = .error (.scriptDecode fault)) := by
  have hcomplete (script : Script) : (scan script).2 = true ↔
      ∃ parts instructions, List.Forall₂ Written parts instructions ∧
        parts.flatten = script := by
    rw [exists_comm]
    simp only [← reads_iff]
    exact ⟨fun h => ⟨_, Prod.ext rfl h⟩, fun ⟨_, h⟩ => congrArg Prod.snd h⟩
  simp only [← hcomplete, ← Hex.decodeMarked_eq_ok_iff]
  rcases ofHex_cases text with ⟨fault, hhex, htext⟩ | ⟨script, hhex, htext⟩
  · rw [hhex, htext]
    exact ⟨by simp, .inr ⟨_, rfl⟩⟩
  · rw [hhex, htext]
    split_ifs with hscan
    · refine ⟨fun other => ⟨?_, ?_⟩, .inl ⟨script, rfl⟩⟩
      · rintro ⟨⟩
        exact ⟨rfl, hscan⟩
      · rintro ⟨⟨⟩, -⟩
        rfl
    · refine ⟨fun other => ⟨nofun, ?_⟩, .inr ⟨_, rfl⟩⟩
      rintro ⟨⟨⟩, hother⟩
      exact absurd hother hscan

/-- A push need not have the shortest length field, but it has to be all there. -/
example : (ofHex "0X4d0100aB").toOption = some [0x4d, 1, 0, 0xab] ∧
    (ofHex "4d0100").toOption = none := by
  decide +kernel

end Script

end CoinSpend
