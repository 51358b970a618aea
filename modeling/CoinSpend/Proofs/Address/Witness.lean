import CoinSpend.Proofs.Address.Lock
import CoinSpend.Proofs.Script.Template

/-!
Addresses of witness programs, and back.

* `Script.witnessVersion?_eq_some_iff`: which scripts are witness programs.
* `Script.IsNameable`: those of a version and a length that an address can name.
* `Address.ofWitnessProgram_eq_ok_iff`: writing in terms of the characters of a
  program, and `Address.toScript_ofList_chars`: these are read.
* `Address.ofWitnessProgram_inverse`: on a chain with witness addresses, exactly
  the nameable scripts have an address, and writing and reading are inverse to
  each other up to case.
-/

namespace CoinSpend

namespace Script

/-! ### Witness programs -/

/-- A witness program is its version, its length and the program. -/
lemma witnessProgram_of_le {version : ℕ} {program : Bytes} (h : program.length ≤ 40) :
    witnessProgram version program
      = versionCode version :: UInt8.ofNat program.length :: program := by
  rw [witnessProgram, push_of_lt (by omega)]

/-- The version that a code stands for. -/
def versionOf? (code : UInt8) : Option ℕ :=
  if code = 0 then some 0
  else if Op.one ≤ code ∧ code ≤ 0x60 then some (code.toNat - 0x50)
  else none

lemma witnessVersion?_cons (code size : UInt8) (program : Bytes) :
    witnessVersion? (code :: size :: program) =
      if program.length = size.toNat ∧ 2 ≤ size ∧ size ≤ 40 then versionOf? code else none := rfl

/-- The versions up to 16 have codes, and these are all. -/
lemma versionOf?_eq_some_iff {code : UInt8} {version : ℕ} :
    versionOf? code = some version ↔ version ≤ 16 ∧ code = versionCode version := by
  constructor
  · intro h
    rw [versionOf?] at h
    split_ifs at h with hzero hrange
    · cases h
      exact ⟨Nat.zero_le 16, hzero⟩
    · obtain rfl := Option.some.inj h
      have hlow : 0x51 ≤ code.toNat := hrange.1
      have hhigh : code.toNat ≤ 0x60 := hrange.2
      refine ⟨by omega, ?_⟩
      rw [versionCode, if_neg (by omega), Nat.add_sub_cancel' (by omega), UInt8.ofNat_toNat]
  · rintro ⟨h, rfl⟩
    exact (by decide : ∀ v : Fin 17, versionOf? (versionCode v) = some v.val)
      ⟨version, Nat.lt_succ_of_le h⟩

/-- A witness program has a known version and a push of 2 to 40 bytes. -/
lemma witnessVersion?_eq_some_iff {script : Script} {version : ℕ} :
    script.witnessVersion? = some version ↔
      ∃ program : Bytes, script = witnessProgram version program ∧ version ≤ 16 ∧
        2 ≤ program.length ∧ program.length ≤ 40 := by
  constructor
  · intro h
    match script, h with
    | code :: size :: program, h =>
        rw [witnessVersion?_cons] at h
        split_ifs at h with hsize
        obtain ⟨hlength, hlow, hhigh⟩ := hsize
        obtain ⟨hversion, rfl⟩ := versionOf?_eq_some_iff.mp h
        have hlow : 2 ≤ size.toNat := hlow
        have hhigh : size.toNat ≤ 40 := hhigh
        refine ⟨program, ?_, hversion, by omega, by omega⟩
        rw [witnessProgram_of_le (by omega), hlength, UInt8.ofNat_toNat]
  · rintro ⟨program, rfl, hversion, hlow, hhigh⟩
    have hsize : (UInt8.ofNat program.length).toNat = program.length := by
      rw [UInt8.toNat_ofNat']
      exact Nat.mod_eq_of_lt (by omega)
    rw [witnessProgram_of_le hhigh, witnessVersion?_cons, if_pos]
    · exact versionOf?_eq_some_iff.mpr ⟨hversion, rfl⟩
    · rw [UInt8.le_iff_toNat_le, UInt8.le_iff_toNat_le, hsize]
      exact ⟨rfl, hlow, hhigh⟩

/-- A witness program that an address can name: of 20 or 32 bytes in version zero,
and of 2 to 40 bytes in the later versions. -/
def IsNameable (script : Script) : Prop :=
  ∃ (version : ℕ) (program : Bytes), script = witnessProgram version program ∧
    (version = 0 ∧ (program.length = 20 ∨ program.length = 32) ∨
      1 ≤ version ∧ version ≤ 16 ∧ 2 ≤ program.length ∧ program.length ≤ 40)

lemma isNameable_iff {script : Script} :
    script.IsNameable ↔ ∃ version program, version ≤ 16 ∧
      Bech32.lengthFits version program.length ∧ script = witnessProgram version program := by
  have hfits (version : ℕ) (program : Bytes) :
      (version = 0 ∧ (program.length = 20 ∨ program.length = 32) ∨
        1 ≤ version ∧ version ≤ 16 ∧ 2 ≤ program.length ∧ program.length ≤ 40) ↔
      version ≤ 16 ∧ Bech32.lengthFits version program.length := by
    simp only [Bech32.lengthFits, Bool.and_eq_true, Bool.or_eq_true, decide_eq_true_eq,
      bne_iff_ne, beq_iff_eq]
    omega
  constructor
  · rintro ⟨version, program, hscript, h⟩
    obtain ⟨hversion, hlength⟩ := (hfits version program).mp h
    exact ⟨version, program, hversion, hlength, hscript⟩
  · rintro ⟨version, program, hversion, hlength, hscript⟩
    exact ⟨version, program, hscript, (hfits version program).mpr ⟨hversion, hlength⟩⟩

end Script

namespace Chain

/-- The prefixes of the chains leave room for the longest program. -/
lemma isPrefix_of_hrp {chain : Chain} {hrp : String} (h : chain.params.hrp = some hrp) :
    Bech32.IsPrefix hrp.toList := by
  have hlength : hrp.toList ≠ [] ∧ hrp.toList.length ≤ 18 := by
    cases chain <;> cases h <;> decide
  have hchars : hrp.toList.all (fun c => 33 ≤ c.toNat ∧ c.toNat ≤ 126 ∧ c.toLower = c) = true := by
    cases chain <;> cases h <;> decide
  simp only [List.all_eq_true, decide_eq_true_eq] at hchars
  refine ⟨⟨hlength.1, fun c hc => ?_⟩, fun c hc => ?_, hlength.2⟩
  · exact ⟨(hchars c hc).1, (hchars c hc).2.1⟩
  · exact (hchars c hc).2.2

end Chain

namespace Address

variable {text hrp : String} {params : ChainParams} {script : Script}

/-- The address of a witness program consists of the characters of the program. -/
lemma ofWitnessProgram_eq_ok_iff (hhrp : params.hrp = some hrp) :
    ofWitnessProgram script params = .ok text ↔
      ∃ version program, version ≤ 16 ∧ Bech32.lengthFits version program.length ∧
        script = Script.witnessProgram version program ∧
        text = String.ofList (Bech32.Decoded.chars ⟨hrp.toList, version, program⟩) := by
  rw [ofWitnessProgram, hhrp]
  constructor
  · intro h
    dsimp only at h
    split at h
    · cases h
    · rename_i version hversion
      obtain ⟨program, rfl, hle, -, hlength⟩ := Script.witnessVersion?_eq_some_iff.mp hversion
      split at h
      · cases h
      · rename_i written hwritten
        cases h
        rw [Script.witnessProgram_of_le hlength] at hwritten
        obtain ⟨hfits, rfl⟩ := Bech32.encode?_eq_some_iff.mp hwritten
        exact ⟨version, program, hle, hfits, rfl, rfl⟩
  · rintro ⟨version, program, hle, hfits, rfl, rfl⟩
    obtain ⟨hlow, hhigh⟩ := Bech32.bounds_of_lengthFits hfits
    have hversion : (Script.witnessProgram version program).witnessVersion? = some version :=
      Script.witnessVersion?_eq_some_iff.mpr ⟨program, rfl, hle, hlow, hhigh⟩
    have hwritten := Bech32.encode?_eq_some_iff.mpr
      ⟨hfits, (rfl : String.ofList (Bech32.Decoded.chars ⟨hrp.toList, version, program⟩) = _)⟩
    dsimp only
    rw [hversion]
    dsimp only
    rw [Script.witnessProgram_of_le hhigh, List.drop_succ_cons, List.drop_succ_cons, List.drop_zero,
      hwritten]

/-- These characters are read as a witness address. -/
lemma toScript_ofList_chars (hhrp : params.hrp = some hrp) (hfront : Bech32.IsPrefix hrp.toList)
    {version : ℕ} {program : Bytes} (hversion : version ≤ 16)
    (hlength : Bech32.lengthFits version program.length) :
    toScript (String.ofList (Bech32.Decoded.chars ⟨hrp.toList, version, program⟩)) params
      = .ok (Script.witnessProgram version program) := by
  have hfits : Bech32.Decoded.Fits ⟨hrp.toList, version, program⟩ := ⟨hversion, hlength⟩
  have hread := scriptOfSegwit_eq_ok_iff.mpr
    ⟨_, Bech32.decode?_ofList_chars hfront hfits, rfl, rfl⟩
  exact toScript_eq_ok_iff.mpr (.inl ⟨hrp, hhrp, hread⟩)

/-- **Witness addresses and nameable witness programs are the same.** On every
chain with a prefix for witness addresses, exactly the nameable scripts have an
address, this address stands for the script, and every address that stands for a
witness program is, up to case, the one that is written for it. -/
theorem ofWitnessProgram_inverse (chain : Chain) (hsegwit : chain.params.hrp.isSome) :
    (∀ script : Script,
      (∃ text, ofWitnessProgram script chain.params = .ok text) ↔ script.IsNameable) ∧
    (∀ (script : Script) (text : String), ofWitnessProgram script chain.params = .ok text →
      toScript text chain.params = .ok script) ∧
    (∀ (text : String) (script : Script), toScript text chain.params = .ok script →
      script.isWitnessProgram → ofWitnessProgram script chain.params = .ok text.toLower) := by
  obtain ⟨hrp, hhrp⟩ := Option.isSome_iff_exists.mp hsegwit
  have hfront := Chain.isPrefix_of_hrp hhrp
  refine ⟨fun script => ?_, fun script text h => ?_, fun text script h hwitness => ?_⟩
  · rw [Script.isNameable_iff]
    constructor
    · rintro ⟨text, h⟩
      obtain ⟨version, program, hversion, hlength, hscript, -⟩ :=
        (ofWitnessProgram_eq_ok_iff hhrp).mp h
      exact ⟨version, program, hversion, hlength, hscript⟩
    · rintro ⟨version, program, hversion, hlength, hscript⟩
      exact ⟨_, (ofWitnessProgram_eq_ok_iff hhrp).mpr
        ⟨version, program, hversion, hlength, hscript, rfl⟩⟩
  · obtain ⟨version, program, hversion, hlength, rfl, rfl⟩ :=
      (ofWitnessProgram_eq_ok_iff hhrp).mp h
    exact toScript_ofList_chars hhrp hfront hversion hlength
  · rcases form_of_toScript h with hbase58 | ⟨hrp', hhrp', hsegwit⟩
    · -- base-58 addresses stand for hashes, which are no witness programs
      rw [Script.isWitnessProgram] at hwitness
      obtain ⟨hash, hlength, rfl | rfl⟩ := cases_of_scriptOfBase58 hbase58
      · rw [Script.witnessVersion?_p2pkh hlength] at hwitness
        cases hwitness
      · rw [Script.witnessVersion?_p2sh hlength] at hwitness
        cases hwitness
    · obtain rfl : hrp' = hrp := Option.some.inj (hhrp'.symm.trans hhrp)
      obtain ⟨⟨_, version, program⟩, hdecoded, rfl, rfl⟩ := scriptOfSegwit_eq_ok_iff.mp hsegwit
      obtain ⟨-, -, -, ⟨hversion, hlength⟩, hchars⟩ := Bech32.decode?_eq_some_iff.mp hdecoded
      refine (ofWitnessProgram_eq_ok_iff hhrp).mpr ⟨version, program, hversion, hlength, rfl, ?_⟩
      rw [← hchars, String.ofList_toList]

/-- Pays to the hash of a key by witness. -/
def sampleWitnessScript : Script :=
  Script.p2wpkh [0x75, 0x1e, 0x76, 0xe8, 0x19, 0x91, 0x96, 0xd4, 0x54, 0x94, 0x1c, 0x45, 0xd1, 0xb3,
    0xa3, 0x23, 0xf1, 0x43, 0x3b, 0xd6]

/-- The address in upper case is read, and written again in lower case. -/
theorem ofWitnessProgram_inverse_sample :
    toScript "BC1QW508D6QEJXTDG4Y5R3ZARVARY0C5XW7KV8F3T4" Chain.bitcoin.params
        = .ok sampleWitnessScript ∧
      sampleWitnessScript.IsNameable ∧
      ofWitnessProgram sampleWitnessScript Chain.bitcoin.params
        = .ok "bc1qw508d6qejxtdg4y5r3zarvary0c5xw7kv8f3t4" ∧
      toScript "bc1qw508d6qejxtdg4y5r3zarvary0c5xw7kv8f3t4" Chain.bitcoin.params
        = .ok sampleWitnessScript := by
  obtain ⟨hnameable, hread, hwrite⟩ := ofWitnessProgram_inverse Chain.bitcoin (by decide)
  have hupper : toScript "BC1QW508D6QEJXTDG4Y5R3ZARVARY0C5XW7KV8F3T4" Chain.bitcoin.params
      = .ok sampleWitnessScript := by
    obtain ⟨script, hscript, hsample⟩ := exists_eq_ok_of_any (p := (· = sampleWitnessScript))
      (by decide +kernel :
        (toScript "BC1QW508D6QEJXTDG4Y5R3ZARVARY0C5XW7KV8F3T4" Chain.bitcoin.params).toOption.any
          (· = sampleWitnessScript))
    rwa [decide_eq_true_eq.mp hsample] at hscript
  have hlower : "BC1QW508D6QEJXTDG4Y5R3ZARVARY0C5XW7KV8F3T4".toLower
      = "bc1qw508d6qejxtdg4y5r3zarvary0c5xw7kv8f3t4" := by decide +kernel
  have hwritten := hwrite _ _ hupper (by decide)
  rw [hlower] at hwritten
  exact ⟨hupper, (hnameable _).mp ⟨_, hwritten⟩, hwritten, hread _ _ hwritten⟩

end Address

end CoinSpend
