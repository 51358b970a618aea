import CoinSpend.Address.Basic
import CoinSpend.Proofs.Address.Bech32
import CoinSpend.Proofs.Script.Scan

/-!
The scripts that addresses stand for.

* `Address.scriptOfBase58_eq_ok_iff`, `Address.scriptOfSegwit_eq_ok_iff`: what each
  of the two forms is read as.
* `Address.IsWitnessAddress`: the texts that hold a program behind the prefix of the
  chain; `Address.toScript_eq_ok_iff`: these are read as witness addresses, and all
  others as base-58 addresses.
* `Address.cases_of_toScript`: the address of a chain stands for the hash of a
  key, the hash of a script, or a witness program of a length that fits its
  version.
* `Address.length_le_of_toScript`: such a script is short.
* `Address.sigops_le_of_toScript`: such a script checks at most one signature by
  itself.
-/

namespace CoinSpend

namespace Address

variable {text : String} {params : ChainParams} {script : Script}

/-! ### The two forms -/

/-- A base-58 address holds the version of the hash of a key or of a script, and
this hash. -/
lemma scriptOfBase58_eq_ok_iff :
    scriptOfBase58 text params = .ok script ↔
      ∃ version hash, Base58.decodeCheck text = .ok (version :: hash) ∧ hash.length = 20 ∧
        (version = params.keyHashVersion ∧ script = Script.p2pkh hash ∨
          version ≠ params.keyHashVersion ∧ version = params.scriptHashVersion ∧
            script = Script.p2sh hash) := by
  constructor
  · intro h
    rw [scriptOfBase58] at h
    split at h
    · cases h
    · cases h
    · rename_i version hash hdecode
      split_ifs at h with hlength hkey hscript
      · cases h
        exact ⟨version, hash, hdecode, not_not.mp hlength, .inl ⟨hkey, rfl⟩⟩
      · cases h
        exact ⟨version, hash, hdecode, not_not.mp hlength, .inr ⟨hkey, hscript, rfl⟩⟩
  · rintro ⟨version, hash, hdecode, hlength, ⟨hkey, rfl⟩ | ⟨hkey, hscript, rfl⟩⟩
    · rw [scriptOfBase58, hdecode]
      exact (if_neg (not_not.mpr hlength)).trans (if_pos hkey)
    · rw [scriptOfBase58, hdecode]
      exact (if_neg (not_not.mpr hlength)).trans ((if_neg hkey).trans (if_pos hscript))

/-- A witness address holds the prefix and a program. -/
lemma scriptOfSegwit_eq_ok_iff {hrp : String} :
    scriptOfSegwit text hrp = .ok script ↔
      ∃ decoded : Bech32.Decoded, Bech32.decode? text = some decoded ∧
        decoded.hrp = hrp.toList ∧
        script = Script.witnessProgram decoded.version decoded.program := by
  rw [scriptOfSegwit]
  cases Bech32.decode? text with
  | none => simp
  | some decoded =>
      by_cases hhrp : decoded.hrp = hrp.toList
      · simp [hhrp, eq_comm]
      · simp [hhrp]

/-- A witness address of the chain: a text of a program, behind the prefix of the
chain. -/
def IsWitnessAddress (text : String) (params : ChainParams) : Prop :=
  ∃ hrp decoded, params.hrp = some hrp ∧ Bech32.decode? text = some decoded ∧
    decoded.hrp = hrp.toList

/-- A program behind the prefix has the shape that is tried first. -/
lemma hasSegwitShape_of_decode? {hrp : String} {decoded : Bech32.Decoded}
    (hdecoded : Bech32.decode? text = some decoded) (hfront : decoded.hrp = hrp.toList) :
    hasSegwitShape text hrp = true := by
  obtain ⟨-, hcase, -, -, hchars⟩ := Bech32.decode?_eq_some_iff.mp hdecoded
  rw [hasSegwitShape, Bool.and_eq_true, decide_eq_true_eq, List.isPrefixOf_iff_prefix, hchars,
    ← hfront]
  exact ⟨hcase, _, List.append_assoc _ _ _⟩

/-- **Two forms.** What a witness address stands for is decided by its program; every
other text is read as a base-58 address, also where it has the shape of a witness
address. -/
theorem toScript_eq_ok_iff :
    toScript text params = .ok script ↔
      (∃ hrp, params.hrp = some hrp ∧ scriptOfSegwit text hrp = .ok script) ∨
        ¬IsWitnessAddress text params ∧ scriptOfBase58 text params = .ok script := by
  rw [toScript]
  cases hhrp : params.hrp with
  | none => simp [IsWitnessAddress, hhrp]
  | some hrp =>
      dsimp only
      cases hsegwit : scriptOfSegwit text hrp with
      | ok program =>
          obtain ⟨decoded, hdecoded, hfront, -⟩ := scriptOfSegwit_eq_ok_iff.mp hsegwit
          have hwitness : IsWitnessAddress text params := ⟨hrp, decoded, hhrp, hdecoded, hfront⟩
          rw [if_pos (hasSegwitShape_of_decode? hdecoded hfront)]
          simp [hsegwit, hwitness]
      | error fault =>
          have hwitness : ¬IsWitnessAddress text params := by
            rintro ⟨hrp', decoded, hhrp', hdecoded, hfront⟩
            obtain rfl : hrp = hrp' := Option.some.inj (hhrp.symm.trans hhrp')
            have hread := scriptOfSegwit_eq_ok_iff.mpr ⟨decoded, hdecoded, hfront, rfl⟩
            cases hsegwit.symm.trans hread
          -- whether the fault or that of the other form is reported makes no difference
          cases hbase58 : scriptOfBase58 text params <;> split_ifs <;> simp [hsegwit, hwitness]

/-- An address is read in one of the two forms. -/
lemma form_of_toScript (h : toScript text params = .ok script) :
    scriptOfBase58 text params = .ok script ∨
      ∃ hrp, params.hrp = some hrp ∧ scriptOfSegwit text hrp = .ok script :=
  (toScript_eq_ok_iff.mp h).symm.imp_left And.right

/-! ### The scripts -/

/-- A base-58 address stands for the hash of a key or of a script. -/
lemma cases_of_scriptOfBase58 (h : scriptOfBase58 text params = .ok script) :
    ∃ hash : Bytes, hash.length = 20 ∧
      (script = Script.p2pkh hash ∨ script = Script.p2sh hash) := by
  obtain ⟨_, hash, -, hlength, ⟨-, hscript⟩ | ⟨-, -, hscript⟩⟩ := scriptOfBase58_eq_ok_iff.mp h
  · exact ⟨hash, hlength, .inl hscript⟩
  · exact ⟨hash, hlength, .inr hscript⟩

/-- The three kinds of scripts that addresses stand for. -/
lemma cases_of_toScript (h : toScript text params = .ok script) :
    (∃ hash : Bytes, hash.length = 20 ∧
      (script = Script.p2pkh hash ∨ script = Script.p2sh hash)) ∨
      ∃ version program, version ≤ 16 ∧ Bech32.lengthFits version program.length ∧
        script = Script.witnessProgram version program := by
  rcases form_of_toScript h with hbase58 | ⟨hrp, -, hsegwit⟩
  · exact .inl (cases_of_scriptOfBase58 hbase58)
  · obtain ⟨decoded, hdecoded, -, rfl⟩ := scriptOfSegwit_eq_ok_iff.mp hsegwit
    obtain ⟨-, -, -, ⟨hversion, hlength⟩, -⟩ := Bech32.decode?_eq_some_iff.mp hdecoded
    exact .inr ⟨_, _, hversion, hlength, rfl⟩

/-- The script of an address is short. -/
lemma length_le_of_toScript (h : toScript text params = .ok script) : script.length ≤ 46 := by
  rcases cases_of_toScript h with
    ⟨hash, hlength, rfl | rfl⟩ | ⟨version, program, -, hfits, rfl⟩
  · simp [Script.p2pkh_of_length hlength, hlength]
  · simp [Script.p2sh_of_length hlength, hlength]
  · have hpush := Script.length_push_le program
    obtain ⟨-, hlength⟩ := Bech32.bounds_of_lengthFits hfits
    rw [Script.witnessProgram, List.length_cons]
    omega

/-- The script of an address checks at most one signature by itself. -/
lemma sigops_le_of_toScript (h : toScript text params = .ok script) :
    Script.sigops false script ≤ 1 := by
  rcases cases_of_toScript h with
    ⟨hash, hlength, rfl | rfl⟩ | ⟨version, program, hversion, hfits, rfl⟩
  · rw [Script.sigops_p2pkh hlength]
  · rw [Script.sigops_p2sh hlength]
    exact Nat.zero_le 1
  · have hle : program.length ≤ Script.maxPush := by
      obtain ⟨-, hlength⟩ := Bech32.bounds_of_lengthFits hfits
      rw [Script.maxPush]
      omega
    rw [Script.sigops_witnessProgram hversion hle]
    exact Nat.zero_le 1

end Address

end CoinSpend
