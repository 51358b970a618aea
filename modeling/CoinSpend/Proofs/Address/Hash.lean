import CoinSpend.Proofs.Address.Networks
import CoinSpend.Proofs.Address.Witness

/-!
Addresses of hashes, and the scripts they were made for.

* `Address.toScript_of_scriptOfBase58`: what a base-58 address stands for is found unless
  the text is a witness address too.
* `Address.scriptOfBase58_keyHash`, `Address.scriptOfBase58_scriptHash`: what the texts
  with the two versions of a chain stand for.
* `Address.not_isWitnessAddress_of_hash`: on the chains other than Litecoin and Ravencoin
  these are no witness addresses.
* `Address.toScript_of_hash`: the address of a hash stands for the script of the hash, on
  those chains always, and on the other two unless it is a witness address.
-/

namespace CoinSpend

/-- A chain tells the hash of a key from that of a script. -/
lemma Chain.scriptHashVersion_ne_keyHashVersion (chain : Chain) :
    chain.params.scriptHashVersion ≠ chain.params.keyHashVersion := by
  cases chain <;> decide

namespace Address

section Forms

variable {text hrp : String} {params : ChainParams} {script : Script}

/-- A base-58 address stands for no witness program. -/
lemma not_isWitnessProgram_of_scriptOfBase58 (h : scriptOfBase58 text params = .ok script) :
    ¬script.isWitnessProgram := by
  obtain ⟨hash, hlength, rfl | rfl⟩ := cases_of_scriptOfBase58 h
  · exact Script.not_isWitnessProgram_of_isP2pkh (Script.isP2pkh_iff.mpr ⟨hash, hlength, rfl⟩)
  · exact Script.not_isWitnessProgram_of_isP2sh (Script.isP2sh_iff.mpr ⟨hash, hlength, rfl⟩)

/-- A witness address stands for one. -/
lemma isWitnessProgram_of_scriptOfSegwit (h : scriptOfSegwit text hrp = .ok script) :
    script.isWitnessProgram := by
  obtain ⟨decoded, hdecoded, -, rfl⟩ := scriptOfSegwit_eq_ok_iff.mp h
  obtain ⟨-, -, -, ⟨hversion, hfits⟩, -⟩ := Bech32.decode?_eq_some_iff.mp hdecoded
  obtain ⟨hlow, hhigh⟩ := Bech32.bounds_of_lengthFits hfits
  have hsome := Script.witnessVersion?_eq_some_iff.mpr
    ⟨decoded.program, rfl, hversion, hlow, hhigh⟩
  rw [Script.isWitnessProgram, hsome, Option.isSome_some]

/-- **Reading falls back.** A base-58 address is read as such if and only if it is no
witness address. -/
lemma toScript_of_scriptOfBase58 (h : scriptOfBase58 text params = .ok script) :
    toScript text params = .ok script ↔ ¬IsWitnessAddress text params := by
  constructor
  · intro hscript
    rcases toScript_eq_ok_iff.mp hscript with ⟨hrp, -, hsegwit⟩ | ⟨hnot, -⟩
    · exact absurd (isWitnessProgram_of_scriptOfSegwit hsegwit)
        (not_isWitnessProgram_of_scriptOfBase58 h)
    · exact hnot
  · exact fun hnot => toScript_eq_ok_iff.mpr (.inr ⟨hnot, h⟩)

end Forms

variable (chain : Chain) {hash : Bytes}

/-- The text with the version for keys stands for the hash of a key. -/
lemma scriptOfBase58_keyHash (h : hash.length = 20) :
    scriptOfBase58 (Base58.encodeCheck (chain.params.keyHashVersion :: hash)) chain.params
      = .ok (Script.p2pkh hash) :=
  scriptOfBase58_eq_ok_iff.mpr
    ⟨_, hash, Base58.decodeCheck_eq_ok_iff.mpr rfl, h, .inl ⟨rfl, rfl⟩⟩

/-- The text with the version for scripts stands for the hash of a script. -/
lemma scriptOfBase58_scriptHash (h : hash.length = 20) :
    scriptOfBase58 (Base58.encodeCheck (chain.params.scriptHashVersion :: hash)) chain.params
      = .ok (Script.p2sh hash) :=
  scriptOfBase58_eq_ok_iff.mpr
    ⟨_, hash, Base58.decodeCheck_eq_ok_iff.mpr rfl, h,
      .inr ⟨chain.scriptHashVersion_ne_keyHashVersion, rfl, rfl⟩⟩

variable {chain}

/-- Only on Litecoin and Ravencoin does a witness address start like the address of a
hash. -/
lemma not_isWitnessAddress_of_hash (hlitecoin : chain ≠ .litecoin) (hravencoin : chain ≠ .ravencoin)
    {version : UInt8} (hversion : version ∈ chain.params.hashVersions) (h : hash.length = 20) :
    ¬IsWitnessAddress (Base58.encodeCheck (version :: hash)) chain.params := by
  intro hwitness
  rcases (eq_of_isWitnessAddress hversion h hwitness).2 with heq | heq
  · exact hlitecoin heq
  · exact hravencoin heq

/-- **Addresses of hashes.** On every chain, the address of the hash of a key stands for
the script that pays to this hash, and the address of the hash of a script for the one that
pays to that hash, exactly if the text is not a witness address of the chain as well; so
does the address of a key. On Bitcoin, its two chains for tests and Dogecoin it never is. -/
theorem toScript_of_hash (chain : Chain) :
    (∀ hash : Bytes, hash.length = 20 →
      (toScript (Base58.encodeCheck (chain.params.keyHashVersion :: hash)) chain.params
          = .ok (Script.p2pkh hash) ↔
        ¬IsWitnessAddress (Base58.encodeCheck (chain.params.keyHashVersion :: hash))
          chain.params) ∧
      (toScript (Base58.encodeCheck (chain.params.scriptHashVersion :: hash)) chain.params
          = .ok (Script.p2sh hash) ↔
        ¬IsWitnessAddress (Base58.encodeCheck (chain.params.scriptHashVersion :: hash))
          chain.params)) ∧
    (∀ key : PublicKey,
      toScript (ofPublicKey key chain.params) chain.params = .ok (Script.p2pkh key.hash) ↔
        ¬IsWitnessAddress (ofPublicKey key chain.params) chain.params) ∧
    (chain = .bitcoin ∨ chain = .bitcoinTestnet ∨ chain = .bitcoinRegtest ∨ chain = .dogecoin →
      (∀ version ∈ chain.params.hashVersions, ∀ hash : Bytes, hash.length = 20 →
        ¬IsWitnessAddress (Base58.encodeCheck (version :: hash)) chain.params) ∧
      (∀ hash : Bytes, hash.length = 20 →
        toScript (Base58.encodeCheck (chain.params.keyHashVersion :: hash)) chain.params
            = .ok (Script.p2pkh hash) ∧
          toScript (Base58.encodeCheck (chain.params.scriptHashVersion :: hash)) chain.params
            = .ok (Script.p2sh hash)) ∧
      ∀ key : PublicKey,
        toScript (ofPublicKey key chain.params) chain.params = .ok (Script.p2pkh key.hash)) := by
  have hkey (hash : Bytes) (h : hash.length = 20) :=
    toScript_of_scriptOfBase58 (scriptOfBase58_keyHash chain h)
  have hscript (hash : Bytes) (h : hash.length = 20) :=
    toScript_of_scriptOfBase58 (scriptOfBase58_scriptHash chain h)
  refine ⟨fun hash h => ⟨hkey hash h, hscript hash h⟩,
    fun key => hkey key.hash (length_hash160 _), fun hchain => ?_⟩
  have hothers : chain ≠ .litecoin ∧ chain ≠ .ravencoin := by
    rcases hchain with rfl | rfl | rfl | rfl <;> decide
  have hnot (version : UInt8) (hversion : version ∈ chain.params.hashVersions) (hash : Bytes)
      (h : hash.length = 20) :=
    not_isWitnessAddress_of_hash hothers.1 hothers.2 hversion h
  have hkeyHash (hash : Bytes) (h : hash.length = 20) :=
    (hkey hash h).mpr (hnot _ List.mem_cons_self hash h)
  have hscriptHash (hash : Bytes) (h : hash.length = 20) :=
    (hscript hash h).mpr (hnot _ (List.mem_cons_of_mem _ List.mem_cons_self) hash h)
  exact ⟨hnot, fun hash h => ⟨hkeyHash hash h, hscriptHash hash h⟩,
    fun key => hkeyHash key.hash (length_hash160 _)⟩

/-- The hash of a script whose address starts like a witness address of Ravencoin, up to
case. -/
def sampleScriptHash : Bytes :=
  [0x3f, 0x61, 0xdb, 0x0a, 0xe1, 0xa6, 0x50, 0xd2, 0xde, 0xf1, 0x3a, 0x45, 0x21, 0xc7, 0x15,
    0x27, 0x97, 0x26, 0x58, 0x11]

/-- The address is in two cases, and so no witness address; on Bitcoin the hash is read
without such a check. -/
theorem toScript_of_hash_sample :
    Base58.encodeCheck (Chain.ravencoin.params.scriptHashVersion :: sampleScriptHash)
        = "rC1ivTn79JWLT4D2Z1DNaEtawTo76vRyQA" ∧
      toScript "rC1ivTn79JWLT4D2Z1DNaEtawTo76vRyQA" Chain.ravencoin.params
        = .ok (Script.p2sh sampleScriptHash) ∧
      toScript (Base58.encodeCheck (Chain.bitcoin.params.scriptHashVersion :: sampleScriptHash))
        Chain.bitcoin.params = .ok (Script.p2sh sampleScriptHash) := by
  have htext : Base58.encodeCheck (Chain.ravencoin.params.scriptHashVersion :: sampleScriptHash)
      = "rC1ivTn79JWLT4D2Z1DNaEtawTo76vRyQA" := by decide +kernel
  have hnot : ¬IsWitnessAddress "rC1ivTn79JWLT4D2Z1DNaEtawTo76vRyQA" Chain.ravencoin.params := by
    rintro ⟨-, decoded, -, hdecoded, -⟩
    have hcase := (Bech32.decode?_eq_some_iff.mp hdecoded).2.1
    exact absurd hcase (by decide +kernel)
  obtain ⟨hravencoin, -, -⟩ := toScript_of_hash .ravencoin
  obtain ⟨-, -, hbitcoin⟩ := toScript_of_hash .bitcoin
  have hread := (hravencoin sampleScriptHash rfl).2
  rw [htext] at hread
  exact ⟨htext, hread.mpr hnot, ((hbitcoin (.inl rfl)).2.1 sampleScriptHash rfl).2⟩

end Address

end CoinSpend
