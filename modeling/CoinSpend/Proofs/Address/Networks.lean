import CoinSpend.Proofs.Address.Base58
import CoinSpend.Proofs.Address.Lock

/-!
An address of one chain is none of another.

* `Chain.eq_of_hrp`: no two chains share a prefix of witness addresses.
* `Chain.tests_of_version`: of all chains only the two for tests share the versions
  of their base-58 addresses.
* `Base58.leadsOf`, `Chain.addressLetters`: the letters that base-58 addresses of a version
  and of a chain start with; `Chain.eq_of_head`: the witness addresses of a chain start with
  one of them only on Litecoin and Ravencoin, and with none of another chain.
* `Address.eq_of_isWitnessAddress`: so no other chain has a text of both forms.
* `Address.tests_of_toScript`: a text that is an address of two chains is a base-58
  address of the two chains for tests, and stands for one script.
-/

namespace CoinSpend

/-- The versions of base-58 addresses: of the hash of a key and of a script. -/
def ChainParams.hashVersions (params : ChainParams) : List UInt8 :=
  [params.keyHashVersion, params.scriptHashVersion]

namespace Base58

/-- A checked text with a hash of 20 bytes has at most 34 digits behind the
first one that counts. -/
lemma Leads.exists_lt {version : UInt8} {d k : ℕ} (h : Leads version 24 d k) :
    ∃ k < 35, Leads version 24 d k := by
  rcases h with hzero | ⟨hversion, hd, hlow, hhigh⟩
  · exact ⟨0, by decide, .inl hzero⟩
  · refine ⟨k, ?_, .inr ⟨hversion, hd, hlow, hhigh⟩⟩
    by_contra hk
    have hbyte := version.toNat_lt
    have hlarge : 58 ^ 35 < 256 ^ 25 :=
      calc 58 ^ 35 ≤ 58 ^ k := Nat.pow_le_pow_right (by decide) (Nat.not_lt.mp hk)
        _ ≤ d * 58 ^ k := Nat.le_mul_of_pos_left _ (Nat.pos_of_ne_zero hd)
        _ < (version.toNat + 1) * 256 ^ 24 := hlow
        _ ≤ 256 * 256 ^ 24 := Nat.mul_le_mul_right _ hbyte
        _ = 256 ^ 25 := by decide
    exact absurd hlarge (by decide)

/-- The digits that checked texts with a hash of 20 bytes start with. -/
def leadsOf (version : UInt8) : List Char :=
  ((List.range 58).filter fun d => (List.range 35).any fun k => Leads version 24 d k).map digit

lemma mem_leadsOf {version : UInt8} {d k : ℕ} (hd : d < 58) (h : Leads version 24 d k) :
    digit d ∈ leadsOf version := by
  obtain ⟨k, hk, h⟩ := h.exists_lt
  refine List.mem_map_of_mem (List.mem_filter.mpr ⟨List.mem_range.mpr hd, ?_⟩)
  exact List.any_eq_true.mpr ⟨k, List.mem_range.mpr hk, decide_eq_true h⟩

end Base58

namespace Chain

lemma mem_all (chain : Chain) : chain ∈ all := by
  cases chain <;> decide

/-- Prefixes of witness addresses belong to one chain. -/
lemma eq_of_hrp {c₁ c₂ : Chain} {hrp : String} (h₁ : c₁.params.hrp = some hrp)
    (h₂ : c₂.params.hrp = some hrp) : c₁ = c₂ :=
  (by decide : ∀ c₁ ∈ all, ∀ c₂ ∈ all, ∀ hrp ∈ c₁.params.hrp, c₂.params.hrp = some hrp → c₁ = c₂)
    c₁ c₁.mem_all c₂ c₂.mem_all hrp h₁ h₂

/-- The two chains for tests. -/
def AreTests (c₁ c₂ : Chain) : Prop :=
  c₁ = bitcoinTestnet ∧ c₂ = bitcoinRegtest ∨ c₁ = bitcoinRegtest ∧ c₂ = bitcoinTestnet

instance (c₁ c₂ : Chain) : Decidable (AreTests c₁ c₂) :=
  inferInstanceAs (Decidable (_ ∨ _))

/-- Only the two chains for tests share versions. -/
lemma tests_of_version {c₁ c₂ : Chain} (hne : c₁ ≠ c₂) {version : UInt8}
    (h₁ : version ∈ c₁.params.hashVersions) (h₂ : version ∈ c₂.params.hashVersions) :
    AreTests c₁ c₂ :=
  (by decide +kernel : ∀ c₁ ∈ all, ∀ c₂ ∈ all, c₁ ≠ c₂ → ∀ version ∈ c₁.params.hashVersions,
    version ∈ c₂.params.hashVersions → AreTests c₁ c₂)
    c₁ c₁.mem_all c₂ c₂.mem_all hne version h₁ h₂

/-- They share all versions. -/
lemma AreTests.versions_eq {c₁ c₂ : Chain} (h : AreTests c₁ c₂) :
    c₁.params.keyHashVersion = c₂.params.keyHashVersion ∧
      c₁.params.scriptHashVersion = c₂.params.scriptHashVersion := by
  rcases h with ⟨rfl, rfl⟩ | ⟨rfl, rfl⟩ <;> exact ⟨rfl, rfl⟩

/-- The letters that base-58 addresses of a chain start with. -/
def addressLetters : Chain → List Char
  | bitcoin => ['1', '3']
  | bitcoinTestnet | bitcoinRegtest => ['m', 'n', '2']
  | litecoin => ['L', 'M']
  | dogecoin => ['D', '9', 'A']
  | ravencoin => ['R', 'r']

/-- With a version of the chain a text starts with no other letter. -/
lemma leadsOf_subset_addressLetters {chain : Chain} {version : UInt8}
    (h : version ∈ chain.params.hashVersions) : Base58.leadsOf version ⊆ chain.addressLetters :=
  (by decide +kernel : ∀ chain ∈ all, ∀ version ∈ chain.params.hashVersions,
    Base58.leadsOf version ⊆ chain.addressLetters) chain chain.mem_all version h

/-- **First letters.** A letter that base-58 addresses and witness addresses start with, in
either case, belongs to Litecoin or to Ravencoin. -/
lemma eq_of_head {c₁ c₂ : Chain} {hrp : String} {letter : Char} (hhrp : c₁.params.hrp = some hrp)
    (hletter : letter ∈ c₂.addressLetters) (hhead : hrp.toList.head? = some letter.toLower) :
    c₁ = c₂ ∧ (c₁ = litecoin ∨ c₁ = ravencoin) :=
  (by decide : ∀ c₁ ∈ all, ∀ c₂ ∈ all, ∀ hrp ∈ c₁.params.hrp,
    hrp.toList.head? ∈ c₂.addressLetters.map (fun letter => some letter.toLower) →
      c₁ = c₂ ∧ (c₁ = litecoin ∨ c₁ = ravencoin))
    c₁ c₁.mem_all c₂ c₂.mem_all hrp hhrp (List.mem_map.mpr ⟨letter, hletter, hhead.symm⟩)

end Chain

namespace Address

variable {text hrp : String} {c₁ c₂ : Chain} {s₁ s₂ : Script}

/-- A base-58 address has one of the versions of the chain. -/
lemma exists_version_of_scriptOfBase58 {params : ChainParams} {script : Script}
    (h : scriptOfBase58 text params = .ok script) :
    ∃ version ∈ params.hashVersions, ∃ hash : Bytes, hash.length = 20 ∧
      text = Base58.encodeCheck (version :: hash) := by
  obtain ⟨version, hash, hcheck, hlength, hversion⟩ := scriptOfBase58_eq_ok_iff.mp h
  refine ⟨version, ?_, hash, hlength, Base58.decodeCheck_eq_ok_iff.mp hcheck⟩
  rcases hversion with ⟨rfl, -⟩ | ⟨-, rfl, -⟩
  · exact List.mem_cons_self
  · exact List.mem_cons_of_mem _ List.mem_cons_self

/-- A base-58 address of a chain is a witness address of no other chain, and of the same
one only on Litecoin and Ravencoin. -/
lemma eq_of_isWitnessAddress {version : UInt8} (hversion : version ∈ c₂.params.hashVersions)
    {hash : Bytes} (hlength : hash.length = 20)
    (h : IsWitnessAddress (Base58.encodeCheck (version :: hash)) c₁.params) :
    c₁ = c₂ ∧ (c₁ = .litecoin ∨ c₁ = .ravencoin) := by
  obtain ⟨hrp, decoded, hhrp, hdecoded, hfront⟩ := h
  obtain ⟨d, k, hd, hhead, hleads⟩ :=
    Base58.exists_leads version (hash ++ Base58.checksum (version :: hash))
  rw [List.length_append, hlength, Base58.length_checksum] at hleads
  obtain ⟨-, -, ⟨hletters, -⟩, -, hchars⟩ := Bech32.decode?_eq_some_iff.mp hdecoded
  -- the first letter of the text in lower case, in both forms
  have hsegwit : (Base58.encodeCheck (version :: hash)).toLower.toList.head?
      = hrp.toList.head? := by
    rw [hchars, Bech32.Decoded.chars, List.head?_append_of_ne_nil _ hletters, hfront]
  have hbase58 : (Base58.encodeCheck (version :: hash)).toLower.toList.head?
      = some (Base58.digit d).toLower := by
    rw [toList_toLower, List.head?_map, Base58.encodeCheck, List.cons_append, hhead]
    rfl
  have hletter := Chain.leadsOf_subset_addressLetters hversion (Base58.mem_leadsOf hd hleads)
  exact Chain.eq_of_head hhrp hletter (hsegwit.symm.trans hbase58)

/-- No text is a witness address of one chain and a base-58 address of another. -/
lemma not_segwit_and_base58 (hne : c₁ ≠ c₂) (hhrp : c₁.params.hrp = some hrp)
    (h₁ : scriptOfSegwit text hrp = .ok s₁) : scriptOfBase58 text c₂.params ≠ .ok s₂ := by
  intro h₂
  obtain ⟨decoded, hdecoded, hfront, -⟩ := scriptOfSegwit_eq_ok_iff.mp h₁
  obtain ⟨version, hversion, hash, hlength, rfl⟩ := exists_version_of_scriptOfBase58 h₂
  exact hne (eq_of_isWitnessAddress hversion hlength ⟨hrp, decoded, hhrp, hdecoded, hfront⟩).1

/-- A base-58 address of two chains is one of the two chains for tests, which read
it in the same way. -/
lemma tests_of_scriptOfBase58 (hne : c₁ ≠ c₂) (h₁ : scriptOfBase58 text c₁.params = .ok s₁)
    (h₂ : scriptOfBase58 text c₂.params = .ok s₂) : Chain.AreTests c₁ c₂ ∧ s₁ = s₂ := by
  obtain ⟨version, hversion₁, hash, -, htext⟩ := exists_version_of_scriptOfBase58 h₁
  obtain ⟨version', hversion₂, hash', -, htext'⟩ := exists_version_of_scriptOfBase58 h₂
  have hpayload := (Base58.decodeCheck_eq_ok_iff.mpr htext).symm.trans
    (Base58.decodeCheck_eq_ok_iff.mpr htext')
  obtain ⟨rfl, -⟩ := List.cons.inj (Except.ok.inj hpayload)
  have htests := Chain.tests_of_version hne hversion₁ hversion₂
  obtain ⟨hkey, hscript⟩ := htests.versions_eq
  have hsame : scriptOfBase58 text c₁.params = .ok s₂ := by
    rw [scriptOfBase58_eq_ok_iff, hkey, hscript]
    exact scriptOfBase58_eq_ok_iff.mp h₂
  exact ⟨htests, Except.ok.inj (h₁.symm.trans hsame)⟩

/-- **No address crosses chains.** A text that is an address of two different chains
is a checked base-58 text, the chains are the two for tests, and both read it as
the same script, that of the hash of a key or of a script. -/
theorem tests_of_toScript (hne : c₁ ≠ c₂) (h₁ : toScript text c₁.params = .ok s₁)
    (h₂ : toScript text c₂.params = .ok s₂) :
    (c₁ = .bitcoinTestnet ∧ c₂ = .bitcoinRegtest ∨ c₁ = .bitcoinRegtest ∧ c₂ = .bitcoinTestnet) ∧
      s₁ = s₂ ∧ ∃ (version : UInt8) (hash : Bytes), hash.length = 20 ∧
        text = Base58.encodeCheck (version :: hash) ∧
        (s₁ = Script.p2pkh hash ∨ s₁ = Script.p2sh hash) := by
  rcases form_of_toScript h₁ with hbase₁ | ⟨hrp, hhrp₁, hsegwit₁⟩
  · rcases form_of_toScript h₂ with hbase₂ | ⟨hrp, hhrp₂, hsegwit₂⟩
    · obtain ⟨htests, hsame⟩ := tests_of_scriptOfBase58 hne hbase₁ hbase₂
      obtain ⟨version, hash, hcheck, hlength, hcases⟩ := scriptOfBase58_eq_ok_iff.mp hbase₁
      refine ⟨htests, hsame, version, hash, hlength, Base58.decodeCheck_eq_ok_iff.mp hcheck, ?_⟩
      exact hcases.imp And.right fun h => h.2.2
    · exact absurd hbase₁ (not_segwit_and_base58 hne.symm hhrp₂ hsegwit₂)
  · rcases form_of_toScript h₂ with hbase₂ | ⟨hrp', hhrp₂, hsegwit₂⟩
    · exact absurd hbase₂ (not_segwit_and_base58 hne hhrp₁ hsegwit₁)
    · -- two witness addresses have one prefix, and with it one chain
      obtain ⟨decoded, hdecoded, hfront, -⟩ := scriptOfSegwit_eq_ok_iff.mp hsegwit₁
      obtain ⟨decoded', hdecoded', hfront', -⟩ := scriptOfSegwit_eq_ok_iff.mp hsegwit₂
      obtain rfl := Option.some.inj (hdecoded.symm.trans hdecoded')
      obtain rfl := String.toList_injective (hfront.symm.trans hfront')
      exact absurd (Chain.eq_of_hrp hhrp₁ hhrp₂) hne

/-- An address that both chains for tests read. -/
theorem tests_of_toScript_sample :
    Chain.bitcoinTestnet ≠ Chain.bitcoinRegtest ∧
      ∃ script,
        toScript "mrCDrCybB6J1vRfbwM5hemdJz73FwDBC8r" Chain.bitcoinTestnet.params = .ok script ∧
        toScript "mrCDrCybB6J1vRfbwM5hemdJz73FwDBC8r" Chain.bitcoinRegtest.params = .ok script ∧
        ∃ (version : UInt8) (hash : Bytes), hash.length = 20 ∧
          "mrCDrCybB6J1vRfbwM5hemdJz73FwDBC8r" = Base58.encodeCheck (version :: hash) ∧
          (script = Script.p2pkh hash ∨ script = Script.p2sh hash) := by
  have hne : Chain.bitcoinTestnet ≠ Chain.bitcoinRegtest := by decide
  obtain ⟨s₁, h₁⟩ := exists_eq_ok_of_isSome (x :=
    toScript "mrCDrCybB6J1vRfbwM5hemdJz73FwDBC8r" Chain.bitcoinTestnet.params) (by decide +kernel)
  obtain ⟨s₂, h₂⟩ := exists_eq_ok_of_isSome (x :=
    toScript "mrCDrCybB6J1vRfbwM5hemdJz73FwDBC8r" Chain.bitcoinRegtest.params) (by decide +kernel)
  obtain ⟨-, rfl, hpayload⟩ := tests_of_toScript hne h₁ h₂
  exact ⟨hne, s₁, h₁, h₂, hpayload⟩

end Address

end CoinSpend
