import CoinSpend.Key.Text
import CoinSpend.Proofs.Address.Base58
import CoinSpend.Proofs.Bytes.Hex

/-!
Private keys and their texts.

* `PrivateKey.ofSecretBytes_eq_ok_iff`, `PrivateKey.ofPayload_eq_ok_iff`: which keys bytes
  and payloads stand for.
* `PrivateKey.stripMark_trimBlanks_toText`, `PrivateKey.not_isSecretHex_toText`: nothing is
  dropped from the base-58 text of a key, and it is not taken for hexadecimal.
* `PrivateKey.SpellsOut`: a text spells the secret of a key out in hexadecimal.
* `PrivateKey.ofText_exact`: a text stands for a key if it is one or the other, and it is
  never both.
-/

namespace CoinSpend

/-! ### What is dropped from a text -/

/-- A text without blanks stays as it is. -/
lemma trimBlanks_of_forall {text : String} (h : ∀ c ∈ text.toList, isBlank c = false) :
    trimBlanks text = text := by
  have hkeep {cs : List Char} (hcs : ∀ c ∈ cs, isBlank c = false) : cs.dropWhile isBlank = cs := by
    cases cs with
    | nil => rfl
    | cons c cs => exact List.dropWhile_cons_of_neg (by simp [hcs c List.mem_cons_self])
  rw [trimBlanks, hkeep h, hkeep fun c hc => h c (List.mem_reverse.mp hc), List.reverse_reverse,
    String.ofList_toList]

/-- So does a text without zeros where a mark may stand in front. -/
lemma Hex.stripMark_of_forall {text : String} (h : ∀ c ∈ text.toList, c ≠ '0') :
    stripMark text = text := by
  rw [stripMark]
  split
  · rename_i heq
    exact absurd rfl (h '0' (heq ▸ List.mem_cons_self))
  · rename_i heq
    exact absurd rfl (h '0' (heq ▸ List.mem_cons_self))
  · rfl

namespace PrivateKey

variable {params : ChainParams} {key : PrivateKey}

/-! ### Secrets and payloads -/

/-- Bytes stand for the key with their number, in the form that is told. -/
lemma ofSecretBytes_eq_ok_iff {b : Bytes} {compressed : Bool} :
    ofSecretBytes b compressed params = .ok key ↔
      key.secret.scalar = Bytes.toNatBE b ∧ key.compressed = compressed ∧
        key.network = params.networkKind := by
  obtain ⟨⟨scalar, hpos, hlt⟩, form, network⟩ := key
  rw [ofSecretBytes, SecretKey.ofBytes?]
  split_ifs with hrange
  · simp [eq_comm]
  · constructor
    · intro h
      cases h
    · rintro ⟨rfl, -, -⟩
      exact absurd ⟨hpos, hlt⟩ hrange

/-- A secret is below `256 ^ 32`. -/
lemma toNatBE_secret (secret : SecretKey) : Bytes.toNatBE secret.bytes = secret.scalar :=
  Bytes.toNatBE_ofNatBE (Nat.lt_trans secret.lt_order (by decide))

/-- The bytes of a secret are those of which it is the number. -/
lemma bytes_secret {secret : SecretKey} {b : Bytes} (hlength : b.length = 32)
    (h : secret.scalar = Bytes.toNatBE b) : secret.bytes = b := by
  rw [SecretKey.bytes, h, ← hlength, Bytes.ofNatBE_toNatBE]

/-- A version byte, a secret, and a one behind it for the short form. -/
def payloadOf (version : UInt8) (secret : Bytes) (compressed : Bool) : Bytes :=
  version :: secret ++ if compressed then [1] else []

lemma payloadForm?_eq_some_iff {payload : Bytes} {compressed : Bool} :
    payloadForm? payload = some compressed ↔
      ∃ version secret, List.length secret = 32 ∧
        payload = payloadOf version secret compressed := by
  constructor
  · intro h
    rw [payloadForm?] at h
    split_ifs at h with hlong hshort
    · obtain rfl := Option.some.inj h
      obtain ⟨version, secret, rfl⟩ := List.exists_cons_of_length_eq_add_one hlong
      exact ⟨version, secret, Nat.succ.inj hlong, (List.append_nil _).symm⟩
    · obtain rfl := Option.some.inj h
      obtain ⟨hlength, hlast⟩ := hshort
      obtain ⟨front, rfl⟩ := List.getLast?_eq_some_iff.mp hlast
      rw [List.length_append, List.length_singleton] at hlength
      obtain ⟨version, secret, rfl⟩ := List.exists_cons_of_length_eq_add_one (Nat.succ.inj hlength)
      exact ⟨version, secret, Nat.succ.inj (Nat.succ.inj hlength), rfl⟩
  · rintro ⟨version, secret, hlength, rfl⟩
    cases compressed with
    | false => simp [payloadForm?, payloadOf, hlength]
    | true =>
        have hsize : (payloadOf version secret true).length = 34 := by
          simp [payloadOf, hlength]
        have hlast : (payloadOf version secret true).getLast? = some 1 :=
          List.getLast?_eq_some_iff.mpr ⟨version :: secret, rfl⟩
        rw [payloadForm?, if_neg (by omega), if_pos ⟨hsize, hlast⟩]

/-- Version and secret are read off such a payload. -/
lemma ofPayload_payloadOf {version : UInt8} {secret : Bytes} {compressed : Bool}
    (h : secret.length = 32) :
    ofPayload (payloadOf version secret compressed) params = .ok key ↔
      version = params.privateKeyVersion ∧ ofSecretBytes secret compressed params = .ok key := by
  have hform : payloadForm? (payloadOf version secret compressed) = some compressed :=
    payloadForm?_eq_some_iff.mpr ⟨version, secret, h, rfl⟩
  have hsecret : ((payloadOf version secret compressed).drop 1).take 32 = secret :=
    List.take_left' h
  have hversion : (payloadOf version secret compressed).headD 0 = version := rfl
  simp only [ofPayload, hform, hsecret, hversion]
  split_ifs with hne
  · simp [hne]
  · simp [not_not.mp hne]

/-- A payload stands for the key of which it is the payload, and for no other. -/
lemma ofPayload_eq_ok_iff {payload : Bytes} :
    ofPayload payload params = .ok key ↔
      key.network = params.networkKind ∧ payload = key.payload params := by
  have hlength : key.secret.bytes.length = 32 := Bytes.length_ofNatBE 32 _
  constructor
  · intro h
    cases hform : payloadForm? payload with
    | none => simp [ofPayload, hform] at h
    | some compressed =>
        obtain ⟨version, secret, hsecret, rfl⟩ := payloadForm?_eq_some_iff.mp hform
        obtain ⟨rfl, hkey⟩ := (ofPayload_payloadOf hsecret).mp h
        obtain ⟨hscalar, rfl, hnetwork⟩ := ofSecretBytes_eq_ok_iff.mp hkey
        rw [← bytes_secret hsecret hscalar]
        exact ⟨hnetwork, rfl⟩
  · rintro ⟨hnetwork, rfl⟩
    exact (ofPayload_payloadOf hlength).mpr
      ⟨rfl, ofSecretBytes_eq_ok_iff.mpr ⟨(toNatBE_secret key.secret).symm, rfl, hnetwork⟩⟩

/-! ### Base-58 texts -/

/-- No chain marks private keys with a zero. -/
lemma privateKeyVersion_ne (chain : Chain) : chain.params.privateKeyVersion ≠ 0 := by
  cases chain <;> decide

variable {chain : Chain}

/-- The text of a key is shorter than a secret in hexadecimal. -/
lemma length_toText_le (key : PrivateKey) (chain : Chain) :
    (key.toText chain.params).toList.length ≤ 52 := by
  obtain ⟨rest, hrest, hlength⟩ : ∃ rest : Bytes, key.payload chain.params ++
      Base58.checksum (key.payload chain.params) = chain.params.privateKeyVersion :: rest ∧
      rest.length ≤ 37 := by
    refine ⟨key.secret.bytes ++ (if key.compressed then [1] else []) ++
      Base58.checksum (key.payload chain.params), rfl, ?_⟩
    rw [List.length_append, Base58.length_checksum, List.length_append, SecretKey.bytes,
      Bytes.length_ofNatBE]
    split_ifs <;> simp
  rw [toText, Base58.encodeCheck, hrest]
  refine Base58.length_encode_le (privateKeyVersion_ne chain) ?_
  calc 256 ^ (rest.length + 1)
      ≤ 256 ^ (37 + 1) := Nat.pow_le_pow_right (by decide) (Nat.succ_le_succ hlength)
    _ ≤ 58 ^ 52 := by decide

/-- Nothing is dropped from the text of a key. -/
lemma stripMark_trimBlanks_toText (key : PrivateKey) (params : ChainParams) :
    Hex.stripMark (trimBlanks (key.toText params)) = key.toText params := by
  have hdigits : Base58.alphabet.all (fun c => isBlank c = false ∧ c ≠ '0') = true := by decide
  simp only [List.all_eq_true, decide_eq_true_eq] at hdigits
  have hchars : ∀ c ∈ (key.toText params).toList, isBlank c = false ∧ c ≠ '0' :=
    fun c hc => hdigits c (Base58.mem_alphabet_of_mem_encode hc)
  rw [trimBlanks_of_forall fun c hc => (hchars c hc).1,
    Hex.stripMark_of_forall fun c hc => (hchars c hc).2]

/-! ### Secrets in hexadecimal -/

/-- A text spells the secret of a key out: it consists of 64 hexadecimal digits of either
case, which are the number of the secret, and the public key has the short form. -/
structure SpellsOut (text : String) (key : PrivateKey) : Prop where
  digits : ∃ values, text.toList.mapM Hex.value? = some values ∧ values.length = 64 ∧
    Nat.ofDigits 16 values.reverse = key.secret.scalar
  compressed : key.compressed = true

/-- A text has the shape of a secret if it consists of 64 digits. -/
lemma isSecretHex_iff {text : String} :
    isSecretHex text ↔ ∃ values, text.toList.mapM Hex.value? = some values ∧
      values.length = 64 := by
  simp only [isSecretHex, Bool.and_eq_true, beq_iff_eq, List.all_eq_true, mapM_eq_some_iff]
  constructor
  · rintro ⟨hlength, hdigits⟩
    obtain ⟨values, hvalues⟩ := exists_forall₂_of_forall fun c hc =>
      Option.isSome_iff_exists.mp (hdigits c hc)
    exact ⟨values, hvalues, hvalues.length_eq.symm.trans hlength⟩
  · rintro ⟨values, hvalues, hlength⟩
    refine ⟨hvalues.length_eq.trans hlength, fun c hc => ?_⟩
    obtain ⟨i, hi⟩ := List.mem_iff_getElem?.mp hc
    obtain ⟨v, -, hv⟩ := exists_getElem?_of_forall₂ hvalues hi
    rw [hv, Option.isSome_some]

lemma SpellsOut.isSecretHex {text : String} (h : SpellsOut text key) : isSecretHex text := by
  obtain ⟨values, hvalues, hlength, -⟩ := h.digits
  exact isSecretHex_iff.mpr ⟨values, hvalues, hlength⟩

/-- The base-58 text of a key has not this shape. -/
lemma not_isSecretHex_toText (key : PrivateKey) (chain : Chain) :
    ¬isSecretHex (key.toText chain.params) := by
  intro h
  obtain ⟨values, hvalues, hlength⟩ := isSecretHex_iff.mp h
  have hshort := length_toText_le key chain
  rw [(mapM_eq_some_iff.mp hvalues).length_eq, hlength] at hshort
  omega

/-! ### Both -/

/-- A text stands for a key of the chain if it spells the secret out or is the text of the
key, once blanks and mark are dropped. -/
lemma ofText_eq_ok_iff {text : String} :
    ofText text chain.params = .ok key ↔
      key.network = chain.params.networkKind ∧
        (SpellsOut (Hex.stripMark (trimBlanks text)) key ∨
          Hex.stripMark (trimBlanks text) = key.toText chain.params) := by
  rw [ofText]
  generalize Hex.stripMark (trimBlanks text) = bare
  by_cases hhex : isSecretHex bare
  · obtain ⟨values, hvalues, hlength⟩ := isSecretHex_iff.mp hhex
    obtain ⟨b, hb, hnumber⟩ := Hex.exists_decode_of_values hvalues (by rw [hlength])
    simp only [if_pos hhex, hb, ofSecretBytes_eq_ok_iff]
    constructor
    · rintro ⟨hscalar, hshort, hnetwork⟩
      exact ⟨hnetwork, .inl ⟨⟨values, hvalues, hlength, (hscalar.trans hnumber).symm⟩, hshort⟩⟩
    · rintro ⟨hnetwork, ⟨⟨_, hvalues', -, hscalar⟩, hshort⟩ | rfl⟩
      · obtain rfl := Option.some.inj (hvalues.symm.trans hvalues')
        exact ⟨hscalar.symm.trans hnumber.symm, hshort, hnetwork⟩
      · exact absurd hhex (not_isSecretHex_toText key chain)
  · have hsplit : SpellsOut bare key ∨ bare = key.toText chain.params ↔
        bare = key.toText chain.params :=
      or_iff_right fun hspells => hhex hspells.isSecretHex
    rw [hsplit, if_neg hhex, toText]
    cases hcheck : Base58.decodeCheck bare with
    | error fault =>
        have hne : bare ≠ Base58.encodeCheck (key.payload chain.params) := by
          intro heq
          rw [Base58.decodeCheck_eq_ok_iff.mpr heq] at hcheck
          cases hcheck
        simp [hne]
    | ok payload =>
        obtain rfl := Base58.decodeCheck_eq_ok_iff.mp hcheck
        have hiff : Base58.encodeCheck payload = Base58.encodeCheck (key.payload chain.params) ↔
            payload = key.payload chain.params := by
          rw [← Base58.decodeCheck_eq_ok_iff, hcheck, Except.ok.injEq]
        rw [hiff]
        exact ofPayload_eq_ok_iff

/-- **Private keys are read exactly.** The text of a key stands for its secret and the form
of its public key, with the kind of the chain. Conversely, a text that stands for a key
either spells its secret out in 64 hexadecimal digits, which makes the public key short, or
is the text of the key, once blanks and mark are dropped. It is never both. -/
theorem ofText_exact (chain : Chain) :
    (∀ key : PrivateKey, ofText (key.toText chain.params) chain.params
      = .ok { key with network := chain.params.networkKind }) ∧
    (∀ text key, ofText text chain.params = .ok key ↔
      key.network = chain.params.networkKind ∧
        (SpellsOut (Hex.stripMark (trimBlanks text)) key ∨
          Hex.stripMark (trimBlanks text) = key.toText chain.params)) ∧
    ∀ text key other, ¬(SpellsOut (Hex.stripMark (trimBlanks text)) key ∧
      Hex.stripMark (trimBlanks text) = toText other chain.params) := by
  refine ⟨fun key => ?_, fun _ _ => ofText_eq_ok_iff, ?_⟩
  · refine ofText_eq_ok_iff.mpr ⟨rfl, .inr ?_⟩
    exact stripMark_trimBlanks_toText key chain.params
  · rintro text key other ⟨hspells, htext⟩
    rw [htext] at hspells
    exact not_isSecretHex_toText other chain hspells.isSecretHex

end PrivateKey

end CoinSpend
