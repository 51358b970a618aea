import Mathlib.Data.List.Nodup
import Mathlib.Data.List.Perm.Basic
import CoinSpend.Config.Environment
import CoinSpend.Proofs.Json.Number
import CoinSpend.Proofs.Outcome

/-!
Settings survive the environment.

* `Environment.readNumber_toString`: a number between the bounds is read back from its
  decimal text.
* `Environment.Holds`: the variables with the prefix set the fields of given settings,
  each in a variable of its own, in any order and in letters of either case.
* `Environment.set_without`: such a variable adds its field to those read before it.
  `Environment.readFields_without`: hence all variables together add all fields.
* `Environment.load_of_holds`: from an environment that holds settings these are loaded.
-/

namespace CoinSpend

namespace Environment

/-! ### Numbers -/

/-- A number, or the number below zero with the same digits. -/
def signed (downwards : Bool) (n : ℕ) : ℤ :=
  if downwards then -n else n

/-- Digits do not lower the number that they go on with. -/
lemma le_ofDigitChars (digits : List Char) (n : ℕ) : n ≤ Nat.ofDigitChars 10 digits n := by
  induction digits generalizing n with
  | nil => exact Nat.le_refl n
  | cons c digits ih =>
      rw [Nat.ofDigitChars_cons]
      exact Nat.le_trans (by omega) (ih _)

/-- Digits are taken in if the number that they make lies between the bounds, as the
numbers on the way to it lie between zero and this number. -/
lemma accumulate_digits {low high : ℤ} (hlow : low ≤ 0) (hhigh : 0 ≤ high) (downwards : Bool)
    {digits : List Char} (hdigits : ∀ c ∈ digits, c.isDigit) {n : ℕ}
    (hleast : low ≤ signed downwards (Nat.ofDigitChars 10 digits n))
    (hmost : signed downwards (Nat.ofDigitChars 10 digits n) ≤ high) :
    accumulate low high downwards (signed downwards n) digits
      = .ok (signed downwards (Nat.ofDigitChars 10 digits n)) := by
  induction digits generalizing n with
  | nil => rfl
  | cons c digits ih =>
      obtain ⟨hc, hrest⟩ := List.forall_mem_cons.mp hdigits
      have hdigit : '0' ≤ c ∧ c ≤ '9' := by
        rw [Char.isDigit, Bool.and_eq_true] at hc
        exact ⟨of_decide_eq_true hc.1, of_decide_eq_true hc.2⟩
      have hvalue := (Char.isDigit_iff_toNat.mp hc).1
      rw [Nat.ofDigitChars_cons] at hleast hmost ⊢
      have hgrows := le_ofDigitChars digits (10 * n + (c.toNat - '0'.toNat))
      have hnext : (if downwards = true then 10 * signed downwards n - ((c.toNat : ℤ) - 48)
          else 10 * signed downwards n + ((c.toNat : ℤ) - 48))
          = signed downwards (10 * n + (c.toNat - '0'.toNat)) := by
        have hzero : '0'.toNat = 48 := rfl
        cases downwards <;> simp only [signed, if_true, if_false, Bool.false_eq_true] <;> omega
      have hbetween : low ≤ signed downwards (10 * n + (c.toNat - '0'.toNat)) ∧
          signed downwards (10 * n + (c.toNat - '0'.toNat)) ≤ high := by
        cases downwards <;>
          simp only [signed, if_true, if_false, Bool.false_eq_true] at hleast hmost ⊢ <;> omega
      rw [accumulate, if_pos hdigit]
      simp only [hnext]
      rw [if_neg (Int.not_lt.mpr hbetween.1), if_neg (Int.not_lt.mpr hbetween.2)]
      exact ih hrest hleast hmost

/-- A text of digits holds no sign. -/
lemma readNumber_of_digits {low high : ℤ} {text : String} {c : Char} {digits : List Char}
    (htext : text.toList = c :: digits) (hc : c.isDigit) :
    readNumber low high text = accumulate low high false 0 (c :: digits) := by
  have hplus : c ≠ '+' := by
    rintro rfl
    cases hc
  have hminus : c ≠ '-' := by
    rintro rfl
    cases hc
  rw [readNumber, htext]
  split
  · next heq => cases heq
  · next heq => exact absurd (List.cons.inj heq).1 hplus
  · next heq => exact absurd (List.cons.inj heq).1 hminus
  · rfl

/-- **Decimal texts are read back**, if the number lies between the bounds and the bounds
admit zero. -/
lemma readNumber_toString {low high n : ℤ} (hlow : low ≤ 0) (hhigh : 0 ≤ high)
    (hleast : low ≤ n) (hmost : n ≤ high) : readNumber low high (toString n) = .ok n := by
  have hisDigit (m : ℕ) : ∀ c ∈ Nat.toDigits 10 m, c.isDigit :=
    fun c hc => Nat.isDigit_of_mem_toDigits (by decide) (by decide) hc
  have hvalue (m : ℕ) : Nat.ofDigitChars 10 (Nat.toDigits 10 m) 0 = m :=
    Nat.ofDigitChars_ten_toDigits
  have hcons (m : ℕ) : ∃ c digits, Nat.toDigits 10 m = c :: digits :=
    List.exists_cons_of_ne_nil Nat.toDigits_ne_nil
  obtain ⟨m, rfl, htext⟩ | ⟨m, hm, rfl, htext⟩ := Json.toList_toString_int n
  · have htaken := accumulate_digits hlow hhigh false (n := 0) (hisDigit m)
    rw [hvalue] at htaken
    obtain ⟨c, digits, hdigits⟩ := hcons m
    rw [readNumber_of_digits (htext.trans hdigits) (hisDigit m c (by simp [hdigits])), ← hdigits]
    exact htaken hleast hmost
  · have htaken := accumulate_digits hlow hhigh true (n := 0) (hisDigit m)
    rw [hvalue] at htaken
    obtain ⟨c, digits, hdigits⟩ := hcons m
    rw [readNumber, htext, hdigits]
    rw [hdigits] at htaken
    have hnegative : low < 0 := by omega
    simp only [hnegative, if_true]
    exact htaken hleast hmost

/-- Versions are read back. -/
lemma readVersion_toString (version : Int32) (name : String) :
    readVersion (toString version.toInt) name = .ok version := by
  have hleast := version.le_toInt
  have hmost := version.toInt_lt
  rw [readVersion, readNumber_toString (by decide) (by decide) (by omega) (by omega)]
  simp only [Int32.ofInt_toInt]

/-- Amounts are read back. -/
lemma readAmount_toString (amount : Amount) (name : String) :
    readAmount (toString amount.toNat) name = .ok amount := by
  have hmost := amount.toNat_lt
  have hread : readNumber 0 0xffffffffffffffff (toString (amount.toNat : ℤ))
      = .ok (amount.toNat : ℤ) :=
    readNumber_toString (Int.le_refl 0) (by decide) (by omega) (by omega)
  have htext : toString amount.toNat = toString (amount.toNat : ℤ) := rfl
  rw [readAmount, htext, hread]
  simp only [Int.toNat_natCast, UInt64.ofNat_toNat]

/-! ### Variables and the fields that they set -/

/-- A field of the settings. -/
inductive Field where
  | network
  | txVersion
  | dustFloor
  | revealOutValue
  | minChangeValue
  deriving DecidableEq

namespace Field

/-- Every field once. -/
def all : List Field :=
  [network, txVersion, dustFloor, revealOutValue, minChangeValue]

/-- What follows the prefix in the name of a variable for the field, in lower case. -/
def key : Field → String
  | network => "network"
  | txVersion => "tx_version"
  | dustFloor => "dust_floor"
  | revealOutValue => "reveal_out_value"
  | minChangeValue => "min_change_value"

/-- The text of the field, if it is set: the name of the network, or a number in decimal
digits. -/
def text? (config : Config) : Field → Option String
  | network => some config.network
  | txVersion => config.txVersion.map fun version => toString version.toInt
  | dustFloor => config.dustFloor.map fun amount => toString amount.toNat
  | revealOutValue => config.revealOutValue.map fun amount => toString amount.toNat
  | minChangeValue => config.minChangeValue.map fun amount => toString amount.toNat

end Field

/-- The fields that are set, with their texts. -/
def entries (config : Config) : List (Field × String) :=
  Field.all.filterMap fun field => (field.text? config).map (field, ·)

/-- A variable that sets a field to a text. The prefix of its name has to be in upper
case; the rest spells the field in letters of either case. -/
structure Sets (setting : String × String) (entry : Field × String) : Prop where
  name : ∃ rest, setting.1.toList = namePrefix ++ rest ∧
    rest.map Char.toLower = entry.1.key.toList
  value : setting.2 = entry.2

/-- The variables with the prefix. -/
def own (settings : List (String × String)) : List (String × String) :=
  settings.filter fun setting => namePrefix.isPrefixOf setting.1.toList

/-- The environment holds settings: in some order, the variables with the prefix set the
fields of the settings that are set, each of them one. -/
def Holds (config : Config) (settings : List (String × String)) : Prop :=
  ∃ ordered, (own settings).Perm ordered ∧ List.Forall₂ Sets ordered (entries config)

/-- Only the fields that are set have entries. -/
lemma mem_entries_iff {config : Config} {entry : Field × String} :
    entry ∈ entries config ↔ entry.1.text? config = some entry.2 := by
  have hall : entry.1 ∈ Field.all := by
    cases entry.1 <;> decide
  simp only [entries, List.mem_filterMap, Option.map_eq_some_iff]
  constructor
  · rintro ⟨field, -, text, htext, rfl⟩
    exact htext
  · intro htext
    exact ⟨entry.1, hall, entry.2, htext, rfl⟩

/-- No field has two entries. -/
lemma nodup_fields_entries (config : Config) : ((entries config).map Prod.fst).Nodup := by
  have hall : Field.all.Nodup := by decide
  rw [entries, List.map_filterMap]
  refine List.Nodup.filterMap (fun field field' named h h' => ?_) hall
  simp only [Option.mem_def, Option.map_map, Option.map_eq_some_iff, Function.comp_apply] at h h'
  obtain ⟨-, -, rfl⟩ := h
  obtain ⟨-, -, rfl⟩ := h'
  rfl

/-- Behind the prefix of a variable that sets a field there is no second one, and what
stands there is the field. -/
lemma Sets.fieldName?_eq {setting : String × String} {entry : Field × String}
    (h : Sets setting entry) : ∃ rest, fieldName? setting.1 = some (String.ofList rest) ∧
      rest.map lowerChar = entry.1.key.toList := by
  obtain ⟨rest, hname, hrest⟩ := h.name
  have honce : namePrefix.isPrefixOf rest = false := by
    have hkeys (field : Field) :
        (namePrefix.map Char.toLower).isPrefixOf field.key.toList = false := by
      cases field <;> decide +kernel
    rw [Bool.eq_false_iff]
    intro htwice
    have hlower := (List.isPrefixOf_iff_prefix.mp htwice).map Char.toLower
    rw [hrest, ← List.isPrefixOf_iff_prefix, hkeys] at hlower
    cases hlower
  have hstop (n : ℕ) : stripPrefixes n rest = rest := by
    cases n with
    | zero => rfl
    | succ n => rw [stripPrefixes, honce, if_neg Bool.false_ne_true]
  have hfirst : namePrefix.isPrefixOf setting.1.toList := by
    rw [hname]
    exact List.isPrefixOf_iff_prefix.mpr (List.prefix_append namePrefix rest)
  have hstrip : stripPrefixes setting.1.length setting.1.toList = rest := by
    have hlength : setting.1.length = namePrefix.length + rest.length := by
      rw [← String.length_toList, hname, List.length_append]
    cases hn : setting.1.length with
    | zero =>
        have hpos : 0 < namePrefix.length := by decide +kernel
        omega
    | succ n => rw [stripPrefixes, if_pos hfirst, hname, List.drop_left, hstop]
  refine ⟨rest, by rw [fieldName?, if_pos hfirst, hstrip], ?_⟩
  rw [← hrest]
  refine List.map_congr_left fun c hc => ?_
  -- the sign for kelvin is in lower case already, but in no name of a field
  have hkelvin : c ≠ Char.ofNat 0x212a := by
    rintro rfl
    have hmem := List.mem_map_of_mem (f := Char.toLower) hc
    rw [hrest] at hmem
    have hkeys (field : Field) :
        (Char.ofNat 0x212a).toLower ∉ field.key.toList := by
      cases field <;> decide +kernel
    exact hkeys _ hmem
  rw [lowerChar, if_neg hkelvin]

/-! ### Reading the variables -/

/-- The fields of settings, without those that are still to be read. -/
def Fields.without (config : Config) (pending : List Field) : Fields where
  network := if Field.network ∈ pending then none else some config.network
  txVersion := if Field.txVersion ∈ pending then none else config.txVersion
  dustFloor := if Field.dustFloor ∈ pending then none else config.dustFloor
  revealOutValue := if Field.revealOutValue ∈ pending then none else config.revealOutValue
  minChangeValue := if Field.minChangeValue ∈ pending then none else config.minChangeValue

/-- Nothing is read as long as every field that is set is still to be read. -/
lemma without_of_forall {config : Config} {pending : List Field}
    (h : ∀ entry ∈ entries config, entry.1 ∈ pending) :
    Fields.without config pending = ⟨none, none, none, none, none⟩ := by
  have hunset (field : Field) (hfield : field ∉ pending) : field.text? config = none := by
    rw [Option.eq_none_iff_forall_ne_some]
    exact fun text htext => hfield (h (field, text) (mem_entries_iff.mpr htext))
  have hnetwork : Field.network ∈ pending := by
    by_contra hfield
    cases hunset .network hfield
  rw [Fields.without, if_pos hnetwork]
  congr 1 <;> exact ite_eq_left_iff.mpr fun hfield => Option.map_eq_none_iff.mp (hunset _ hfield)

/-- A text under the name of a field that is still to be read adds the field. -/
lemma set_without {config : Config} {field : Field} {name text : String} {pending : List Field}
    (hname : name.toList.map lowerChar = field.key.toList) (hnew : field ∉ pending)
    (htext : field.text? config = some text) :
    (Fields.without config (field :: pending)).set name text
      = .ok (Fields.without config pending) := by
  rw [Fields.set, hname, String.ofList_toList]
  cases field with
  | network =>
      cases htext
      simp [Field.key, Fields.without, ensureNew, hnew]
  | txVersion =>
      obtain ⟨version, hset, htext⟩ := Option.map_eq_some_iff.mp htext
      have hread : readVersion text name = .ok version := by
        rw [← htext, readVersion_toString]
      simp [Field.key, Fields.without, ensureNew, hnew, hset, hread, bind_eq_ok_iff]
  | dustFloor | revealOutValue | minChangeValue =>
      obtain ⟨amount, hset, htext⟩ := Option.map_eq_some_iff.mp htext
      have hread : readAmount text name = .ok amount := by
        rw [← htext, readAmount_toString]
      simp [Field.key, Fields.without, ensureNew, hnew, hset, hread, bind_eq_ok_iff]

/-- Variables that set fields which are still to be read, each of them one, add these
fields, whatever variables without the prefix stand between them. -/
lemma readFields_without {config : Config} {settings : List (String × String)}
    {pending : List (Field × String)} (hsets : List.Forall₂ Sets (own settings) pending)
    (hnodup : (pending.map Prod.fst).Nodup)
    (htexts : ∀ entry ∈ pending, entry.1.text? config = some entry.2) :
    readFields (Fields.without config (pending.map Prod.fst)) settings
      = .ok (Fields.without config []) := by
  induction settings generalizing pending with
  | nil =>
      obtain rfl := List.forall₂_nil_left_iff.mp hsets
      rfl
  | cons setting settings ih =>
      by_cases hprefix : namePrefix.isPrefixOf setting.1.toList
      · have hown : own (setting :: settings) = setting :: own settings :=
          List.filter_cons_of_pos hprefix
        rw [hown, List.forall₂_cons_left_iff] at hsets
        obtain ⟨entry, later, hset, hlater, rfl⟩ := hsets
        obtain ⟨htext, hlaterTexts⟩ := List.forall_mem_cons.mp htexts
        obtain ⟨hnew, hlaterNodup⟩ := List.nodup_cons.mp hnodup
        obtain ⟨rest, hrest, hname⟩ := hset.fieldName?_eq
        have hstep : (Fields.without config (entry.1 :: later.map Prod.fst)).set
            (String.ofList rest) setting.2 = .ok (Fields.without config (later.map Prod.fst)) :=
          set_without (by rw [String.toList_ofList, hname]) hnew (by rw [htext, hset.value])
        rw [List.map_cons, readFields, hrest]
        exact (bind_of_eq_ok hstep _).trans (ih hlater hlaterNodup hlaterTexts)
      · have hown : own (setting :: settings) = own settings := List.filter_cons_of_neg hprefix
        rw [hown] at hsets
        rw [readFields, fieldName?, if_neg hprefix]
        exact ih hsets hnodup htexts

/-- **Settings survive the environment.** Let the variables with the prefix be those of
the fields that are set, each with its text, in any order and with the rest of their names
in letters of either case. Whatever other variables there are, the settings are loaded as
they are. -/
theorem load_of_holds {config : Config} {settings : List (String × String)}
    (h : Holds config settings) : load settings = .ok config := by
  obtain ⟨ordered, hperm, hsets⟩ := h
  obtain ⟨pending, hpending, horder⟩ := List.perm_comp_forall₂ hperm hsets
  have hnodup : (pending.map Prod.fst).Nodup :=
    ((horder.map Prod.fst).nodup_iff).mpr (nodup_fields_entries config)
  have htexts : ∀ entry ∈ pending, entry.1.text? config = some entry.2 :=
    fun entry hentry => mem_entries_iff.mp (horder.mem_iff.mp hentry)
  have hstart : Fields.without config (pending.map Prod.fst) = ⟨none, none, none, none, none⟩ :=
    without_of_forall fun entry hentry =>
      List.mem_map_of_mem (horder.symm.mem_iff.mp hentry)
  have hread := readFields_without hpending hnodup htexts
  rw [hstart] at hread
  rw [load, bind_of_eq_ok hread]
  rfl

/-- The least version, a zero and the largest amount are loaded from variables in mixed case
and out of order, among them one without the prefix and one whose prefix is in lower case. -/
theorem load_of_holds_sample :
    load [("HOME", "/root"), ("UTXO_TX_BUILDER_Min_Change_VALUE", "18446744073709551615"),
      ("utxo_tx_builder_reveal_out_value", "600"), ("UTXO_TX_BUILDER_dust_floor", "0"),
      ("UTXO_TX_BUILDER_TX_VERSION", "-2147483648"), ("UTXO_TX_BUILDER_NetWork", "Testnet ")]
      = .ok ⟨"Testnet ", some (-2147483648), some 0, none, some 18446744073709551615⟩ := by
  have hentries : entries
      ⟨"Testnet ", some (-2147483648), some 0, none, some 18446744073709551615⟩
      = [(.network, "Testnet "), (.txVersion, "-2147483648"), (.dustFloor, "0"),
        (.minChangeValue, "18446744073709551615")] := by decide +kernel
  refine load_of_holds ⟨[("UTXO_TX_BUILDER_NetWork", "Testnet "),
    ("UTXO_TX_BUILDER_TX_VERSION", "-2147483648"), ("UTXO_TX_BUILDER_dust_floor", "0"),
    ("UTXO_TX_BUILDER_Min_Change_VALUE", "18446744073709551615")], by decide +kernel, ?_⟩
  rw [hentries]
  exact .cons ⟨⟨"NetWork".toList, by decide +kernel, by decide +kernel⟩, rfl⟩
    (.cons ⟨⟨"TX_VERSION".toList, by decide +kernel, by decide +kernel⟩, rfl⟩
    (.cons ⟨⟨"dust_floor".toList, by decide +kernel, by decide +kernel⟩, rfl⟩
    (.cons ⟨⟨"Min_Change_VALUE".toList, by decide +kernel, by decide +kernel⟩, rfl⟩ .nil)))

end Environment

end CoinSpend
