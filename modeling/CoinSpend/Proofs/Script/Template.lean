import Mathlib.Tactic.Lemma
import Mathlib.Tactic.SplitIfs
import CoinSpend.Script.Basic

/-!
The templates of locking scripts and what recognises them.

* `Script.push_of_lt`: a short push is a length and the data; `length_push_le`
  bounds the size of any push.
* `Script.isP2pkh_iff`, `Script.isP2sh_iff`, `Script.isP2wpkh_iff`,
  `Script.isP2tr_iff`: a template is recognised where it is written, with data
  of the right length, and nowhere else.
* `Script.length_of_isP2pkh` to `Script.length_of_isP2tr`: the templates differ
  in length, so that no script is taken for two of them.
* `Script.witnessVersion?_p2wpkh`, `Script.witnessVersion?_p2tr`: the hash of a key in a
  witness and an output key are witness programs.
* `Script.witnessVersion?_p2pkh`, `Script.witnessVersion?_p2sh`: the other hashes are none.
-/

namespace CoinSpend

namespace Script

/-- A push of fewer than 76 bytes is a length and the data. -/
lemma push_of_lt {data : Bytes} (h : data.length < 76) :
    push data = UInt8.ofNat data.length :: data := by
  rw [push, pushHead, if_pos h]
  rfl

/-- A push of more data is no shorter. -/
lemma length_push_le_length_push {data other : Bytes} (h : data.length ≤ other.length) :
    (push data).length ≤ (push other).length := by
  have hhead : (pushHead data.length).length ≤ (pushHead other.length).length := by
    simp only [pushHead]
    split_ifs <;> simp <;> omega
  rw [push, push, List.length_append, List.length_append]
  exact Nat.add_le_add hhead h

/-- A push takes at most five bytes beside the data. -/
lemma length_push_le (data : Bytes) : (push data).length ≤ data.length + 5 := by
  have hhead : (pushHead data.length).length ≤ 5 := by
    rw [pushHead]
    split_ifs <;> simp
  rw [push, List.length_append]
  omega

lemma p2pkh_of_length {keyHash : Bytes} (h : keyHash.length = 20) :
    p2pkh keyHash = [Op.dup, Op.hash160, 20] ++ keyHash ++ [Op.equalVerify, Op.checkSig] := by
  rw [p2pkh, push_of_lt (by omega), h]
  rfl

lemma p2sh_of_length {scriptHash : Bytes} (h : scriptHash.length = 20) :
    p2sh scriptHash = [Op.hash160, 20] ++ scriptHash ++ [Op.equal] := by
  rw [p2sh, push_of_lt (by omega), h]
  rfl

lemma p2wpkh_of_length {keyHash : Bytes} (h : keyHash.length = 20) :
    p2wpkh keyHash = [0, 20] ++ keyHash := by
  rw [p2wpkh, witnessProgram, push_of_lt (by omega), h]
  rfl

lemma p2tr_of_length {outputKey : Bytes} (h : outputKey.length = 32) :
    p2tr outputKey = [Op.one, 32] ++ outputKey := by
  rw [p2tr, witnessProgram, push_of_lt (by omega), h]
  rfl

/-! ### Lengths -/

lemma length_of_isP2pkh {script : Script} (h : script.isP2pkh) : script.length = 25 := by
  simp only [isP2pkh, Bool.and_eq_true, beq_iff_eq] at h
  exact h.1.1

lemma length_of_isP2sh {script : Script} (h : script.isP2sh) : script.length = 23 := by
  simp only [isP2sh, Bool.and_eq_true, beq_iff_eq] at h
  exact h.1.1

lemma length_of_isP2wpkh {script : Script} (h : script.isP2wpkh) : script.length = 22 := by
  simp only [isP2wpkh, Bool.and_eq_true, beq_iff_eq] at h
  exact h.1

lemma length_of_isP2tr {script : Script} (h : script.isP2tr) : script.length = 34 := by
  simp only [isP2tr, Bool.and_eq_true, beq_iff_eq] at h
  exact h.1

/-! ### Templates -/

/-- The template with the hash of a key. -/
lemma isP2pkh_iff {script : Script} :
    script.isP2pkh ↔ ∃ keyHash : Bytes, keyHash.length = 20 ∧ script = p2pkh keyHash := by
  constructor
  · intro h
    have hlength := length_of_isP2pkh h
    simp only [isP2pkh, Bool.and_eq_true, beq_iff_eq] at h
    have hhash : ((script.drop 3).take 20).length = 20 := by simp; omega
    refine ⟨(script.drop 3).take 20, hhash, ?_⟩
    have hdrop : script.drop 23 = (script.drop 3).drop 20 := by rw [List.drop_drop]
    rw [p2pkh_of_length hhash, ← h.1.2, ← h.2, List.append_assoc, hdrop,
      List.take_append_drop, List.take_append_drop]
  · rintro ⟨keyHash, h, rfl⟩
    rw [p2pkh_of_length h]
    simp [isP2pkh, h]

/-- The template with the hash of a script. -/
lemma isP2sh_iff {script : Script} :
    script.isP2sh ↔ ∃ scriptHash : Bytes, scriptHash.length = 20 ∧ script = p2sh scriptHash := by
  constructor
  · intro h
    have hlength := length_of_isP2sh h
    simp only [isP2sh, Bool.and_eq_true, beq_iff_eq] at h
    have hhash : ((script.drop 2).take 20).length = 20 := by simp; omega
    refine ⟨(script.drop 2).take 20, hhash, ?_⟩
    have hdrop : script.drop 22 = (script.drop 2).drop 20 := by rw [List.drop_drop]
    rw [p2sh_of_length hhash, ← h.1.2, ← h.2, List.append_assoc, hdrop,
      List.take_append_drop, List.take_append_drop]
  · rintro ⟨scriptHash, h, rfl⟩
    rw [p2sh_of_length h]
    simp [isP2sh, h]

/-- The template of version zero with the hash of a key. -/
lemma isP2wpkh_iff {script : Script} :
    script.isP2wpkh ↔ ∃ keyHash : Bytes, keyHash.length = 20 ∧ script = p2wpkh keyHash := by
  constructor
  · intro h
    have hlength := length_of_isP2wpkh h
    simp only [isP2wpkh, Bool.and_eq_true, beq_iff_eq] at h
    have hhash : (script.drop 2).length = 20 := by simp; omega
    refine ⟨script.drop 2, hhash, ?_⟩
    rw [p2wpkh_of_length hhash, ← h.2, List.take_append_drop]
  · rintro ⟨keyHash, h, rfl⟩
    rw [p2wpkh_of_length h]
    simp [isP2wpkh, h]

/-- The template of version one with an output key. -/
lemma isP2tr_iff {script : Script} :
    script.isP2tr ↔ ∃ outputKey : Bytes, outputKey.length = 32 ∧ script = p2tr outputKey := by
  constructor
  · intro h
    have hlength := length_of_isP2tr h
    simp only [isP2tr, Bool.and_eq_true, beq_iff_eq] at h
    have hkey : (script.drop 2).length = 32 := by simp; omega
    refine ⟨script.drop 2, hkey, ?_⟩
    rw [p2tr_of_length hkey, ← h.2, List.take_append_drop]
  · rintro ⟨outputKey, h, rfl⟩
    rw [p2tr_of_length h]
    simp [isP2tr, h]

/-- The hash of a key in a witness program of version zero. -/
lemma witnessVersion?_p2wpkh {keyHash : Bytes} (h : keyHash.length = 20) :
    (p2wpkh keyHash).witnessVersion? = some 0 := by
  rw [p2wpkh_of_length h]
  exact (if_pos ⟨h, by decide, by decide⟩).trans (if_pos rfl)

/-- An output key is one of version one. -/
lemma witnessVersion?_p2tr {outputKey : Bytes} (h : outputKey.length = 32) :
    (p2tr outputKey).witnessVersion? = some 1 := by
  rw [p2tr_of_length h]
  exact (if_pos ⟨h, by decide, by decide⟩).trans (if_neg (by decide))

/-- The hash of a key outside witnesses is no witness program. -/
lemma witnessVersion?_p2pkh {keyHash : Bytes} (h : keyHash.length = 20) :
    (p2pkh keyHash).witnessVersion? = none := by
  rw [p2pkh_of_length h, List.append_assoc]
  exact if_neg fun hsize => absurd hsize.2.2 (by decide)

/-- Nor is the hash of a script. -/
lemma witnessVersion?_p2sh {scriptHash : Bytes} (h : scriptHash.length = 20) :
    (p2sh scriptHash).witnessVersion? = none := by
  rw [p2sh_of_length h, List.append_assoc]
  exact ite_self none

lemma isWitnessProgram_of_isP2wpkh {script : Script} (h : script.isP2wpkh) :
    script.isWitnessProgram := by
  obtain ⟨keyHash, hlength, rfl⟩ := isP2wpkh_iff.mp h
  rw [isWitnessProgram, witnessVersion?_p2wpkh hlength, Option.isSome_some]

lemma not_isWitnessProgram_of_isP2pkh {script : Script} (h : script.isP2pkh) :
    ¬script.isWitnessProgram := by
  obtain ⟨keyHash, hlength, rfl⟩ := isP2pkh_iff.mp h
  rw [isWitnessProgram, witnessVersion?_p2pkh hlength]
  exact Bool.false_ne_true

lemma not_isWitnessProgram_of_isP2sh {script : Script} (h : script.isP2sh) :
    ¬script.isWitnessProgram := by
  obtain ⟨scriptHash, hlength, rfl⟩ := isP2sh_iff.mp h
  rw [isWitnessProgram, witnessVersion?_p2sh hlength]
  exact Bool.false_ne_true

end Script

end CoinSpend
