import Mathlib.Tactic.Lemma
import CoinSpend.Bytes.Lemmas
import CoinSpend.Proofs.Outcome
import CoinSpend.Proofs.Script.Template
import CoinSpend.Script.Sigops

/-!
Reading scripts that are written instruction by instruction.

* `Script.lengthFields`: the codes whose push announces its length.
* `Script.split?_push`: a written push is the first instruction, whatever the
  width of its length field; `Script.split?_op` says the same of an operation.
* `Script.scan_push`, `Script.scan_op`: hence scripts are scanned by their parts.
* `Script.Reads`: a script is read to its end as given instructions, with a lemma for
  each thing that may stand in front.
* `Script.sigops_of_pushes`: pushes check no signatures. `Script.sigops_p2pkh`,
  `Script.sigops_p2sh`, `Script.sigops_witnessProgram`: the checks in the templates.
* `Script.redeemScript?_of_pushes`: the script that pushes reveal is the last of them.
-/

namespace CoinSpend

namespace Script

/-! ### The first instruction -/

lemma takePush_append (data rest : Bytes) :
    takePush data.length (data ++ rest) = some (.push data, rest) := by
  simp [takePush]

lemma takeSizedPush_append {width : ℕ} {data : Bytes} (rest : Bytes)
    (h : data.length < 256 ^ width) :
    takeSizedPush width (Bytes.ofNatLE width data.length ++ (data ++ rest))
      = some (.push data, rest) := by
  have htake : (Bytes.ofNatLE width data.length ++ (data ++ rest)).take width
      = Bytes.ofNatLE width data.length := List.take_left' (Bytes.length_ofNatLE _ _)
  have hdrop : (Bytes.ofNatLE width data.length ++ (data ++ rest)).drop width
      = data ++ rest := List.drop_left' (Bytes.length_ofNatLE _ _)
  rw [takeSizedPush, htake, hdrop, if_pos (Bytes.length_ofNatLE _ _),
    Bytes.toNatLE_ofNatLE h, takePush_append]

/-- The codes with a length field behind them, and the number of bytes of this field. -/
def lengthFields : List (UInt8 × ℕ) :=
  [(0x4c, 1), (0x4d, 2), (0x4e, 4)]

/-- A code with a length field pushes what this field announces. -/
lemma splitAfter?_of_mem {code : UInt8} {width : ℕ} (h : (code, width) ∈ lengthFields)
    (rest : Bytes) : splitAfter? code rest = takeSizedPush width rest := by
  simp only [lengthFields, List.mem_cons, Prod.mk.injEq, List.not_mem_nil, or_false] at h
  rcases h with ⟨rfl, rfl⟩ | ⟨rfl, rfl⟩ | ⟨rfl, rfl⟩
  · rw [splitAfter?, if_neg (by decide), if_pos rfl]
  · rw [splitAfter?, if_neg (by decide), if_neg (by decide), if_pos rfl]
  · rw [splitAfter?, if_neg (by decide), if_neg (by decide), if_neg (by decide), if_pos rfl]

/-- A written push is read back, and nothing more. -/
lemma split?_push {data : Bytes} (rest : Bytes) (h : data.length ≤ maxPush) :
    split? (push data ++ rest) = some (.push data, rest) := by
  rw [maxPush] at h
  have hannounced {code : UInt8} {width : ℕ} (hcode : (code, width) ∈ lengthFields)
      (hlength : data.length < 256 ^ width) :
      split? (code :: (Bytes.ofNatLE width data.length ++ (data ++ rest)))
        = some (.push data, rest) := by
    rw [split?, splitAfter?_of_mem hcode, takeSizedPush_append rest hlength]
  rw [push, pushHead, List.append_assoc]
  split_ifs with h₁ h₂ h₃
  · have hcode : UInt8.ofNat data.length < 0x4c := by
      rw [UInt8.lt_iff_toNat_lt, UInt8.toNat_ofNat']
      exact Nat.lt_of_le_of_lt (Nat.mod_le _ _) h₁
    have hlength : (UInt8.ofNat data.length).toNat = data.length := by
      rw [UInt8.toNat_ofNat']
      omega
    rw [List.singleton_append, split?, splitAfter?, if_pos hcode, hlength, takePush_append]
  · exact hannounced (by decide : (0x4c, 1) ∈ lengthFields) (by omega)
  · exact hannounced (by decide : (0x4d, 2) ∈ lengthFields) (by omega)
  · exact hannounced (by decide : (0x4e, 4) ∈ lengthFields) (by omega)

/-- A code behind those of the pushes is an operation. -/
lemma split?_op {code : UInt8} (rest : Bytes) (h : 0x4e < code) :
    split? (code :: rest) = some (.op code, rest) := by
  have h₀ : ¬code < 0x4c := by
    intro hlt
    simp only [UInt8.lt_iff_toNat_lt, UInt8.reduceToNat] at h hlt
    omega
  have hne (other : UInt8) (hother : other ≤ 0x4e) : code ≠ other := by
    rintro rfl
    exact absurd h (UInt8.not_lt.mpr hother)
  have h₁ := hne 0x4c (by decide)
  have h₂ := hne 0x4d (by decide)
  have h₃ := hne 0x4e (by decide)
  rw [split?, splitAfter?, if_neg h₀, if_neg h₁, if_neg h₂, if_neg h₃]

/-! ### All instructions -/

@[simp] lemma scan_nil : scan [] = ([], true) := by
  rw [scan]
  rfl

/-- A script is scanned instruction by instruction. -/
lemma scan_of_split? {script rest : Script} {i : Instruction} (h : split? script = some (i, rest)) :
    scan script = (i :: (scan rest).1, (scan rest).2) := by
  rw [scan]
  split
  · simp_all
  · simp_all

lemma scan_push {data : Bytes} (rest : Bytes) (h : data.length ≤ maxPush) :
    scan (push data ++ rest) = (.push data :: (scan rest).1, (scan rest).2) :=
  scan_of_split? (split?_push rest h)

lemma scan_op {code : UInt8} (rest : Bytes) (h : 0x4e < code) :
    scan (code :: rest) = (.op code :: (scan rest).1, (scan rest).2) :=
  scan_of_split? (split?_op rest h)

/-- The script is read to its end as these instructions. -/
def Reads (script : Script) (instructions : List Instruction) : Prop :=
  scan script = (instructions, true)

namespace Reads

variable {rest : Script} {instructions : List Instruction}

lemma nil : Reads [] [] := scan_nil

lemma push {data : Bytes} (hdata : data.length ≤ maxPush) (h : Reads rest instructions) :
    Reads (Script.push data ++ rest) (.push data :: instructions) := by
  rw [Reads, scan_push rest hdata, h]

lemma op {code : UInt8} (hcode : 0x4e < code) (h : Reads rest instructions) :
    Reads (code :: rest) (.op code :: instructions) := by
  rw [Reads, scan_op rest hcode, h]

/-- Pushes in a row are read one by one. -/
lemma pushes {pieces : List Bytes} (hpieces : ∀ piece ∈ pieces, piece.length ≤ maxPush)
    (h : Reads rest instructions) :
    Reads (pieces.flatMap Script.push ++ rest) (pieces.map Instruction.push ++ instructions) := by
  induction pieces with
  | nil => exact h
  | cons piece pieces ih =>
      have hrest := ih fun other hother => hpieces other (List.mem_cons_of_mem _ hother)
      rw [List.flatMap_cons, List.append_assoc]
      exact hrest.push (hpieces piece List.mem_cons_self)

end Reads

/-! ### Signature checks -/

@[simp] lemma sigops_nil (precise : Bool) : sigops precise [] = 0 := by
  rw [sigops, scan_nil]
  rfl

/-- A push is no check. -/
lemma count_foldl_push (precise : Bool) (pieces : List Bytes) (c : SigopCount) :
    ((pieces.map Instruction.push).foldl (SigopCount.add precise) c).count = c.count := by
  induction pieces generalizing c with
  | nil => rfl
  | cons piece pieces ih => exact ih _

/-- A script of pushes checks nothing. -/
lemma sigops_of_pushes {script : Script} {pieces : List Bytes}
    (h : Reads script (pieces.map .push)) (precise : Bool) : sigops precise script = 0 := by
  rw [sigops, h]
  exact count_foldl_push precise pieces _

/-- The check of one key. -/
lemma sigops_p2pkh {keyHash : Bytes} (h : keyHash.length = 20) :
    sigops false (p2pkh keyHash) = 1 := by
  have hscan : scan (p2pkh keyHash) = ([.op Op.dup, .op Op.hash160, .push keyHash,
      .op Op.equalVerify, .op Op.checkSig], true) := by
    rw [p2pkh, List.append_assoc, List.cons_append, List.cons_append, List.nil_append,
      scan_op _ (by decide), scan_op _ (by decide), scan_push _ (by rw [h, maxPush]; omega),
      scan_op _ (by decide), scan_op _ (by decide), scan_nil]
  rw [sigops, hscan]
  rfl

lemma sigops_p2sh {scriptHash : Bytes} (h : scriptHash.length = 20) :
    sigops false (p2sh scriptHash) = 0 := by
  have hscan : scan (p2sh scriptHash)
      = ([.op Op.hash160, .push scriptHash, .op Op.equal], true) := by
    rw [p2sh, List.cons_append, scan_op _ (by decide), scan_push _ (by rw [h, maxPush]; omega),
      scan_op _ (by decide), scan_nil]
  rw [sigops, hscan]
  rfl

/-- The version of a witness program and its push check nothing. -/
lemma sigops_witnessProgram {precise : Bool} {version : ℕ} {program : Bytes}
    (hversion : version ≤ 16) (h : program.length ≤ maxPush) :
    sigops precise (witnessProgram version program) = 0 := by
  have hrest : scan (push program) = ([.push program], true) := by
    rw [← List.append_nil (push program), scan_push [] h, scan_nil]
  by_cases hzero : version = 0
  · -- the version zero is itself a push, of nothing
    have hreads : Reads (witnessProgram version program) ([[], program].map .push) := by
      have hpush : witnessProgram version program = push [] ++ push program := by
        rw [witnessProgram, versionCode, if_pos hzero]
        rfl
      rw [Reads, hpush, scan_push _ (by simp), hrest]
      rfl
    exact sigops_of_pushes hreads precise
  · obtain ⟨code, hcode, hnat⟩ : ∃ code : UInt8, versionCode version = code ∧
        code.toNat = 0x50 + version := by
      refine ⟨_, by rw [versionCode, if_neg hzero], ?_⟩
      rw [UInt8.toNat_ofNat']
      omega
    have hscan : scan (witnessProgram version program)
        = ([.op code, .push program], true) := by
      rw [witnessProgram, hcode, scan_op, hrest]
      rw [UInt8.lt_iff_toNat_lt, hnat]
      exact Nat.lt_of_lt_of_le (by decide : 0x4e < 0x50) (Nat.le_add_right _ _)
    have hne (other : UInt8) (hother : 0x60 < other.toNat) : code ≠ other := by
      rintro rfl
      omega
    have hsingle : ¬(code = Op.checkSig ∨ code = Op.checkSigVerify) :=
      not_or.mpr ⟨hne _ (by decide), hne _ (by decide)⟩
    have hmulti : ¬(code = Op.checkMultiSig ∨ code = Op.checkMultiSigVerify) :=
      not_or.mpr ⟨hne _ (by decide), hne _ (by decide)⟩
    rw [sigops, hscan]
    simp only [List.foldl_cons, List.foldl_nil, SigopCount.add, if_neg hsingle, if_neg hmulti]

/-! ### Revealed scripts -/

/-- Pushes reveal the last of them. -/
lemma redeemScript?_of_pushes {script : Script} {pieces : List Bytes}
    (h : Reads script (pieces.map .push)) : redeemScript? script = pieces.getLast? := by
  have hinstructions : script.instructions? = some (pieces.map .push) := by
    rw [instructions?, h]
  have hpushed : (pieces.map Instruction.push).mapM pushed? = some pieces := by
    rw [mapM_eq_some_iff, List.forall₂_map_left_iff, List.forall₂_same]
    exact fun _ _ => rfl
  rw [redeemScript?, hinstructions, Option.bind_eq_bind, Option.bind_some, hpushed]
  rfl

end Script

end CoinSpend
