import CoinSpend.Error
import CoinSpend.Script.Basic

/-!
Scripts as sequences of instructions.

* `Script.split?`: the first instruction of a script and the rest, unless a
  push runs past the end; `Script.length_lt_of_split?`: the rest is shorter.
* `Script.scan`: the instructions up to the end or the first push that is cut
  off, and whether the end was reached. Any length field may announce any
  length, the shortest is not required.
* `Script.instructions?`: the instructions of a complete script, and
  `Script.ofHex`: a complete script given in hexadecimal.
* `Script.pushOr`: a push, which fails if the data are too long for one.
-/

namespace CoinSpend

/-- One step of a script: data to push, or an operation by its code. The code
zero pushes no bytes. -/
inductive Instruction where
  | push (data : Bytes)
  | op (code : UInt8)
  deriving Repr, DecidableEq

namespace Script

/-- A push of the next `n` bytes. -/
def takePush (n : Nat) (rest : Bytes) : Option (Instruction × Bytes) :=
  if (rest.take n).length = n then some (.push (rest.take n), rest.drop n) else none

/-- A push of as many bytes as the next `width` bytes say. -/
def takeSizedPush (width : Nat) (rest : Bytes) : Option (Instruction × Bytes) :=
  if (rest.take width).length = width then
    takePush (Bytes.toNatLE (rest.take width)) (rest.drop width)
  else none

/-- The first instruction and the rest of a script that starts with `code`. -/
def splitAfter? (code : UInt8) (rest : Bytes) : Option (Instruction × Bytes) :=
  if code < 0x4c then takePush code.toNat rest
  else if code = 0x4c then takeSizedPush 1 rest
  else if code = 0x4d then takeSizedPush 2 rest
  else if code = 0x4e then takeSizedPush 4 rest
  else some (.op code, rest)

/-- The first instruction and the rest, unless the script is empty or its
first push runs past the end. -/
def split? : Script → Option (Instruction × Bytes)
  | [] => none
  | code :: rest => splitAfter? code rest

theorem length_le_of_takePush {n : Nat} {rest tail : Bytes} {i : Instruction}
    (h : takePush n rest = some (i, tail)) : tail.length ≤ rest.length := by
  unfold takePush at h
  split at h
  · cases h; simp
  · simp at h

theorem length_le_of_takeSizedPush {width : Nat} {rest tail : Bytes} {i : Instruction}
    (h : takeSizedPush width rest = some (i, tail)) : tail.length ≤ rest.length := by
  unfold takeSizedPush at h
  split at h
  · have := length_le_of_takePush h
    simp only [List.length_drop] at this
    omega
  · simp at h

/-- What is left after the first instruction is shorter. -/
theorem length_lt_of_split? {script tail : Script} {i : Instruction}
    (h : split? script = some (i, tail)) : tail.length < script.length := by
  cases script with
  | nil => simp [split?] at h
  | cons code rest =>
    have hle : tail.length ≤ rest.length := by
      simp only [split?, splitAfter?] at h
      repeat' split at h
      · exact length_le_of_takePush h
      · exact length_le_of_takeSizedPush h
      · exact length_le_of_takeSizedPush h
      · exact length_le_of_takeSizedPush h
      · cases h; exact Nat.le_refl _
    simp only [List.length_cons]
    omega

/-- The instructions up to the end or to the first push that is cut off, and
whether the end was reached. -/
def scan (script : Script) : List Instruction × Bool :=
  match h : split? script with
  | none => ([], script.isEmpty)
  | some (i, rest) =>
    have := length_lt_of_split? h
    let (instructions, complete) := scan rest
    (i :: instructions, complete)
termination_by script.length

/-- The instructions of a script in which no push is cut off. -/
def instructions? (script : Script) : Option (List Instruction) :=
  match scan script with
  | (instructions, true) => some instructions
  | (_, false) => none

/-- The script that a hexadecimal text spells out. No push may be cut off. -/
def ofHex (text : String) : Except TxError Script :=
  match Hex.decodeMarked text with
  | .error fault => .error (.scriptDecode (.hex fault))
  | .ok script =>
    if (scan script).2 then .ok script else .error (.scriptDecode .truncatedPush)

/-- A push of data, or the failure told if the data are too long for one. -/
def pushOr (tooLong : Nat → TxError) (data : Bytes) : Except TxError Script :=
  if maxPush < data.length then .error (tooLong data.length) else .ok (push data)

theorem pushOr_eq_ok_iff {tooLong : Nat → TxError} {data : Bytes} {script : Script} :
    pushOr tooLong data = .ok script ↔ data.length ≤ maxPush ∧ push data = script := by
  unfold pushOr
  split
  · rename_i h
    simp [Nat.not_le.mpr h]
  · rename_i h
    simp [Nat.not_lt.mp h]

/-- Data that fit one push are pushed. -/
theorem pushOr_of_le {data : Bytes} (h : data.length ≤ maxPush) (tooLong : Nat → TxError) :
    pushOr tooLong data = .ok (push data) :=
  pushOr_eq_ok_iff.mpr ⟨h, rfl⟩

end Script

end CoinSpend
