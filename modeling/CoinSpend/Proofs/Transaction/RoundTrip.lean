import CoinSpend.Bytes.Lemmas
import CoinSpend.Proofs.Bytes.Hex
import CoinSpend.Proofs.Outcome
import CoinSpend.Transaction.Decode

/-!
Transactions are read back from their written form.

* `Reader.Takes`: a reader takes a written form off the front of whatever
  follows. Readers in a row take forms in a row, `Reader.Takes.bind`.
* `CompactSize.takes_read`: a number below `2 ^ 64` is read back.
* `Reader.takes_list`: so is a list, if each of its members is.
* `Transaction.Fits`: every count and length of a transaction is below `2 ^ 64`.
* `Transaction.decode_encodeStripped`: the form without witnesses is read as the
  transaction without its witnesses.
* `Transaction.ofHex_toHex`: hence a transaction in this form is read back from
  its text, and `Transaction.idOfHex_toHex` finds its identifier there.
-/

namespace CoinSpend

variable {α β : Type}

namespace Reader

/-! ### Readers in a row -/

/-- The reader takes the written form `b` of a value off the front, whatever
follows. -/
def Takes (read : Reader α) (b : Bytes) (a : α) : Prop :=
  ∀ rest, read (b ++ rest) = .ok (a, rest)

lemma Takes.pure (a : α) : Takes (pure a) [] a := fun _ => rfl

/-- Readers in a row take written forms in a row. -/
lemma Takes.bind {read : Reader α} {next : α → Reader β} {b c : Bytes} {a : α} {a' : β}
    (h : Takes read b a) (h' : Takes (next a) c a') : Takes (read >>= next) (b ++ c) a' := by
  intro rest
  have hread : read (b ++ c ++ rest) = .ok (a, c ++ rest) := by
    rw [List.append_assoc]
    exact h (c ++ rest)
  exact (bind_of_eq_ok hread _).trans (h' rest)

/-- What is made of a value that was read takes nothing more. -/
lemma Takes.map {read : Reader α} {b : Bytes} {a : α} (f : α → β) (h : Takes read b a) :
    Takes (do let a ← read; return f a) b (f a) := by
  rw [← List.append_nil b]
  exact h.bind (Takes.pure (f a))

lemma takes_bytes {n : ℕ} {b : Bytes} (h : b.length = n) : Takes (bytes n) b b := by
  intro rest
  rw [bytes, List.take_left' h, List.drop_left' h, if_pos h]

lemma takes_nat {n v : ℕ} (h : v < 256 ^ n) : Takes (nat n) (Bytes.ofNatLE n v) v := by
  have hmap := (takes_bytes (Bytes.length_ofNatLE n v)).map Bytes.toNatLE
  rwa [Bytes.toNatLE_ofNatLE h] at hmap

end Reader

namespace CompactSize

open Reader

/-- A number that needs its width is read back. -/
lemma takes_readWide {width least n : ℕ} (hleast : least ≤ n) (h : n < 256 ^ width) :
    Takes (readWide width least) (Bytes.ofNatLE width n) n := by
  have hnext : Takes (if n < least then throw .longCount else return n : Reader ℕ) [] n := by
    rw [if_neg (Nat.not_lt.mpr hleast)]
    exact Takes.pure n
  rw [← List.append_nil (Bytes.ofNatLE width n)]
  exact (takes_nat h).bind hnext

/-- A number below `2 ^ 64` is read back. -/
lemma takes_read {n : ℕ} (h : n < UInt64.size) : Takes read (encode n) n := by
  have h64 : n < 256 ^ 8 := h
  -- the first byte is the number itself, or tells the width
  have hread (head : ℕ) {b : Bytes} (hhead : head < 256)
      (hnext : Takes (if head < 253 then return head
        else if head = 253 then readWide 2 253
        else if head = 254 then readWide 4 0x10000
        else readWide 8 0x100000000 : Reader ℕ) b n) :
      Takes read (UInt8.ofNat head :: b) n :=
    (takes_nat (n := 1) hhead).bind hnext
  rw [encode]
  split_ifs with h₁ h₂ h₃
  · refine hread n (by omega) ?_
    rw [if_pos h₁]
    exact Takes.pure n
  · exact hread 253 (by omega) (takes_readWide (by omega) (by omega))
  · exact hread 254 (by omega) (takes_readWide (by omega) (by omega))
  · exact hread 255 (by omega) (takes_readWide (by omega) (by omega))

end CompactSize

namespace Reader

/-! ### Lists and byte strings -/

/-- The written forms of several values are read one after the other. -/
lemma takes_times {read : Reader β} {write : α → Bytes} {view : α → β} {as : List α}
    (h : ∀ a ∈ as, Takes read (write a) (view a)) :
    Takes (times read as.length) (as.flatMap write) (as.map view) := by
  induction as with
  | nil => exact Takes.pure []
  | cons a as ih =>
      have hrest := ih fun b hb => h b (List.mem_cons_of_mem _ hb)
      rw [List.flatMap_cons]
      exact (h a List.mem_cons_self).bind (hrest.map (view a :: ·))

/-- A list with its length in front is read, each member as `view` tells. -/
lemma takes_list {read : Reader β} {write : α → Bytes} {view : α → β} {as : List α}
    (hlength : as.length < UInt64.size) (h : ∀ a ∈ as, Takes read (write a) (view a)) :
    Takes (list read) (CompactSize.encode as.length ++ as.flatMap write) (as.map view) :=
  (CompactSize.takes_read hlength).bind (takes_times h)

/-- A byte string with its length in front is read back. -/
lemma takes_sized {b : Bytes} (h : b.length < UInt64.size) :
    Takes sized (CoinSpend.sized b) b :=
  (CompactSize.takes_read h).bind (takes_bytes rfl)

/-! ### Inputs and outputs -/

lemma takes_outPoint (outpoint : OutPoint) : Takes outPoint outpoint.encode outpoint := by
  have hvout : outpoint.vout.toNat < 256 ^ 4 := outpoint.vout.toNat_lt
  refine (takes_bytes outpoint.txid.length_eq).bind ?_
  have hmap := (takes_nat hvout).map fun vout => OutPoint.mk outpoint.txid (.ofNat vout)
  rw [UInt32.ofNat_toNat] at hmap
  simpa only [Txid.ofBytes?, outpoint.txid.length_eq, dite_true] using hmap

/-- An input is read without its witness. -/
lemma takes_input {i : TxIn} (h : i.scriptSig.length < UInt64.size) :
    Takes input i.encode { i with witness := [] } := by
  have hsequence : i.sequence.toNat < 256 ^ 4 := i.sequence.toNat_lt
  have hmap := (takes_nat hsequence).map fun sequence =>
    TxIn.mk i.previous i.scriptSig (.ofNat sequence) []
  rw [UInt32.ofNat_toNat] at hmap
  rw [TxIn.encode, List.append_assoc]
  exact (takes_outPoint i.previous).bind ((takes_sized h).bind hmap)

lemma takes_output {o : TxOut} (h : o.script.length < UInt64.size) :
    Takes output o.encode o := by
  have hvalue : o.value.toNat < 256 ^ 8 := o.value.toNat_lt
  have hmap := (takes_sized h).map (TxOut.mk o.value)
  refine (takes_nat hvalue).bind ?_
  rwa [UInt64.ofNat_toNat]

lemma takes_lockTime (version : Int32) (time : UInt32) (inputs : List TxIn)
    (outputs : List TxOut) :
    Takes (lockTime version.toUInt32.toNat inputs outputs) (Bytes.ofNatLE 4 time.toNat)
      ⟨version, time, inputs, outputs⟩ := by
  have htime : time.toNat < 256 ^ 4 := time.toNat_lt
  have hmap := (takes_nat htime).map fun time =>
    Transaction.mk version (.ofNat time) inputs outputs
  rw [UInt32.ofNat_toNat] at hmap
  rwa [lockTime, UInt32.ofNat_toNat, Int32.toInt32_toUInt32]

end Reader

namespace Transaction

/-! ### Transactions -/

/-- Every count and length of a transaction can be written in front. -/
structure Fits (tx : Transaction) : Prop where
  inputs : tx.inputs.length < UInt64.size
  outputs : tx.outputs.length < UInt64.size
  scriptSigs : ∀ input ∈ tx.inputs, input.scriptSig.length < UInt64.size
  scripts : ∀ output ∈ tx.outputs, output.script.length < UInt64.size

/-- The transaction without its witnesses. -/
def stripped (tx : Transaction) : Transaction :=
  { tx with inputs := tx.inputs.map fun input => { input with witness := [] } }

/-- The form without witnesses is used for a transaction that has an input and no
witnesses. -/
lemma usesWitnessForm_eq_false_iff {tx : Transaction} :
    tx.usesWitnessForm = false ↔ tx.inputs ≠ [] ∧ ∀ input ∈ tx.inputs, input.witness = [] := by
  simp [usesWitnessForm]

/-- Such a transaction has no witnesses to leave out. -/
lemma stripped_of_plain {tx : Transaction} (h : tx.usesWitnessForm = false) :
    tx.stripped = tx := by
  have hmember : ∀ input ∈ tx.inputs, { input with witness := [] } = input := by
    intro input hinput
    rw [← (usesWitnessForm_eq_false_iff.mp h).2 input hinput]
  have hinputs : tx.inputs.map (fun input => { input with witness := [] }) = tx.inputs :=
    (List.map_congr_left hmember).trans (List.map_id' tx.inputs)
  rw [stripped, hinputs]

/-- The form without witnesses is read as the transaction without its
witnesses. It has to have an input, since a count of zero announces the other
form. -/
theorem decode_encodeStripped {tx : Transaction} (hfits : tx.Fits) (hinputs : tx.inputs ≠ []) :
    decode tx.encodeStripped = .ok tx.stripped := by
  have hversion : tx.version.toUInt32.toNat < 256 ^ 4 := tx.version.toUInt32.toNat_lt
  have hread := Reader.takes_list hfits.inputs fun input hinput =>
    Reader.takes_input (hfits.scriptSigs input hinput)
  have houtputs := Reader.takes_list hfits.outputs fun output houtput =>
    Reader.takes_output (hfits.scripts output houtput)
  rw [List.map_id'] at houtputs
  -- with an input in it the list is not taken for the mark of the other form
  have hplain : ¬tx.stripped.inputs.isEmpty := by
    simp [stripped, hinputs]
  have hnext : Reader.Takes
      (if tx.stripped.inputs.isEmpty then Reader.flagged tx.version.toUInt32.toNat
        else do
          let outputs ← Reader.list Reader.output
          Reader.lockTime tx.version.toUInt32.toNat tx.stripped.inputs outputs)
      (tx.encodeOutputs ++ tx.encodeLockTime) tx.stripped := by
    rw [if_neg hplain]
    exact houtputs.bind (Reader.takes_lockTime _ _ _ _)
  have htakes : Reader.Takes Reader.transaction tx.encodeStripped tx.stripped := by
    rw [encodeStripped, List.append_assoc, List.append_assoc]
    exact (Reader.takes_nat hversion).bind (hread.bind hnext)
  have hall := htakes []
  rw [List.append_nil] at hall
  rw [decode, hall]

/-- **A transaction is read back from its text**, if it has inputs and no
witnesses. -/
theorem ofHex_toHex {tx : Transaction} (hfits : tx.Fits) (h : tx.usesWitnessForm = false) :
    ofHex tx.toHex = .ok tx := by
  have hencode : tx.encode = tx.encodeStripped := by
    simp [encode, h]
  have hdecode := decode_encodeStripped hfits (usesWitnessForm_eq_false_iff.mp h).1
  rw [stripped_of_plain h] at hdecode
  rw [ofHex, toHex, Hex.decodeMarked_encode, hencode]
  simp only [hdecode]

/-- The text of such a transaction gives its identifier. -/
theorem idOfHex_toHex {tx : Transaction} (h : tx.usesWitnessForm = false) :
    idOfHex tx.toHex = .ok tx.txid := by
  rw [idOfHex, toHex, Hex.decodeMarked_encode, encode, h]
  rfl

end Transaction

end CoinSpend
