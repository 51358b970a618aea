import CoinSpend.Draft.Basic
import CoinSpend.Proofs.Address.Lock
import CoinSpend.Proofs.Bytes.Hex
import CoinSpend.Proofs.Signing.Skeleton
import CoinSpend.Proofs.Transaction.RoundTrip

/-!
The transaction that a draft stands for.

* `Draft.unsigned`: the transaction of a draft with nothing in its inputs. Every
  way of signing a draft starts from it, up to what stands in the signature
  scripts meanwhile: `Draft.skeleton_transactionWith` and
  `Draft.withScriptSigs_transactionWith`.
* `Draft.requireParts_eq_ok_iff`, `Draft.readSpends_eq_ok_iff`,
  `Draft.keptOutputs_eq_ok_iff`: when the parts of the transaction are found.
  `Draft.map_of_readSpends`: the spends stand in their order.
* `Draft.Addressable`: counts and lengths are below `2 ^ 64`, so that
  `Draft.fits_unsigned` the transaction can be written and read.
-/

namespace CoinSpend

/-- A script that is spelled out is shorter than its text. -/
lemma Script.length_le_of_ofHex {text : String} {script : Script}
    (h : ofHex text = .ok script) : script.length ≤ text.length := by
  rw [ofHex] at h
  split at h
  · cases h
  · rename_i hdecode
    have hlength := Hex.length_le_of_decodeMarked hdecode
    split_ifs at h
    cases h
    omega

namespace Draft

variable {draft : Draft}

/-! ### The unsigned transaction -/

/-- The transaction of a draft with nothing in its inputs. -/
def unsigned (draft : Draft) (outputs : List TxOut) : Transaction :=
  draft.transactionWith (draft.spends.map fun spend => finalInput spend.outpoint []) outputs

@[simp] lemma length_inputs_unsigned (draft : Draft) (outputs : List TxOut) :
    (draft.unsigned outputs).inputs.length = draft.spends.length := by
  simp [unsigned, transactionWith]

/-- Its inputs have no witnesses. -/
lemma witness_of_mem_unsigned {outputs : List TxOut} :
    ∀ input ∈ (draft.unsigned outputs).inputs, input.witness = [] := by
  simp [unsigned, transactionWith, finalInput]

/-- Its inputs spend what the draft spends, in order. -/
lemma map_previous_unsigned (draft : Draft) (outputs : List TxOut) :
    (draft.unsigned outputs).inputs.map TxIn.previous = draft.spends.map Spend.outpoint := by
  simp [unsigned, transactionWith, finalInput]

section Scripted

variable {α : Type} {outpoint : α → OutPoint} {xs : List α}

/-- Whatever stands in the signature scripts, the skeleton is the unsigned
transaction. -/
lemma skeleton_transactionWith (h : draft.spends.map Spend.outpoint = xs.map outpoint)
    (scriptSig : α → Script) (outputs : List TxOut) :
    (draft.transactionWith (xs.map fun x => finalInput (outpoint x) (scriptSig x))
      outputs).skeleton = draft.unsigned outputs := by
  have hinputs : (xs.map fun x => finalInput (outpoint x) (scriptSig x)).map TxIn.bare
      = draft.spends.map fun spend => finalInput spend.outpoint [] := by
    have hfinal := congrArg (List.map (finalInput · [])) h.symm
    rw [List.map_map, List.map_map] at hfinal
    rw [List.map_map]
    exact hfinal
  rw [Transaction.skeleton, unsigned, transactionWith, transactionWith, hinputs]

lemma skeleton_unsigned (draft : Draft) (outputs : List TxOut) :
    (draft.unsigned outputs).skeleton = draft.unsigned outputs :=
  skeleton_transactionWith rfl (fun _ => []) outputs

/-- Nor does it matter once other signature scripts are put in. -/
lemma withScriptSigs_transactionWith (h : draft.spends.map Spend.outpoint = xs.map outpoint)
    (scriptSig : α → Script) (outputs : List TxOut) (scriptSigs : List Script) :
    (draft.transactionWith (xs.map fun x => finalInput (outpoint x) (scriptSig x))
      outputs).withScriptSigs scriptSigs = (draft.unsigned outputs).withScriptSigs scriptSigs := by
  rw [← skeleton_transactionWith h scriptSig outputs]
  refine (Transaction.withScriptSigs_skeleton ?_ scriptSigs).symm
  simp [transactionWith, finalInput]

end Scripted

/-! ### The parts -/

/-- There are parts if and only if there are spends and payments. -/
lemma requireParts_eq_ok_iff :
    draft.requireParts = .ok () ↔ draft.spends ≠ [] ∧ draft.payments ≠ [] := by
  simp [requireParts, not_or]

/-- All spends are read if and only if each of them is, at its position. -/
lemma readSpends_eq_ok_iff {α : Type} {read : ℕ → Spend → Except TxError α} {index : ℕ}
    {spends : List Spend} {xs : List α} :
    readSpends read index spends = .ok xs ↔
      List.Forall₂ (fun entry x => read entry.2 entry.1 = .ok x) (spends.zipIdx index) xs :=
  numbered_eq_ok_iff read (readSpends read) (fun _ => rfl) fun _ _ _ => rfl

/-- What is read keeps what it takes over from the spends, in their order. -/
lemma map_of_readSpends {α γ : Type} {read : ℕ → Spend → Except TxError α} {index : ℕ}
    {spends : List Spend} {xs : List α} {f : Spend → γ} {g : α → γ}
    (h : readSpends read index spends = .ok xs)
    (hread : ∀ index spend x, read index spend = .ok x → f spend = g x) :
    spends.map f = xs.map g := by
  have hlisted : spends.map f = (spends.zipIdx index).map fun entry => f entry.1 := by
    conv_lhs => rw [← List.zipIdx_map_fst index spends, List.map_map]
    rfl
  rw [hlisted, ← forall₂_image_iff]
  refine (readSpends_eq_ok_iff.mp h).imp fun entry x hx => ?_
  exact hread entry.2 entry.1 x hx

/-- The outputs are made if and only if each payment that is kept makes one, and
some payment is kept. -/
lemma keptOutputs_eq_ok_iff {outputs : List TxOut} :
    draft.keptOutputs = .ok outputs ↔
      List.Forall₂ (fun payment output => draft.outputOf payment = .ok output)
        (draft.payments.filter draft.keeps) outputs ∧ outputs ≠ [] := by
  simp only [keptOutputs, bind_eq_ok_iff, guard_eq_ok_iff, pure_eq_ok_iff, mapM_eq_ok_iff,
    List.isEmpty_iff]
  constructor
  · rintro ⟨_, houtputs, hne, rfl⟩
    exact ⟨houtputs, hne⟩
  · rintro ⟨houtputs, hne⟩
    exact ⟨outputs, houtputs, hne, rfl⟩

/-- The outputs have the amounts of the payments that are kept. -/
lemma map_value_of_keptOutputs {outputs : List TxOut} (h : draft.keptOutputs = .ok outputs) :
    outputs.map TxOut.value = (draft.payments.filter draft.keeps).map Payment.amount := by
  have houtputs := (keptOutputs_eq_ok_iff.mp h).1
  rw [eq_comm, ← forall₂_image_iff]
  refine houtputs.imp fun payment output houtput => ?_
  simp only [outputOf, bind_eq_ok_iff, pure_eq_ok_iff] at houtput
  obtain ⟨script, -, rfl⟩ := houtput
  rfl

/-! ### Sizes -/

/-- Counts and the lengths of what is spelled out are below `2 ^ 64`. This is so
for every draft that fits the memory of a machine. -/
structure Addressable (draft : Draft) : Prop where
  spends : draft.spends.length < UInt64.size
  payments : draft.payments.length < UInt64.size
  scripts : ∀ payment ∈ draft.payments, ∀ hex, payment.lock = .script hex → hex.length < UInt64.size

/-- The outputs of such a draft can be written. -/
lemma Addressable.script_lt (haddr : draft.Addressable) {payment : Payment}
    (hpayment : payment ∈ draft.payments) {output : TxOut}
    (h : draft.outputOf payment = .ok output) : output.script.length < UInt64.size := by
  simp only [outputOf, bind_eq_ok_iff, pure_eq_ok_iff] at h
  obtain ⟨script, hscript, rfl⟩ := h
  cases hlock : payment.lock with
  | address text =>
      rw [hlock] at hscript
      exact Nat.lt_of_le_of_lt (Address.length_le_of_toScript hscript) (by decide)
  | script hex =>
      have hhex := haddr.scripts payment hpayment hex hlock
      rw [hlock] at hscript
      exact Nat.lt_of_le_of_lt (Script.length_le_of_ofHex hscript) hhex

/-- The transaction of such a draft can be written and read. -/
lemma fits_unsigned (haddr : draft.Addressable) {outputs : List TxOut}
    (houtputs : draft.keptOutputs = .ok outputs) : (draft.unsigned outputs).Fits := by
  have hmade := (keptOutputs_eq_ok_iff.mp houtputs).1
  have hkept : (draft.payments.filter draft.keeps).length ≤ draft.payments.length :=
    List.length_filter_le _ _
  refine ⟨?_, ?_, ?_, ?_⟩
  · rw [length_inputs_unsigned]
    exact haddr.spends
  · have hlength := hmade.length_eq
    have hpayments := haddr.payments
    simp only [unsigned, transactionWith]
    omega
  · simp [unsigned, transactionWith, finalInput]
  · intro output houtput
    obtain ⟨i, hi⟩ := List.mem_iff_getElem?.mp houtput
    obtain ⟨payment, hpayment, hof⟩ := exists_getElem?_of_forall₂ hmade.flip hi
    exact haddr.script_lt (List.mem_filter.mp (List.mem_of_getElem? hpayment)).1 hof

/-- It is written in the form without witnesses. -/
lemma usesWitnessForm_unsigned (hspends : draft.spends ≠ []) (outputs : List TxOut) :
    (draft.unsigned outputs).usesWitnessForm = false := by
  refine Transaction.usesWitnessForm_eq_false_iff.mpr ⟨?_, witness_of_mem_unsigned⟩
  rw [← List.length_pos_iff, length_inputs_unsigned]
  exact List.length_pos_iff.mpr hspends

end Draft

end CoinSpend
