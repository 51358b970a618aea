import CoinSpend.Proofs.Signing.Refusal

/-!
Signing writes over what unlocked the inputs before.

* `Transaction.skeleton_eq_iff`: when two transactions differ only in what unlocks
  their inputs.
* `Transaction.satisfactions_skeleton`: the satisfactions are those of the skeleton.
  `Transaction.satisfy_skeleton`: nothing of what a satisfaction replaces is left.
* `Transaction.sign_overwrites`: hence such transactions are signed alike, and a signed
  one stays as it is when it is signed again.
-/

namespace CoinSpend

namespace Transaction

variable {tx other : Transaction} {keys : List PrivateKey} {lookup : Lookup}

/-! ### Transactions with one skeleton -/

/-- Inputs that spend one output with one sequence differ only in what unlocks them. -/
lemma bare_eq_iff {input source : TxIn} :
    input.bare = source.bare ↔
      (input.previous, input.sequence) = (source.previous, source.sequence) := by
  simp only [TxIn.bare, TxIn.mk.injEq, Prod.mk.injEq, true_and, and_true]

/-- Two transactions have one skeleton if they agree in all that is signed. -/
lemma skeleton_eq_iff :
    tx.skeleton = other.skeleton ↔
      tx.version = other.version ∧ tx.lockTime = other.lockTime ∧
        tx.inputs.map (fun input => (input.previous, input.sequence))
          = other.inputs.map (fun input => (input.previous, input.sequence)) ∧
        tx.outputs = other.outputs := by
  rw [← forall₂_image_iff]
  simp only [skeleton, Transaction.mk.injEq, ← forall₂_image_iff, bare_eq_iff]

/-! ### Signing a skeleton -/

/-- The outputs spent are those of the skeleton. -/
lemma spentFrom_bare (index : ℕ) (inputs : List TxIn) :
    spentFrom lookup index (inputs.map TxIn.bare) = spentFrom lookup index inputs := by
  induction inputs generalizing index with
  | nil => rfl
  | cons input rest ih =>
      simp only [List.map_cons, spentFrom, ih]
      rfl

/-- An input is satisfied as in the skeleton. -/
lemma satisfyFrom_skeleton (prevouts : List TxOut) (index : ℕ)
    (pairs : List (TxOut × PrivateKey)) :
    satisfyFrom tx.skeleton prevouts index pairs = satisfyFrom tx prevouts index pairs := by
  induction pairs generalizing index with
  | nil => rfl
  | cons pair rest ih => simp only [satisfyFrom, Satisfaction.ofPath_skeleton, ih]

/-- **No satisfaction depends on what unlocks the inputs.** -/
lemma satisfactions_skeleton :
    tx.skeleton.satisfactions keys lookup = tx.satisfactions keys lookup := by
  have hspent : spentFrom lookup 0 tx.skeleton.inputs = spentFrom lookup 0 tx.inputs :=
    spentFrom_bare 0 tx.inputs
  simp only [satisfactions, length_skeleton, hspent, satisfyFrom_skeleton]

/-- Both parts of what unlocks an input are replaced. -/
lemma satisfy_skeleton (satisfactions : List Satisfaction) :
    tx.skeleton.satisfy satisfactions = tx.satisfy satisfactions := by
  rw [satisfy, satisfy, skeleton, List.zipWith_map_left]
  rfl

lemma sign_skeleton : tx.skeleton.sign keys lookup = tx.sign keys lookup := by
  cases h : tx.satisfactions keys lookup with
  | error e => rw [sign_of_error h, sign_of_error (satisfactions_skeleton.trans h)]
  | ok found =>
      rw [sign_of_satisfactions h, sign_of_satisfactions (satisfactions_skeleton.trans h),
        satisfy_skeleton]

/-- **What unlocked the inputs before plays no part in signing.** Transactions that agree
in version, lock time and outputs, and in the outpoint and the sequence of every input,
are both signed, with the same result, or both refused, for the same cause; and so is what
is counted. In particular a signed transaction stays as it is when it is signed again. -/
theorem sign_overwrites (hversion : tx.version = other.version)
    (hlockTime : tx.lockTime = other.lockTime)
    (hinputs : tx.inputs.map (fun input => (input.previous, input.sequence))
      = other.inputs.map (fun input => (input.previous, input.sequence)))
    (houtputs : tx.outputs = other.outputs) (keys : List PrivateKey) (lookup : Lookup) :
    tx.sign keys lookup = other.sign keys lookup ∧
      ∀ t, (tx.sign keys lookup).outcome = .ok t →
        t.sign keys lookup = ⟨.ok t, (tx.sign keys lookup).events⟩ := by
  have hskeleton : tx.skeleton = other.skeleton :=
    skeleton_eq_iff.mpr ⟨hversion, hlockTime, hinputs, houtputs⟩
  constructor
  · calc tx.sign keys lookup = tx.skeleton.sign keys lookup := sign_skeleton.symm
      _ = other.skeleton.sign keys lookup := by rw [hskeleton]
      _ = other.sign keys lookup := sign_skeleton
  · intro t ht
    have hsigned : t.skeleton = tx.skeleton :=
      skeleton_of_trialSigned ((outcome_sign tx keys lookup).symm.trans ht)
    calc t.sign keys lookup = t.skeleton.sign keys lookup := sign_skeleton.symm
      _ = tx.skeleton.sign keys lookup := by rw [hsigned]
      _ = tx.sign keys lookup := sign_skeleton
      _ = ⟨.ok t, (tx.sign keys lookup).events⟩ := by rw [← ht]

/-- The sample with something in both places of every input. -/
def sampleFilled : Transaction :=
  { sampleSpend with
    inputs := sampleSpend.inputs.map fun input =>
      { input with scriptSig := [0x51], witness := [[1, 2, 3]] } }

/-- The sample is signed in the same way with and without that, and a second time. -/
theorem sign_overwrites_sample :
    ∃ t, (sampleSpend.sign (List.replicate 5 sampleKey) sampleLookup).outcome = .ok t ∧
      (sampleFilled.sign (List.replicate 5 sampleKey) sampleLookup).outcome = .ok t ∧
      (t.sign (List.replicate 5 sampleKey) sampleLookup).outcome = .ok t := by
  obtain ⟨hfilled, hagain⟩ := @sign_overwrites sampleSpend sampleFilled rfl rfl rfl rfl
    (List.replicate 5 sampleKey) sampleLookup
  obtain ⟨found, hfound⟩ := exists_satisfactions_iff.mpr signable_sampleSpend
  have ht := congrArg Metered.outcome (sign_of_satisfactions hfound)
  exact ⟨_, ht, hfilled ▸ ht, congrArg Metered.outcome (hagain _ ht)⟩

end Transaction

end CoinSpend
