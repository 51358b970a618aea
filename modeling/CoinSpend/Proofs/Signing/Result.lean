import CoinSpend.Proofs.Signing.InPlace
import CoinSpend.Proofs.Signing.Satisfaction
import CoinSpend.Proofs.Signing.Skeleton

/-!
What a signed transaction holds.

* `Transaction.satisfactions_eq_ok_iff`: every input can be satisfied if and
  only if there is a key for each input, each spends a known output, and each
  output can be spent by its key; the satisfactions stand in the order of the
  inputs.
* `Transaction.sign_of_satisfactions`, `Transaction.sign_of_error`: a success puts
  all of them in and counts one event for each, a failure counts nothing.
  `Transaction.outcome_sign`: signing and signing for a trial have one outcome.
* `Transaction.skeleton_of_trialSigned`: signing keeps the skeleton.
-/

namespace CoinSpend

namespace SpendPath

/-- The four ways in which a key can spend an output. -/
lemma cases_of_ofScript {script : Script} {key : PrivateKey} {input : ℕ} {path : SpendPath}
    (h : ofScript script key input = .ok path) :
    (script.isP2tr ∧ path = .taprootKeyPath) ∨ (script.isP2pkh ∧ path = .p2pkh) ∨
      (script.isP2wpkh ∧ path = .p2wpkh) ∨
      (script = Script.p2sh (hash160 (ownProgram key)) ∧ path = .p2shP2wpkh (ownProgram key)) := by
  rw [ofScript] at h
  split_ifs at h with htr hpkh hwpkh
  · cases h; exact .inl ⟨htr, rfl⟩
  · cases h; exact .inr (.inl ⟨hpkh, rfl⟩)
  · cases h; exact .inr (.inr (.inl ⟨hwpkh, rfl⟩))
  · simp only [ownRedeemScript?] at h
    split_ifs at h with hown heq
    · cases h
      exact .inr (.inr (.inr ⟨heq.symm, rfl⟩))

end SpendPath

namespace Transaction

/-! ### Satisfactions by position -/

/-- The outputs spent are those that are looked up. -/
lemma spentFrom_eq_ok_iff {lookup : Lookup} {index : ℕ} {inputs : List TxIn}
    {outputs : List TxOut} :
    spentFrom lookup index inputs = .ok outputs ↔
      List.Forall₂ (fun input output => lookup input.previous = some output) inputs outputs := by
  induction inputs generalizing index outputs with
  | nil => simp [spentFrom, eq_comm]
  | cons input rest ih =>
      rw [spentFrom, List.forall₂_cons_left_iff]
      cases hlookup : lookup input.previous with
      | none => simp
      | some output =>
          simp only [bind_eq_ok_iff, pure_eq_ok_iff, ih, Option.some.injEq]
          constructor
          · rintro ⟨others, hothers, rfl⟩
            exact ⟨output, others, rfl, hothers, rfl⟩
          · rintro ⟨_, others, rfl, hothers, rfl⟩
            exact ⟨others, hothers, rfl⟩

/-- The entry of an input, given by its output, its key and its position: the
way in which the key spends the output, and its satisfaction. -/
def Entry (tx : Transaction) (prevouts : List TxOut) (input : (TxOut × PrivateKey) × ℕ)
    (entry : SpendPath × Satisfaction) : Prop :=
  SpendPath.ofScript input.1.1.script input.1.2 input.2 = .ok entry.1 ∧
    Satisfaction.ofPath tx input.2 entry.1 input.1.2 prevouts = .ok entry.2

lemma satisfyFrom_eq_ok_iff {tx : Transaction} {prevouts : List TxOut} {index : ℕ}
    {pairs : List (TxOut × PrivateKey)} {found : List (SpendPath × Satisfaction)} :
    satisfyFrom tx prevouts index pairs = .ok found ↔
      List.Forall₂ (tx.Entry prevouts) (pairs.zipIdx index) found := by
  induction pairs generalizing index found with
  | nil => simp [satisfyFrom, eq_comm]
  | cons pair rest ih =>
      rw [List.zipIdx_cons, List.forall₂_cons_left_iff]
      simp only [satisfyFrom, bind_eq_ok_iff, pure_eq_ok_iff, ih]
      constructor
      · rintro ⟨path, hpath, satisfaction, hsat, others, hothers, rfl⟩
        exact ⟨(path, satisfaction), others, ⟨hpath, hsat⟩, hothers, rfl⟩
      · rintro ⟨⟨path, satisfaction⟩, others, ⟨hpath, hsat⟩, hothers, rfl⟩
        exact ⟨path, hpath, satisfaction, hsat, others, hothers, rfl⟩

/-- When all inputs of a transaction can be satisfied, and how. -/
lemma satisfactions_eq_ok_iff {tx : Transaction} {keys : List PrivateKey} {lookup : Lookup}
    {found : List (SpendPath × Satisfaction)} :
    tx.satisfactions keys lookup = .ok found ↔
      tx.inputs.length ≤ keys.length ∧
        ∃ prevouts, List.Forall₂ (fun input output => lookup input.previous = some output)
            tx.inputs prevouts ∧
          List.Forall₂ (tx.Entry prevouts) (prevouts.zip keys).zipIdx found := by
  rw [satisfactions]
  split_ifs with hkeys
  · simp; omega
  · simp only [bind_eq_ok_iff, spentFrom_eq_ok_iff, satisfyFrom_eq_ok_iff]
    exact ⟨fun h => ⟨by omega, h⟩, fun h => h.2⟩

/-- There is one satisfaction for each input. -/
lemma length_satisfactions {tx : Transaction} {keys : List PrivateKey} {lookup : Lookup}
    {found : List (SpendPath × Satisfaction)} (h : tx.satisfactions keys lookup = .ok found) :
    found.length = tx.inputs.length := by
  obtain ⟨hkeys, prevouts, hspent, hfound⟩ := satisfactions_eq_ok_iff.mp h
  have h₁ := hspent.length_eq
  have h₂ := hfound.length_eq
  rw [List.length_zipIdx, List.length_zip] at h₂
  omega

/-- A success puts every satisfaction in, and counts one event for each. -/
lemma sign_of_satisfactions {tx : Transaction} {keys : List PrivateKey} {lookup : Lookup}
    {found : List (SpendPath × Satisfaction)} (h : tx.satisfactions keys lookup = .ok found) :
    tx.sign keys lookup =
      ⟨.ok (tx.satisfy (found.map Prod.snd)), found.map fun entry => .signed entry.1.lockKind⟩ := by
  rw [sign, InPlace.metered, on_signInPlace_of_ok h (length_satisfactions h)]

/-- A failure counts nothing. -/
lemma sign_of_error {tx : Transaction} {keys : List PrivateKey} {lookup : Lookup} {e : TxError}
    (h : tx.satisfactions keys lookup = .error e) : tx.sign keys lookup = ⟨.error e, []⟩ := by
  rw [sign, InPlace.metered, on_signInPlace_of_error h]

/-- Counting apart, signing is signing for a trial. -/
lemma outcome_sign (tx : Transaction) (keys : List PrivateKey) (lookup : Lookup) :
    (tx.sign keys lookup).outcome = tx.trialSigned keys lookup := by
  cases h : tx.satisfactions keys lookup with
  | error e =>
      rw [sign_of_error h, trialSigned, h]
      rfl
  | ok found =>
      rw [sign_of_satisfactions h, trialSigned, h]
      rfl

/-- The signed transaction is the given one with a satisfaction for each input
put in. -/
lemma trialSigned_eq_ok_iff {tx t : Transaction} {keys : List PrivateKey} {lookup : Lookup} :
    tx.trialSigned keys lookup = .ok t ↔
      ∃ found, tx.satisfactions keys lookup = .ok found ∧
        tx.satisfy (found.map Prod.snd) = t := by
  simp only [trialSigned, bind_eq_ok_iff, pure_eq_ok_iff]

/-- Transactions with one skeleton spend the same outputs. -/
lemma map_previous_of_skeleton {tx other : Transaction} (h : tx.skeleton = other.skeleton) :
    tx.inputs.map TxIn.previous = other.inputs.map TxIn.previous := by
  have hinputs : tx.inputs.map TxIn.bare = other.inputs.map TxIn.bare :=
    congrArg Transaction.inputs h
  have hbare : ∀ inputs : List TxIn,
      inputs.map TxIn.previous = (inputs.map TxIn.bare).map TxIn.previous := by
    intro inputs
    rw [List.map_map]
    rfl
  rw [hbare, hinputs, ← hbare]

/-- Transactions with one skeleton have the same outputs. -/
lemma outputs_of_skeleton {tx other : Transaction} (h : tx.skeleton = other.skeleton) :
    tx.outputs = other.outputs := by
  have houtputs : tx.skeleton.outputs = other.skeleton.outputs := by rw [h]
  exact houtputs

/-- Signing keeps the skeleton. -/
lemma skeleton_of_trialSigned {tx t : Transaction} {keys : List PrivateKey} {lookup : Lookup}
    (h : tx.trialSigned keys lookup = .ok t) : t.skeleton = tx.skeleton := by
  obtain ⟨found, hfound, rfl⟩ := trialSigned_eq_ok_iff.mp h
  have hlength : (found.map Prod.snd).length = tx.inputs.length := by
    rw [List.length_map, length_satisfactions hfound]
  exact skeleton_satisfy (Nat.le_of_eq hlength.symm)

/-- The key with secret one, in the short form. -/
def sampleKey : PrivateKey :=
  ⟨⟨1, by decide, by decide⟩, true, .test⟩

/-- One lock of each kind that a key opens. -/
def sampleLocks : List Script :=
  [Script.p2pkh (List.replicate 20 1), Script.p2wpkh (List.replicate 20 2),
    Script.p2sh (hash160 (SpendPath.ownProgram sampleKey)), Script.p2tr (List.replicate 32 3)]

/-- The outputs of one transaction with these locks. -/
def sampleLookup : Lookup := fun outpoint =>
  sampleLocks[outpoint.vout.toNat]?.map fun script => ⟨50000, script⟩

/-- A transaction that spends all of them. -/
def sampleSpend : Transaction where
  version := 2
  lockTime := 0
  inputs := [0, 1, 2, 3].map fun vout => ⟨⟨.zero, vout⟩, [], 0xffffffff, []⟩
  outputs := [⟨10000, Script.p2wpkh (List.replicate 20 4)⟩]

end Transaction

end CoinSpend
