import CoinSpend.Proofs.Signing.Result

/-!
Signing one input for a script under its output key.

* `Sighash.taprootDigest`: the digest, once there is one output spent for each input;
  `Sighash.taproot_eq_ok_iff`, `Sighash.taprootDigest_congr`.
* `Transaction.leafSatisfaction`: signature, script and proof for an input.
  `Transaction.withLeaf`: the transaction with them in the input.
* `Transaction.signLeaf_eq`: signing for a script, as one equation.
* `Transaction.withLeaf_comm`: it does not matter which of two inputs comes first, as no
  digest depends on what is in the other one.
* `Transaction.signLeaf_decided`: when an input is signed for a script, what that leaves,
  and that two inputs are signed in any order.
-/

namespace CoinSpend

/-! ### Digests -/

namespace Sighash

/-- The digest of output keys, for as many outputs spent as there are inputs. -/
def taprootDigest (tx : Transaction) (index : ℕ) (prevouts : List TxOut) (leaf : Option Bytes) :
    Bytes :=
  taggedHash "TapSighash" (taprootMessage tx index prevouts leaf)

/-- There is a digest if there is one output spent for each input. -/
lemma taproot_eq_ok_iff {tx : Transaction} {index : ℕ} {prevouts : List TxOut}
    {leaf : Option Bytes} {digest : Bytes} :
    taproot tx index prevouts leaf = .ok digest ↔
      prevouts.length = tx.inputs.length ∧ taprootDigest tx index prevouts leaf = digest := by
  rw [taproot, taprootDigest]
  split_ifs with h <;> simp [h]

/-- Transactions with one skeleton have the same digests. -/
lemma taprootDigest_congr {tx other : Transaction} (h : tx.skeleton = other.skeleton)
    (index : ℕ) (prevouts : List TxOut) (leaf : Option Bytes) :
    taprootDigest tx index prevouts leaf = taprootDigest other index prevouts leaf := by
  rw [taprootDigest, ← taprootMessage_skeleton, h, taprootMessage_skeleton, ← taprootDigest]

end Sighash

/-! ### Inputs signed for scripts -/

namespace Transaction

variable {tx other : Transaction} {index : ℕ} {leafScript : Script} {block : ControlBlock}
  {key : PrivateKey} {prevouts : List TxOut}

/-- The signature of an input by a key for a script, the script, and the proof that the
script is under the output key. -/
def leafSatisfaction (tx : Transaction) (index : ℕ) (leafScript : Script) (block : ControlBlock)
    (key : PrivateKey) (prevouts : List TxOut) : Satisfaction :=
  let digest := Sighash.taprootDigest tx index prevouts (some (Taproot.leafHash leafScript))
  ⟨[], [Schnorr.sign key.secret.scalar digest, leafScript, block.encode]⟩

/-- Transactions with one skeleton are signed alike. -/
lemma leafSatisfaction_congr (h : tx.skeleton = other.skeleton) :
    tx.leafSatisfaction index leafScript block key prevouts =
      other.leafSatisfaction index leafScript block key prevouts := by
  rw [leafSatisfaction, Sighash.taprootDigest_congr h, ← leafSatisfaction]

/-- The transaction with the input at a position signed for a script. -/
def withLeaf (tx : Transaction) (index : ℕ) (leafScript : Script) (block : ControlBlock)
    (key : PrivateKey) (prevouts : List TxOut) : Transaction :=
  { tx with inputs := tx.inputs.modify index fun input =>
      input.satisfy (tx.leafSatisfaction index leafScript block key prevouts) }

lemma length_inputs_withLeaf :
    (tx.withLeaf index leafScript block key prevouts).inputs.length = tx.inputs.length :=
  List.length_modify ..

/-- The other inputs remain as they are. -/
lemma getElem?_withLeaf_of_ne {i : ℕ} (h : i ≠ index) :
    (tx.withLeaf index leafScript block key prevouts).inputs[i]? = tx.inputs[i]? :=
  List.getElem?_modify_ne _ _ h.symm

lemma getElem?_withLeaf {input : TxIn} (h : tx.inputs[index]? = some input) :
    (tx.withLeaf index leafScript block key prevouts).inputs[index]? =
      some (input.satisfy (tx.leafSatisfaction index leafScript block key prevouts)) := by
  rw [withLeaf, List.getElem?_modify_eq, h]
  rfl

/-- The skeleton remains as it is. -/
lemma skeleton_withLeaf :
    (tx.withLeaf index leafScript block key prevouts).skeleton = tx.skeleton := by
  have hinputs : (tx.withLeaf index leafScript block key prevouts).inputs.map TxIn.bare
      = tx.inputs.map TxIn.bare := by
    refine List.ext_getElem (by simp [withLeaf]) fun i h₁ h₂ => ?_
    simp only [withLeaf, List.getElem_map, List.getElem_modify]
    split_ifs <;> rfl
  rw [skeleton, hinputs]
  rfl

/-- What satisfies an input for a script. It is there if the output spent is, and there
are as many inputs as outputs spent. -/
lemma ofPath_taprootScriptPath :
    Satisfaction.ofPath tx index (.taprootScriptPath leafScript block) key prevouts =
      if prevouts.length ≤ index then .error (.signing (.noPreviousOutput index))
      else if prevouts.length = tx.inputs.length then
        .ok (tx.leafSatisfaction index leafScript block key prevouts)
      else .error (.signing .previousOutputCount) := by
  split_ifs with hfew hlength
  · have hnone : prevouts[index]? = none := List.getElem?_eq_none hfew
    simp only [Satisfaction.ofPath, hnone]
  · have hprevout := List.getElem?_eq_getElem (Nat.lt_of_not_le hfew)
    simp only [Satisfaction.ofPath, hprevout, Satisfaction.scriptPath, Sighash.taproot,
      if_pos hlength]
    rfl
  · have hprevout := List.getElem?_eq_getElem (Nat.lt_of_not_le hfew)
    simp only [Satisfaction.ofPath, hprevout, Satisfaction.scriptPath, Sighash.taproot,
      if_neg hlength]
    rfl

/-- The work on one input, as one equation. The steps after a satisfaction is found do not
fail: that the input is there follows. -/
lemma on_signLeafInPlace :
    (signLeafInPlace index leafScript block key prevouts).on tx =
      if prevouts.length ≤ index then (.error (.signing (.noPreviousOutput index)), ⟨tx, []⟩)
      else if prevouts.length = tx.inputs.length then
        (.ok (), ⟨tx.withLeaf index leafScript block key prevouts, [.signed .taprootScriptPath]⟩)
      else (.error (.signing .previousOutputCount), ⟨tx, []⟩) := by
  rw [InPlace.on, signLeafInPlace, InPlace.run_bind_of_ok (InPlace.run_current _)]
  dsimp only
  rw [ofPath_taprootScriptPath]
  by_cases hfew : prevouts.length ≤ index
  · simp only [if_pos hfew]
    exact InPlace.run_bind_of_error (InPlace.run_liftM _ _) _
  by_cases hlength : prevouts.length = tx.inputs.length
  · have hindex : ¬tx.inputs.length ≤ index := by omega
    simp only [if_neg hfew, if_pos hlength, if_neg hindex]
    rw [InPlace.run_bind_of_ok (InPlace.run_liftM _ _)]
    exact InPlace.run_bind_of_ok (run_putInto _ _ _) _
  · simp only [if_neg hfew, if_neg hlength]
    exact InPlace.run_bind_of_error (InPlace.run_liftM _ _) _

/-- Signing for a script, as one equation. -/
lemma signLeaf_eq :
    tx.signLeaf index leafScript block key prevouts =
      if prevouts.length ≤ index then ⟨.error (.signing (.noPreviousOutput index)), []⟩
      else if prevouts.length = tx.inputs.length then
        ⟨.ok (tx.withLeaf index leafScript block key prevouts), [.signed .taprootScriptPath]⟩
      else ⟨.error (.signing .previousOutputCount), []⟩ := by
  rw [signLeaf, InPlace.metered, on_signLeafInPlace]
  split_ifs <;> rfl

/-- It does not matter which of two inputs is signed first, as no digest depends on what
is in the other one. -/
lemma withLeaf_comm {j : ℕ} (h : index ≠ j) (otherScript : Script) (otherBlock : ControlBlock)
    (otherKey : PrivateKey) (others : List TxOut) :
    (tx.withLeaf index leafScript block key prevouts).withLeaf j otherScript otherBlock otherKey
        others =
      (tx.withLeaf j otherScript otherBlock otherKey others).withLeaf index leafScript block key
        prevouts := by
  have hlater : (tx.withLeaf index leafScript block key prevouts).leafSatisfaction j otherScript
      otherBlock otherKey others = tx.leafSatisfaction j otherScript otherBlock otherKey others :=
    leafSatisfaction_congr skeleton_withLeaf
  have hearlier : tx.leafSatisfaction index leafScript block key prevouts =
      (tx.withLeaf j otherScript otherBlock otherKey others).leafSatisfaction index leafScript
        block key prevouts :=
    leafSatisfaction_congr skeleton_withLeaf.symm
  rw [withLeaf, hlater, withLeaf, List.modify_modify_ne _ _ _ h, hearlier]
  rfl

/-! ### When it is signed, and what that leaves -/

/-- With an output spent for each input, every input is signed. -/
lemma signLeaf_of_valid (hlength : prevouts.length = tx.inputs.length)
    (hindex : index < tx.inputs.length) :
    tx.signLeaf index leafScript block key prevouts =
      ⟨.ok (tx.withLeaf index leafScript block key prevouts), [.signed .taprootScriptPath]⟩ := by
  rw [signLeaf_eq, if_neg (by omega), if_pos hlength]

/-- That input is then changed in place. -/
lemma left_signLeafInPlace_of_valid (hlength : prevouts.length = tx.inputs.length)
    (hindex : index < tx.inputs.length) :
    (signLeafInPlace index leafScript block key prevouts).left tx =
      tx.withLeaf index leafScript block key prevouts := by
  rw [InPlace.left, on_signLeafInPlace, if_neg (by omega), if_pos hlength]

/-- Two inputs are signed one after the other. -/
lemma signLeaf_bind_signLeaf {other : ℕ} {otherScript : Script} {otherBlock : ControlBlock}
    {otherKey : PrivateKey} {others : List TxOut} (hlength : prevouts.length = tx.inputs.length)
    (hindex : index < tx.inputs.length) (hothers : others.length = tx.inputs.length)
    (hother : other < tx.inputs.length) :
    (do
      let u ← tx.signLeaf index leafScript block key prevouts
      u.signLeaf other otherScript otherBlock otherKey others) =
      ⟨.ok ((tx.withLeaf index leafScript block key prevouts).withLeaf other otherScript otherBlock
        otherKey others), [.signed .taprootScriptPath, .signed .taprootScriptPath]⟩ := by
  have hfirst := @signLeaf_of_valid tx index leafScript block key prevouts hlength hindex
  rw [Metered.bind_of_ok (congrArg Metered.outcome hfirst), hfirst, signLeaf_of_valid]
  · rfl
  · rw [hothers, length_inputs_withLeaf]
  · rwa [length_inputs_withLeaf]

/-- Otherwise nothing is signed or counted. -/
lemma signLeaf_of_invalid (h : ¬(prevouts.length = tx.inputs.length ∧ index < tx.inputs.length)) :
    ∃ e, tx.signLeaf index leafScript block key prevouts = ⟨.error e, []⟩ := by
  rw [signLeaf_eq]
  split_ifs with hfew hlength
  · exact ⟨_, rfl⟩
  · exact absurd ⟨hlength, by omega⟩ h
  · exact ⟨_, rfl⟩

/-- And nothing is changed. -/
lemma left_signLeafInPlace_of_invalid
    (h : ¬(prevouts.length = tx.inputs.length ∧ index < tx.inputs.length)) :
    (signLeafInPlace index leafScript block key prevouts).left tx = tx := by
  rw [InPlace.left, on_signLeafInPlace]
  split_ifs with hfew hlength
  · rfl
  · exact absurd ⟨hlength, by omega⟩ h
  · rfl

/-- Two transactions differ only in what unlocks the input at a position, and in the
second one this is a signature by a key for a script, the script, and the proof that it is
under the output key. The signature is over the digest of the second one itself. -/
structure LeafSigned (tx t : Transaction) (index : ℕ) (leafScript : Script)
    (block : ControlBlock) (key : PrivateKey) (prevouts : List TxOut) : Prop where
  version_eq : t.version = tx.version
  lockTime_eq : t.lockTime = tx.lockTime
  outputs_eq : t.outputs = tx.outputs
  others : ∀ i, i ≠ index → t.inputs[i]? = tx.inputs[i]?
  signed : ∃ input digest, tx.inputs[index]? = some input ∧
    Sighash.taproot t index prevouts (some (Taproot.leafHash leafScript)) = .ok digest ∧
    (Schnorr.sign key.secret.scalar digest).length = 64 ∧
    t.inputs[index]? = some { input with
      scriptSig := []
      witness := [Schnorr.sign key.secret.scalar digest, leafScript, block.encode] }

lemma leafSigned_withLeaf (hlength : prevouts.length = tx.inputs.length)
    (hindex : index < tx.inputs.length) :
    LeafSigned tx (tx.withLeaf index leafScript block key prevouts) index leafScript block key
      prevouts where
  version_eq := rfl
  lockTime_eq := rfl
  outputs_eq := rfl
  others := fun _ => getElem?_withLeaf_of_ne
  signed := by
    have hinput := List.getElem?_eq_getElem hindex
    refine ⟨_, _, hinput, Sighash.taproot_eq_ok_iff.mpr ⟨?_, ?_⟩, Schnorr.length_sign _ _,
      getElem?_withLeaf hinput⟩
    · rw [hlength, length_inputs_withLeaf]
    · exact Sighash.taprootDigest_congr skeleton_withLeaf _ _ _

/-- **An input is signed for a script if there is an output spent for each input, and the
input is one of them; and only then.** A failure leaves the transaction as it was and
counts nothing. A success changes only what unlocks that input, which then holds a
signature over the digest of the result, the script and its proof. Two inputs are signed
in any order, with the same result. -/
theorem signLeaf_decided (tx : Transaction) (index : ℕ) (leafScript : Script)
    (block : ControlBlock) (key : PrivateKey) (prevouts : List TxOut) :
    ((∃ t, (tx.signLeaf index leafScript block key prevouts).outcome = .ok t) ↔
      prevouts.length = tx.inputs.length ∧ index < tx.inputs.length) ∧
      (∀ e, (tx.signLeaf index leafScript block key prevouts).outcome = .error e →
        (signLeafInPlace index leafScript block key prevouts).left tx = tx ∧
        (tx.signLeaf index leafScript block key prevouts).events = []) ∧
      (∀ t, (tx.signLeaf index leafScript block key prevouts).outcome = .ok t →
        (signLeafInPlace index leafScript block key prevouts).left tx = t ∧
        (tx.signLeaf index leafScript block key prevouts).events = [.signed .taprootScriptPath] ∧
        LeafSigned tx t index leafScript block key prevouts) ∧
      ∀ (other : ℕ) (otherScript : Script) (otherBlock : ControlBlock) (otherKey : PrivateKey)
        (others : List TxOut),
        prevouts.length = tx.inputs.length → index < tx.inputs.length →
        others.length = tx.inputs.length → other < tx.inputs.length → index ≠ other →
        ∃ t,
          (do
            let u ← tx.signLeaf index leafScript block key prevouts
            u.signLeaf other otherScript otherBlock otherKey others)
            = ⟨.ok t, [.signed .taprootScriptPath, .signed .taprootScriptPath]⟩ ∧
          (do
            let u ← tx.signLeaf other otherScript otherBlock otherKey others
            u.signLeaf index leafScript block key prevouts)
            = ⟨.ok t, [.signed .taprootScriptPath, .signed .taprootScriptPath]⟩ := by
  by_cases hvalid : prevouts.length = tx.inputs.length ∧ index < tx.inputs.length
  · obtain ⟨hlength, hindex⟩ := hvalid
    have hsigned := @signLeaf_of_valid tx index leafScript block key prevouts hlength hindex
    refine ⟨⟨fun _ => ⟨hlength, hindex⟩, fun _ => ⟨_, congrArg Metered.outcome hsigned⟩⟩, ?_, ?_,
      ?_⟩
    · intro e he
      rw [hsigned] at he
      cases he
    · intro t ht
      rw [hsigned] at ht ⊢
      cases ht
      exact ⟨left_signLeafInPlace_of_valid hlength hindex, rfl, leafSigned_withLeaf hlength hindex⟩
    · intro other otherScript otherBlock otherKey others _ _ hothers hother hne
      refine ⟨_, signLeaf_bind_signLeaf hlength hindex hothers hother, ?_⟩
      rw [signLeaf_bind_signLeaf hothers hother hlength hindex, withLeaf_comm hne]
  · obtain ⟨e, hfails⟩ :=
      @signLeaf_of_invalid tx index leafScript block key prevouts hvalid
    refine ⟨⟨?_, fun h => absurd h hvalid⟩, ?_, ?_, ?_⟩
    · rintro ⟨t, ht⟩
      rw [hfails] at ht
      cases ht
    · intro e' _
      rw [hfails]
      exact ⟨left_signLeafInPlace_of_invalid hvalid, rfl⟩
    · intro t ht
      rw [hfails] at ht
      cases ht
    · intro other otherScript otherBlock otherKey others hlength hindex
      exact absurd ⟨hlength, hindex⟩ hvalid

/-- An output key for each input of the sample. -/
def sampleOutputs : List TxOut :=
  List.replicate 4 ⟨50000, Script.p2tr (List.replicate 32 3)⟩

/-- The proof for a script that is alone under an output key. -/
def sampleProof : ControlBlock :=
  ⟨Taproot.leafVersion, ⟨List.replicate 32 3, rfl⟩, []⟩

/-- The second and the fourth input of the sample are signed in any order. There is no
fifth one, and nothing is done for it. -/
theorem signLeaf_decided_sample :
    (∃ t, (do
        let u ← sampleSpend.signLeaf 1 [0x51] sampleProof sampleKey sampleOutputs
        u.signLeaf 3 [0x52] sampleProof sampleKey sampleOutputs).outcome = .ok t ∧
      (do
        let u ← sampleSpend.signLeaf 3 [0x52] sampleProof sampleKey sampleOutputs
        u.signLeaf 1 [0x51] sampleProof sampleKey sampleOutputs).outcome = .ok t) ∧
      (∃ t, LeafSigned sampleSpend t 1 [0x51] sampleProof sampleKey sampleOutputs) ∧
      (signLeafInPlace 4 [0x51] sampleProof sampleKey sampleOutputs).left sampleSpend =
        sampleSpend := by
  obtain ⟨hsigns, -, hsigned, hcomm⟩ :=
    signLeaf_decided sampleSpend 1 [0x51] sampleProof sampleKey sampleOutputs
  obtain ⟨-, hfails, -⟩ :=
    signLeaf_decided sampleSpend 4 [0x51] sampleProof sampleKey sampleOutputs
  obtain ⟨t, ht⟩ := hsigns.mpr ⟨rfl, by decide⟩
  obtain ⟨both, hfirst, hsecond⟩ := hcomm 3 [0x52] sampleProof sampleKey sampleOutputs rfl
    (by decide) rfl (by decide) (by decide)
  exact ⟨⟨both, congrArg Metered.outcome hfirst, congrArg Metered.outcome hsecond⟩,
    ⟨t, (hsigned t ht).2.2⟩, (hfails _ rfl).1⟩

end Transaction

end CoinSpend
