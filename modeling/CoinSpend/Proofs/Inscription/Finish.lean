import CoinSpend.Inscription.Reveal
import CoinSpend.Proofs.Inscription.Funding
import CoinSpend.Proofs.Signing.Leaf

/-!
What signed commit transactions and finished reveals hold.

* `SignedCommit.ofFunded_eq_ok_iff`: the signed commit transaction is the
  funded one with every input signed; its outputs are those that were funded.
* `finishedReveal`: the reveal of an item with its input pointed at a commit
  transaction and its witness put in.
* `SignedReveals.Finishes`: the finished reveals stand in the order of the items
  of the plan; each signature is over the finished reveal and the commit output
  at the position of the item.
* `SignedReveals.finishes_of_ofCommit`: this is so whenever the reveals are
  signed.
-/

namespace CoinSpend

open QuotedReveals (Quotes blankReveal)
open FundedCommit (Funds)

namespace SignedCommit

/-- The commit transaction is signed like any other. -/
lemma ofFunded_eq_ok_iff {funded : FundedCommit} {commit : SignedCommit} :
    (ofFunded funded).outcome = .ok commit ↔
      ∃ t, funded.commitTx.trialSigned funded.plan.keys funded.plan.lookup = .ok t ∧
        ⟨funded.plan, funded.reveals, t⟩ = commit := by
  simp only [ofFunded, Metered.outcome_bind, Transaction.outcome_sign, Metered.outcome_pure,
    bind_eq_ok_iff, Except.ok.injEq]

/-- Signing keeps the outputs. -/
lemma outputs_of_ofFunded {funded : FundedCommit} {commit : SignedCommit}
    (h : (ofFunded funded).outcome = .ok commit) :
    commit.commitTx.outputs = funded.commitTx.outputs := by
  obtain ⟨t, ht, rfl⟩ := ofFunded_eq_ok_iff.mp h
  exact Transaction.outputs_of_skeleton (Transaction.skeleton_of_trialSigned ht)

end SignedCommit

/-- The signature of a lone input for a script. -/
lemma Transaction.signLeaf_eq_ok {tx t : Transaction} {input : TxIn} {leafScript : Script}
    {block : ControlBlock} {key : PrivateKey} {output : TxOut} (hinput : tx.inputs = [input])
    (h : (tx.signLeaf 0 leafScript block key [output]).outcome = .ok t) :
    ∃ digest, Sighash.taproot tx 0 [output] (some (Taproot.leafHash leafScript)) = .ok digest ∧
      t = { tx with inputs := [{ input with
        scriptSig := []
        witness := [Schnorr.sign key.secret.scalar digest, leafScript, block.encode] }] } := by
  have hlength : [output].length = tx.inputs.length := by rw [hinput]; rfl
  rw [signLeaf_of_valid hlength (hlength ▸ Nat.one_pos)] at h
  cases h
  refine ⟨_, Sighash.taproot_eq_ok_iff.mpr ⟨hlength, rfl⟩, ?_⟩
  rw [withLeaf, hinput]
  rfl

/-- The reveal of an item that spends the output `vout` of the transaction
`txid`, with a signature, the envelope and its proof as witness. -/
def finishedReveal (plan : InscriptionPlan) (txid : Txid) (vout : ℕ) (item : PlannedItem)
    (signature : Bytes) : Transaction where
  version := inscriptionVersion
  lockTime := 0
  inputs := [⟨⟨txid, UInt32.ofNat vout⟩, [], replaceableSequence,
    [signature, item.output.envelope, item.output.controlBlock.encode]⟩]
  outputs := [⟨plan.revealValue, item.receiverScript⟩]

namespace SignedReveals

/-- The finished reveal of an item that stands at a position. -/
def FinishOf (plan : InscriptionPlan) (commitTx : Transaction) (entry : PlannedItem × ℕ)
    (reveal : Transaction) : Prop :=
  ∃ output digest, commitTx.outputs[entry.2]? = some output ∧
    Sighash.taproot reveal 0 [output] (some (Taproot.leafHash entry.1.output.envelope))
      = .ok digest ∧
    reveal = finishedReveal plan commitTx.txid entry.2 entry.1
      (Schnorr.sign plan.revealKey.secret.scalar digest)

/-- The finished reveals of a signed commit transaction. -/
structure Finishes (commit : SignedCommit) (signed : SignedReveals) : Prop where
  plan_eq : signed.plan = commit.plan
  commitTx_eq : signed.commitTx = commit.commitTx
  reveals : List.Forall₂ (FinishOf commit.plan commit.commitTx) commit.plan.items.zipIdx
    signed.reveals

/-- The reveals from a position on, each with its item, are finished one by
one. -/
lemma signFrom_eq_ok {plan : InscriptionPlan} {commitTx : Transaction} {index : ℕ}
    {items : List PlannedItem} {reveals : List Transaction}
    (h : (signFrom plan.revealKey commitTx index
      ((items.zipIdx index).map fun entry => (blankReveal plan entry.2 entry.1, entry.1))).outcome
        = .ok reveals) :
    List.Forall₂ (FinishOf plan commitTx) (items.zipIdx index) reveals := by
  induction items generalizing index reveals with
  | nil =>
      simp only [List.zipIdx_nil, List.map_nil, signFrom, Metered.outcome_pure,
        Except.ok.injEq] at h
      subst h
      exact .nil
  | cons item rest ih =>
      simp only [List.zipIdx_cons, List.map_cons, signFrom] at h
      cases houtput : commitTx.outputs[index]? with
      | none => simp [houtput] at h
      | some output =>
          simp only [houtput, Metered.outcome_bind, Metered.outcome_pure, bind_eq_ok_iff,
            Except.ok.injEq] at h
          obtain ⟨signed, hsigned, others, hothers, rfl⟩ := h
          refine .cons ?_ (ih hothers)
          obtain ⟨digest, hdigest, rfl⟩ := Transaction.signLeaf_eq_ok rfl hsigned
          refine ⟨output, digest, houtput, ?_, rfl⟩
          -- the digest was taken before the witness was there
          rw [← Sighash.taproot_skeleton] at hdigest ⊢
          exact hdigest

/-- The reveals of a plan, paired with its items. -/
lemma zip_items_of_reveals {plan : InscriptionPlan} {reveals : List Transaction}
    (h : reveals = plan.items.zipIdx.map fun entry => blankReveal plan entry.2 entry.1) :
    reveals.zip plan.items
      = plan.items.zipIdx.map fun entry => (blankReveal plan entry.2 entry.1, entry.1) := by
  subst h
  refine List.ext_getElem (by simp) fun i h₁ h₂ => ?_
  simp

/-- The reveals of a plan are finished in the order of its items. -/
lemma finishes_of_ofCommit {commit : SignedCommit} {signed : SignedReveals}
    (hreveals : commit.reveals
      = commit.plan.items.zipIdx.map fun entry => blankReveal commit.plan entry.2 entry.1)
    (h : (ofCommit commit).outcome = .ok signed) : Finishes commit signed := by
  simp only [ofCommit, zip_items_of_reveals hreveals, Metered.outcome_bind,
    Metered.outcome_liftM, Metered.outcome_pure, bind_eq_ok_iff, Except.ok.injEq] at h
  obtain ⟨reveals, hsigned, -, -, rfl⟩ := h
  exact ⟨rfl, rfl, signFrom_eq_ok hsigned⟩

end SignedReveals

/-! ### Runs -/

section Run

variable {plan : InscriptionPlan} {quoted : QuotedReveals} {change : Option Amount}
  {funded : FundedCommit} {commit : SignedCommit} {signed : SignedReveals}

/-- The plan goes through a run as it is. -/
lemma SignedCommit.plan_of_run (hquotes : Quotes plan quoted) (hfunds : Funds quoted funded change)
    (hcommit : (ofFunded funded).outcome = .ok commit) : commit.plan = plan := by
  obtain ⟨t, -, rfl⟩ := ofFunded_eq_ok_iff.mp hcommit
  exact hfunds.plan_eq.trans hquotes.plan_eq

/-- The reveals of a run are those of the items of its plan, in order, until they
are signed. -/
lemma SignedCommit.reveals_of_run (hquotes : Quotes plan quoted)
    (hfunds : Funds quoted funded change) (hcommit : (ofFunded funded).outcome = .ok commit) :
    commit.reveals
      = commit.plan.items.zipIdx.map fun entry => blankReveal commit.plan entry.2 entry.1 := by
  rw [plan_of_run hquotes hfunds hcommit, ← hquotes.reveals_eq, ← hfunds.reveals_eq]
  obtain ⟨t, -, rfl⟩ := ofFunded_eq_ok_iff.mp hcommit
  rfl

/-- The reveals of a run are finished in the order of the items of its plan. -/
lemma SignedReveals.finishes_of_run (hquotes : Quotes plan quoted)
    (hfunds : Funds quoted funded change)
    (hcommit : (SignedCommit.ofFunded funded).outcome = .ok commit)
    (hsigned : (ofCommit commit).outcome = .ok signed) : Finishes commit signed :=
  finishes_of_ofCommit (SignedCommit.reveals_of_run hquotes hfunds hcommit) hsigned

end Run

/-- An address of an output key. -/
def sampleAddress : String :=
  "bcrt1pqurswpc8qurswpc8qurswpc8qurswpc8qurswpc8qurswpc8qurs2ajwcf"

/-- An inscription whose body takes two pieces. -/
def sampleInscription : Inscription :=
  ⟨"text/html", List.replicate 530 7, sampleAddress⟩

/-- A request for two inscriptions that one output key pays for. -/
def sampleRequest : InscriptionRequest where
  funding := [{
    txid := .zero
    vout := 1
    amount := 100000
    address := sampleAddress
    privateKey := "0101010101010101010101010101010101010101010101010101010101010101" }]
  commitFeeRate := 2
  revealFeeRate := 3
  inscriptions := [⟨"text/plain", [104, 105], sampleAddress⟩, sampleInscription]
  revealValue := none
  changeAddress := sampleAddress
  minChange := some 0

/-- Every step of the request succeeds. -/
lemma exists_run_sampleRequest :
    ∃ plan quoted funded commit signed,
      InscriptionPlan.ofRequest sampleRequest Chain.bitcoinRegtest.params = .ok plan ∧
      QuotedReveals.ofPlan plan = .ok quoted ∧ FundedCommit.ofQuoted quoted = .ok funded ∧
      (SignedCommit.ofFunded funded).outcome = .ok commit ∧
      (SignedReveals.ofCommit commit).outcome = .ok signed := by
  have hrun : ((do
      let plan ← InscriptionPlan.ofRequest sampleRequest Chain.bitcoinRegtest.params
      let quoted ← QuotedReveals.ofPlan plan
      let funded ← FundedCommit.ofQuoted quoted
      let commit ← (SignedCommit.ofFunded funded).outcome
      (SignedReveals.ofCommit commit).outcome :
        Except TxError SignedReveals)).toOption.isSome := by decide +kernel
  obtain ⟨signed, hsigned⟩ := exists_eq_ok_of_isSome hrun
  simp only [bind_eq_ok_iff] at hsigned
  obtain ⟨plan, hplan, quoted, hquoted, funded, hfunded, commit, hcommit, hsigned⟩ := hsigned
  exact ⟨plan, quoted, funded, commit, signed, hplan, hquoted, hfunded, hcommit, hsigned⟩

end CoinSpend
