import CoinSpend.Proofs.Counters
import CoinSpend.Proofs.Inscription.Failure
import CoinSpend.Proofs.Inscription.Standardness
import CoinSpend.Proofs.Transaction.Table

/-!
What a run has signed when it ends.

* `FundedCommit.finish`: the steps behind the funding. `FundedCommit.events_finish`: they
  sign every input of the commit transaction and every reveal, and only then
  (`FundedCommit.outcome_finish`) can they fail, for a weight.
* `InscriptionRequest.inForce`: of the entries for one output the last, whose lock is the
  one that is opened. `InscriptionRequest.paysFrom_of_oneAddress`: with one address for
  each output it does not matter.
* `InscriptionRequest.Opens`: the kinds of the locks that are opened once everything is
  signed, one for each output that pays and one for each inscription.
* `InscriptionRequest.Exit`: the exits of a run, each with the locks it has opened.
  `InscriptionRequest.exists_exit`: every run takes one of them, and nothing else is
  counted on the way.
-/

namespace CoinSpend

open QuotedReveals (Quotes blankReveal)
open FundedCommit (Funds)

/-! ### Events of the steps -/

/-- A reveal that is signed is counted once. -/
lemma Transaction.events_signLeaf {tx t : Transaction} {index : ℕ} {leafScript : Script}
    {block : ControlBlock} {key : PrivateKey} {prevouts : List TxOut}
    (h : (tx.signLeaf index leafScript block key prevouts).outcome = .ok t) :
    (tx.signLeaf index leafScript block key prevouts).events = [.signed .taprootScriptPath] := by
  rw [signLeaf_eq] at h ⊢
  split_ifs at h ⊢
  rfl

namespace SignedReveals

/-- Reveals that are signed are counted one by one. -/
lemma events_signFrom {key : PrivateKey} {commitTx : Transaction} {index : ℕ}
    {pairs : List (Transaction × PlannedItem)} {reveals : List Transaction}
    (h : (signFrom key commitTx index pairs).outcome = .ok reveals) :
    (signFrom key commitTx index pairs).events =
      List.replicate pairs.length (.signed .taprootScriptPath) := by
  induction pairs generalizing index reveals with
  | nil => rfl
  | cons pair rest ih =>
      obtain ⟨reveal, item⟩ := pair
      rw [signFrom] at h ⊢
      cases houtput : commitTx.outputs[index]? with
      | none => simp [houtput] at h
      | some output =>
          simp only [houtput, Metered.outcome_bind, bind_eq_ok_iff] at h
          obtain ⟨signed, hsigned, others, hothers, -⟩ := h
          simp only [Metered.bind_of_ok hsigned, Metered.bind_of_ok hothers,
            Transaction.events_signLeaf hsigned, ih hothers, Metered.events_pure,
            List.append_nil, List.length_cons, List.replicate_succ, List.singleton_append]

/-- With an output for each of them, all reveals are signed and counted. The weights are
looked at only then. -/
lemma events_ofCommit {commit : SignedCommit}
    (hreveals : commit.reveals
      = commit.plan.items.zipIdx.map fun entry => blankReveal commit.plan entry.2 entry.1)
    (houtputs : commit.plan.items.length ≤ commit.commitTx.outputs.length) :
    (ofCommit commit).events =
      List.replicate commit.plan.items.length (.signed .taprootScriptPath) := by
  obtain ⟨reveals, hsigned⟩ := exists_signFrom commit.plan commit.commitTx 0 commit.plan.items
    fun i hi => by omega
  rw [← zip_items_of_reveals hreveals] at hsigned
  have hlength : (commit.reveals.zip commit.plan.items).length = commit.plan.items.length := by
    rw [zip_items_of_reveals hreveals, List.length_map, List.length_zipIdx]
  calc (ofCommit commit).events
      = (signFrom commit.plan.revealKey commit.commitTx 0
          (commit.reveals.zip commit.plan.items)).events :=
        -- neither the check of the weights nor the result counts anything
        Metered.events_bind_of_silent fun reveals =>
          Metered.events_bind_of_silent fun _ => Metered.events_pure _
    _ = List.replicate commit.plan.items.length (.signed .taprootScriptPath) := by
        rw [events_signFrom hsigned, hlength]

end SignedReveals

namespace FundedCommit

/-- The steps behind the funding. -/
def finish (funded : FundedCommit) : Metered InscriptionReceipt := do
  let commit ← SignedCommit.ofFunded funded
  let signed ← SignedReveals.ofCommit commit
  liftM signed.toReceipt

variable {plan : InscriptionPlan} {quoted : QuotedReveals} {change : Option Amount}
  {funded : FundedCommit}

/-- They count the inputs of the commit transaction, each under the kind of the lock that
it opens, and then a script for each reveal, whatever the reveals weigh. -/
lemma events_finish {found : List (SpendPath × Satisfaction)} (hquotes : Quotes plan quoted)
    (hfunds : Funds quoted funded change)
    (hfound : funded.commitTx.satisfactions funded.plan.keys funded.plan.lookup = .ok found) :
    funded.finish.events = List.map .signed (List.map (fun entry => entry.1.lockKind) found ++
      List.replicate plan.items.length .taprootScriptPath) := by
  obtain ⟨commit, hcommit⟩ : ∃ commit, (SignedCommit.ofFunded funded).outcome = .ok commit :=
    ⟨_, SignedCommit.ofFunded_eq_ok_iff.mpr
      ⟨_, Transaction.trialSigned_eq_ok_iff.mpr ⟨found, hfound, rfl⟩, rfl⟩⟩
  have hcommitEvents : (SignedCommit.ofFunded funded).events =
      found.map fun entry => .signed entry.1.lockKind := by
    rw [SignedCommit.ofFunded, Metered.events_bind_of_silent fun _ => Metered.events_pure _,
      Transaction.sign_of_satisfactions hfound]
  have hrevealEvents : (SignedReveals.ofCommit commit).events =
      List.replicate plan.items.length (.signed .taprootScriptPath) := by
    rw [SignedReveals.events_ofCommit (SignedCommit.reveals_of_run hquotes hfunds hcommit)
      (SignedReveals.length_items_le_of_run hquotes hfunds hcommit),
      SignedCommit.plan_of_run hquotes hfunds hcommit]
  rw [finish, Metered.bind_of_ok hcommit, Metered.events_bind_of_silent fun _ => rfl,
    hcommitEvents, hrevealEvents, List.map_append, List.map_map, List.map_replicate]
  rfl

/-- The receipt of finished reveals can be written. -/
lemma exists_receipt_of_finishes {commit : SignedCommit} {signed : SignedReveals}
    (hquotes : Quotes plan quoted) (hfunds : Funds quoted funded change)
    (hcommit : (SignedCommit.ofFunded funded).outcome = .ok commit)
    (hfinishes : SignedReveals.Finishes commit signed) :
    ∃ receipt, signed.toReceipt = .ok receipt := by
  have hplan := SignedCommit.plan_of_run hquotes hfunds hcommit
  have houtputs := SignedCommit.outputs_of_ofFunded hcommit
  obtain ⟨receipt, hreceipt, -⟩ := SignedReveals.exists_receipt_of_fees
    (SignedReveals.fees_of_finishes hquotes hfunds hplan houtputs hfinishes)
  exact ⟨receipt, hreceipt⟩

/-- They fail for a weight or not at all. -/
lemma outcome_finish (hquotes : Quotes plan quoted) (hfunds : Funds quoted funded change)
    (hfunded : ofQuoted quoted = .ok funded) :
    (∃ receipt, funded.finish.outcome = .ok receipt) ∨ ∃ index weight,
      funded.finish.outcome = .error (.standardnessViolation index weight maxStandardWeight) := by
  obtain ⟨commit, hcommit⟩ := exists_ofFunded hfunded
  obtain ⟨signed, hfinishes, houtcome⟩ :=
    SignedReveals.exists_finishes_of_run hquotes hfunds hcommit
  obtain ⟨receipt, hreceipt⟩ := exists_receipt_of_finishes hquotes hfunds hcommit hfinishes
  rw [finish, Metered.outcome_bind, bind_of_eq_ok hcommit, Metered.outcome_bind, houtcome]
  cases hcheck : SignedReveals.checkWeights 0 signed.reveals with
  | ok u => exact .inl ⟨receipt, hreceipt⟩
  | error e =>
      obtain ⟨i, weight, -, rfl⟩ := SignedReveals.checkWeights_eq_error_iff.mp hcheck
      exact .inr ⟨0 + i, weight, rfl⟩

end FundedCommit

/-! ### The outputs that pay -/

/-- A value that is in one class at most is found in one class at most. -/
lemma any_eq_decide {α β : Type} [DecidableEq β] {p : β → α → Bool}
    (hp : ∀ a b b', p b a → p b' a = decide (b = b')) {found : Option α} {b : β}
    (h : found.any (p b)) (b' : β) : found.any (p b') = decide (b = b') := by
  cases found with
  | none => cases h
  | some a => exact hp a b b' h

namespace FundingOutput

/-- The address stands for the lock of the output that is spent. -/
def StandsFor (params : ChainParams) (output : FundingOutput) (prevout : TxOut) : Prop :=
  Address.toScript output.address params = .ok prevout.script

/-- The address stands for a lock of a kind. -/
def hasKind (params : ChainParams) (kind : LockKind) (output : FundingOutput) : Bool :=
  (Address.toScript output.address params).toOption.any kind.locks

/-- An output has one kind at most. -/
lemma hasKind_eq {params : ChainParams} {kind : LockKind} {output : FundingOutput}
    (h : output.hasKind params kind) (other : LockKind) :
    output.hasKind params other = decide (kind = other) :=
  any_eq_decide (p := LockKind.locks) (fun _ _ other hlocks => LockKind.locks_eq hlocks other) h
    other

end FundingOutput

namespace InscriptionRequest

/-- The entry that is in force for an output: of several the last. -/
def inForce (request : InscriptionRequest) : OutPoint → Option FundingOutput :=
  OutPoint.Table.get? (request.funding.map fun output => (output.outpoint, output))

/-- The lock of the entry in force for an output has a kind. -/
def paysFrom (request : InscriptionRequest) (params : ChainParams) (kind : LockKind)
    (output : FundingOutput) : Bool :=
  (request.inForce output.outpoint).any (FundingOutput.hasKind params kind)

/-- No output is listed under two addresses. -/
def OneAddress (request : InscriptionRequest) : Prop :=
  ∀ a ∈ request.funding, ∀ b ∈ request.funding, a.outpoint = b.outpoint → a.address = b.address

variable {request : InscriptionRequest} {params : ChainParams}

/-- The entry in force has one kind at most. -/
lemma paysFrom_eq {kind : LockKind} {output : FundingOutput}
    (h : request.paysFrom params kind output) (other : LockKind) :
    request.paysFrom params other output = decide (kind = other) :=
  any_eq_decide (p := FundingOutput.hasKind params)
    (fun _ _ other hkind => FundingOutput.hasKind_eq hkind other) h other

/-- With one address for each output it does not matter which entry is in force. -/
lemma paysFrom_of_oneAddress (h : request.OneAddress) {output : FundingOutput}
    (houtput : output ∈ request.funding) (kind : LockKind) :
    request.paysFrom params kind output = output.hasKind params kind := by
  have hlisted : (output.outpoint, output) ∈ request.funding.map fun o => (o.outpoint, o) :=
    List.mem_map_of_mem houtput
  obtain ⟨paying, hforce, hmem⟩ := OutPoint.Table.exists_get?_of_mem hlisted
  obtain ⟨_, hpaying, hentry⟩ := List.mem_map.mp hmem
  obtain ⟨houtpoint, rfl⟩ := Prod.mk.inj hentry
  rw [paysFrom, inForce, hforce, Option.any_some, FundingOutput.hasKind, FundingOutput.hasKind,
    h _ hpaying output houtput houtpoint]

/-- What a plan finds for an output is what the entry in force resolves to. -/
lemma exists_inForce_of_lookup {plan : InscriptionPlan}
    (hresolves : InscriptionPlan.Resolves request params plan) {outpoint : OutPoint}
    {prevout : TxOut} (h : plan.lookup outpoint = some prevout) :
    ∃ paying, request.inForce outpoint = some paying ∧ paying.StandsFor params prevout := by
  refine OutPoint.Table.exists_get?_of_forall₂ (List.forall₂_map_left_iff.mpr
    (List.forall₂_map_right_iff.mpr (hresolves.funding.imp fun output input hinput => ?_))) h
  obtain ⟨script, key, hscript, -, rfl⟩ := InscriptionPlan.fundingInput_eq_ok_iff.mp hinput
  exact ⟨rfl, hscript⟩

/-! ### What a run signs for -/

/-- The locks that are opened once everything is signed: that of the entry in force for
each output that pays, and a script for each inscription. -/
def Opens (request : InscriptionRequest) (params : ChainParams) (kinds : List LockKind) : Prop :=
  ∃ own, List.Forall₂ (fun output kind => request.paysFrom params kind output)
      request.funding own ∧
    kinds = own ++ List.replicate request.inscriptions.length .taprootScriptPath

/-- The locks that a funded commit transaction opens. -/
lemma paysFrom_of_satisfactions {plan : InscriptionPlan} {quoted : QuotedReveals}
    {change : Option Amount} {funded : FundedCommit} {found : List (SpendPath × Satisfaction)}
    (hresolves : InscriptionPlan.Resolves request params plan) (hquotes : Quotes plan quoted)
    (hfunds : Funds quoted funded change)
    (hfound : funded.commitTx.satisfactions funded.plan.keys funded.plan.lookup = .ok found) :
    List.Forall₂ (fun output kind => request.paysFrom params kind output) request.funding
      (found.map fun entry => entry.1.lockKind) := by
  obtain ⟨prevouts, hprevouts, hlocks⟩ := Transaction.exists_prevouts_of_satisfactions hfound
  have hplan : funded.plan = plan := hfunds.plan_eq.trans hquotes.plan_eq
  have hlookups : request.funding.map (fun output => plan.lookup output.outpoint)
      = prevouts.map some :=
    calc request.funding.map (fun output => plan.lookup output.outpoint)
        = (request.funding.map FundingOutput.outpoint).map plan.lookup := by
          rw [List.map_map]
          rfl
      _ = (plan.funding.map FundingInput.outpoint).map plan.lookup := by
          rw [hresolves.outpoints_eq]
      _ = funded.commitTx.inputs.map fun input => funded.plan.lookup input.previous := by
          rw [hplan, hfunds.commitTx_eq, FundedCommit.commitWith, hquotes.plan_eq, List.map_map,
            List.map_map]
          rfl
      _ = prevouts.map some := hprevouts
  have hspent := forall₂_image_iff.mpr hlookups
  rw [List.forall₂_map_right_iff]
  refine forall₂_of_getElem? (hspent.length_eq.trans hlocks.length_eq) ?_
  -- each input opens the lock that is found for its output, which is that of the entry in force
  intro i output entry houtput hentry
  obtain ⟨prevout, hprevout, hlookup⟩ := exists_getElem?_of_forall₂ hspent houtput
  obtain ⟨paying, hforce, hscript⟩ := exists_inForce_of_lookup hresolves hlookup
  rw [FundingOutput.StandsFor] at hscript
  rw [paysFrom, hforce, Option.any_some, FundingOutput.hasKind, hscript]
  exact rel_of_forall₂ hlocks hprevout hentry

/-- The exits of a run, each with the locks that it has opened. -/
inductive Exit (request : InscriptionRequest) (params : ChainParams) :
    Except TxError InscriptionReceipt → List LockKind → Prop where
  | unfunded {e : TxError} (h : e.failureKind ≠ .standardness) : Exit request params (.error e) []
  | heavy {index weight : ℕ} {kinds : List LockKind} (h : request.Opens params kinds) :
      Exit request params (.error (.standardnessViolation index weight maxStandardWeight)) kinds
  | finished {receipt : InscriptionReceipt} {kinds : List LockKind}
      (h : request.Opens params kinds) : Exit request params (.ok receipt) kinds

/-- A run is its funding and the steps behind it. -/
lemma inscribeUncounted_eq (request : InscriptionRequest) (params : ChainParams) :
    inscribeUncounted request params =
      (liftM (request.fund params) : Metered FundedCommit) >>= FundedCommit.finish := by
  simp only [fund, Metered.liftM_bind, bind_assoc]
  rfl

/-- Counting how a run ends leaves its outcome as it is. -/
lemma outcome_inscribe (request : InscriptionRequest) (params : ChainParams) :
    (inscribe request params).outcome = (inscribeUncounted request params).outcome :=
  rfl

/-- Every run takes one of the exits, and its events are the inputs signed by then. -/
lemma exists_exit (request : InscriptionRequest) (params : ChainParams) :
    ∃ kinds, (inscribeUncounted request params).events = kinds.map .signed ∧
      request.Exit params (inscribe request params).outcome kinds := by
  rw [outcome_inscribe, inscribeUncounted_eq]
  cases hfund : request.fund params with
  | error e =>
      -- copies may have been signed for the fee, but that is not counted
      exact ⟨[], rfl, .unfunded (request.ignoresWeight_fund params e hfund)⟩
  | ok funded =>
      simp only [fund, bind_eq_ok_iff] at hfund
      obtain ⟨plan, hplan, quoted, hquoted, hfunded⟩ := hfund
      have hresolves := InscriptionPlan.resolves_of_ofRequest hplan
      have hquotes := QuotedReveals.quotes_of_ofPlan hquoted
      obtain ⟨change, hfunds⟩ := FundedCommit.funds_of_ofQuoted hfunded
      obtain ⟨commit, hcommit⟩ := FundedCommit.exists_ofFunded hfunded
      obtain ⟨t, hsigned, -⟩ := SignedCommit.ofFunded_eq_ok_iff.mp hcommit
      obtain ⟨found, hfound, -⟩ := Transaction.trialSigned_eq_ok_iff.mp hsigned
      have hopens : request.Opens params (List.map (fun entry => entry.1.lockKind) found ++
          List.replicate plan.items.length .taprootScriptPath) :=
        ⟨_, paysFrom_of_satisfactions hresolves hquotes hfunds hfound,
          by rw [hresolves.items.length_eq]⟩
      refine ⟨_, FundedCommit.events_finish hquotes hfunds hfound, ?_⟩
      show request.Exit params funded.finish.outcome _
      rcases FundedCommit.outcome_finish hquotes hfunds hfunded with ⟨receipt, h⟩ | ⟨i, weight, h⟩
      · exact h ▸ .finished hopens
      · exact h ▸ .heavy hopens

end InscriptionRequest

end CoinSpend
