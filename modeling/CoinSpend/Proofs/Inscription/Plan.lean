import CoinSpend.Inscription.Plan
import CoinSpend.Proofs.Outcome

/-!
What the plan of a request holds.

* `InscriptionPlan.Resolves`: every paying output and every inscription of a
  request is resolved, in the order of the request; the key of the first paying
  output signs the reveals; the values that have a default are not zero.
* `InscriptionPlan.resolves_of_ofRequest`, `InscriptionPlan.resolves_of_ofConfig`:
  this is so for the plan of a request on a chain, and for the plan of a request
  under a configuration.
* `InscriptionPlan.IsPlanFor`: a plan made in one of these two ways.
* `PlannedItem.Carries`: what an item of a plan holds.
-/

namespace CoinSpend

/-- A value that is not set or zero gives way to its default, which is not
zero. -/
lemma nonzero?_getD_pos {value : Option Amount} {default : Amount} (h : 0 < default.toNat) :
    0 < ((nonzero? value).getD default).toNat := by
  cases value with
  | none => exact h
  | some a =>
      by_cases ha : a = 0
      · simpa [nonzero?, ha] using h
      · have hne : a.toNat ≠ 0 := fun h0 => ha (UInt64.toNat_inj.mp h0)
        simp only [nonzero?, if_neg ha, Option.getD_some]
        omega

/-- The envelope of an inscription for the holder of a key, in an output that
commits to it and to nothing else, and the script that receives it. -/
structure PlannedItem.Carries (params : ChainParams) (key : XOnlyKey) (inscription : Inscription)
    (item : PlannedItem) : Prop where
  envelope : item.output.envelope = Envelope.script inscription key
  lockScript : item.output.lockScript
    = Script.p2tr (key.commit (some (Taproot.leafHash item.output.envelope))).key.bytes
  controlBlock : item.output.controlBlock
    = .single key (key.commit (some (Taproot.leafHash item.output.envelope)))
  receiver : Address.toScript inscription.receiver params = .ok item.receiverScript

namespace InscriptionPlan

/-- A paying output is resolved if its address and its key are. -/
lemma fundingInput_eq_ok_iff {params : ChainParams} {output : FundingOutput}
    {input : FundingInput} :
    fundingInput params output = .ok input ↔ ∃ script key,
      Address.toScript output.address params = .ok script ∧
        PrivateKey.ofText output.privateKey params = .ok key ∧
        ⟨output.outpoint, ⟨output.amount, script⟩, key⟩ = input := by
  simp only [fundingInput, bind_eq_ok_iff, pure_eq_ok_iff]
  exact ⟨fun ⟨script, hscript, key, hkey, h⟩ => ⟨script, key, hscript, hkey, h⟩,
    fun ⟨script, key, hscript, hkey, h⟩ => ⟨script, hscript, key, hkey, h⟩⟩

/-- The item that an inscription is planned as carries it. -/
lemma carries_of_plannedItem {params : ChainParams} {key : XOnlyKey} {inscription : Inscription}
    {item : PlannedItem} (h : plannedItem params key inscription = .ok item) :
    item.Carries params key inscription := by
  simp only [plannedItem, bind_eq_ok_iff, pure_eq_ok_iff] at h
  obtain ⟨output, houtput, receiverScript, hreceiver, rfl⟩ := h
  rw [EnvelopeOutput.ofInscription] at houtput
  split_ifs at houtput
  simp only [bind_eq_ok_iff, pure_eq_ok_iff] at houtput
  obtain ⟨address, -, rfl⟩ := houtput
  exact ⟨rfl, rfl, rfl, hreceiver⟩

/-- A plan with everything that a request names resolved on a chain. -/
structure Resolves (request : InscriptionRequest) (params : ChainParams)
    (plan : InscriptionPlan) : Prop where
  funding : List.Forall₂ (fun output input => fundingInput params output = .ok input)
    request.funding plan.funding
  items : List.Forall₂ (PlannedItem.Carries params plan.revealKey.xOnly)
    request.inscriptions plan.items
  revealKey : plan.funding.head?.map FundingInput.key = some plan.revealKey
  changeScript : Address.toScript request.changeAddress params = .ok plan.changeScript
  items_ne_nil : plan.items ≠ []
  revealValue_pos : 0 < plan.revealValue.toNat
  minChange_pos : 0 < plan.minChange.toNat
  commitFeeRate : plan.commitFeeRate = request.commitFeeRate
  revealFeeRate : plan.revealFeeRate = request.revealFeeRate

/-- The plan of a request on a chain. -/
lemma resolves_of_ofRequest {request : InscriptionRequest} {params : ChainParams}
    {plan : InscriptionPlan} (h : ofRequest request params = .ok plan) :
    Resolves request params plan := by
  rw [ofRequest] at h
  split_ifs at h with hempty
  · cases h
  simp only [bind_eq_ok_iff] at h
  obtain ⟨funding, hfunding, h⟩ := h
  cases funding with
  | nil => cases h
  | cons first rest =>
      simp only [bind_eq_ok_iff, pure_eq_ok_iff] at h
      obtain ⟨items, hitems, changeScript, hchange, rfl⟩ := h
      have hcarries := (mapM_eq_ok_iff.mp hitems).imp fun _ _ => carries_of_plannedItem
      have hne : items ≠ [] := by
        rintro rfl
        rw [List.forall₂_nil_right_iff] at hcarries
        simp [hcarries] at hempty
      exact ⟨mapM_eq_ok_iff.mp hfunding, hcarries, rfl, hchange, hne,
        nonzero?_getD_pos (by decide), nonzero?_getD_pos (by decide), rfl, rfl⟩

/-- The plan of a request under a configuration. -/
lemma resolves_of_ofConfig {request : InscriptionRequest} {config : Config}
    {params : ChainParams} {plan : InscriptionPlan} (hparams : config.params = .ok params)
    (h : ofConfig request config = .ok plan) : Resolves request params plan := by
  simp only [ofConfig, hparams, bind_eq_ok_iff, pure_eq_ok_iff, Except.ok.injEq] at h
  obtain ⟨_, rfl, base, hbase, rfl⟩ := h
  obtain ⟨hfunding, hitems, hkey, hchange, hne, -, -, hcommit, hreveal⟩ :=
    resolves_of_ofRequest hbase
  have hdefault : ∀ value : Option Amount, 0 < ((nonzero? value).getD defaultValue).toNat :=
    fun _ => nonzero?_getD_pos (by decide)
  exact ⟨hfunding, hitems, hkey, hchange, hne, nonzero?_getD_pos (hdefault _),
    nonzero?_getD_pos (hdefault _), hcommit, hreveal⟩

/-- The funds of a plan are the amounts of the request. -/
lemma Resolves.amounts_eq {request : InscriptionRequest} {params : ChainParams}
    {plan : InscriptionPlan} (h : Resolves request params plan) :
    plan.amounts = request.funding.map FundingOutput.amount := by
  refine (forall₂_image_iff.mp (h.funding.imp fun output input hinput => ?_)).symm
  obtain ⟨script, key, -, -, rfl⟩ := fundingInput_eq_ok_iff.mp hinput
  rfl

/-- What a plan spends is what the request lists. -/
lemma Resolves.outpoints_eq {request : InscriptionRequest} {params : ChainParams}
    {plan : InscriptionPlan} (h : Resolves request params plan) :
    request.funding.map FundingOutput.outpoint = plan.funding.map FundingInput.outpoint := by
  refine forall₂_image_iff.mp (h.funding.imp fun output input hinput => ?_)
  obtain ⟨script, key, -, -, rfl⟩ := fundingInput_eq_ok_iff.mp hinput
  rfl

/-- A plan made for a request on a chain, by itself or under a configuration
that names the chain. -/
def IsPlanFor (request : InscriptionRequest) (params : ChainParams) (plan : InscriptionPlan) :
    Prop :=
  ofRequest request params = .ok plan ∨
    ∃ config : Config, config.params = .ok params ∧ ofConfig request config = .ok plan

lemma IsPlanFor.resolves {request : InscriptionRequest} {params : ChainParams}
    {plan : InscriptionPlan} (h : IsPlanFor request params plan) :
    Resolves request params plan := by
  rcases h with h | ⟨config, hparams, h⟩
  · exact resolves_of_ofRequest h
  · exact resolves_of_ofConfig hparams h

end InscriptionPlan

end CoinSpend
