import CoinSpend.Proofs.Inscription.Envelope
import CoinSpend.Proofs.Taproot

/-!
Which envelopes can be run.

* `Script.PushesFit`: the instructions of a script are complete and none of them
  pushes more than 520 bytes.
* `Envelope.length_le_of_push`: in an envelope this is so of every push but that of
  the content type, which is not cut.
* `Envelope.pushesFit_script_iff`: hence an envelope can be run if and only if its
  content type fits one push.
* `EnvelopeOutput.pushesFit_of_short_type`: so it is with every envelope that is
  made, and with every envelope that a funded commit transaction commits to.
* `EnvelopeOutput.exists_large_push_of_long_type`: nothing refuses a longer content
  type, and an output is funded whose envelope cannot be run.
-/

namespace CoinSpend

open Envelope (maxElementSize)

/-- The script consists of complete instructions and pushes at most 520 bytes at a
time. A larger push fails wherever it stands, in a branch that is not taken too. -/
def Script.PushesFit (script : Script) : Prop :=
  ∃ instructions, script.instructions? = some instructions ∧
    ∀ data, Instruction.push data ∈ instructions → data.length ≤ maxElementSize

namespace Envelope

variable {inscription : Inscription} {key : XOnlyKey}

/-- Beside the content type no push of an envelope is too large. -/
lemma length_le_of_push {contentType : String} {body data : Bytes}
    (h : .push data ∈ instructions key contentType (chunks body)) :
    data.length ≤ maxElementSize ∨ data = contentType.toUTF8.data.toList := by
  simp only [instructions, List.cons_append, List.nil_append, List.mem_cons, List.mem_append,
    List.mem_map, Instruction.push.injEq, exists_eq_right, List.not_mem_nil, reduceCtorEq, or_false,
    false_or] at h
  rcases h with rfl | rfl | rfl | rfl | rfl | rfl | hpiece
  · exact .inl (by rw [key.length_eq]; decide)
  · exact .inl (by decide)
  · exact .inl (by decide)
  · exact .inl (by decide)
  · exact .inr rfl
  · exact .inl (by decide)
  · exact .inl ((cuts_chunks body).length_le data hpiece)

/-- The content type is pushed in one piece. -/
lemma push_contentType_mem (key : XOnlyKey) (contentType : String) (cut : List Bytes) :
    .push contentType.toUTF8.data.toList ∈ instructions key contentType cut := by
  simp [instructions]

/-- **An envelope can be run if and only if its content type fits one push.** -/
lemma pushesFit_script_iff (h : inscription.contentType.utf8ByteSize ≤ Script.maxPush) :
    (script inscription key).PushesFit ↔
      inscription.contentType.utf8ByteSize ≤ maxElementSize := by
  have hread := instructions?_script key h
  have hlength : inscription.contentType.toUTF8.data.toList.length
      = inscription.contentType.utf8ByteSize := rfl
  constructor
  · rintro ⟨found, hfound, hfit⟩
    obtain rfl := Option.some.inj (hread.symm.trans hfound)
    rw [← hlength]
    exact hfit _ (push_contentType_mem key _ _)
  · refine fun hfit => ⟨_, hread, fun data hdata => ?_⟩
    rcases length_le_of_push hdata with hle | rfl
    · exact hle
    · exact hlength ▸ hfit

end Envelope

/-- In a funded commit transaction the output at the position of an inscription is
opened by the envelope of the inscription. -/
lemma FundedCommit.exists_opened_output {request : InscriptionRequest} {params : ChainParams}
    {plan : InscriptionPlan} {quoted : QuotedReveals} {funded : FundedCommit}
    (hplan : InscriptionPlan.IsPlanFor request params plan)
    (hquoted : QuotedReveals.ofPlan plan = .ok quoted) (hfunded : ofQuoted quoted = .ok funded)
    {i : ℕ} {inscription : Inscription} (hi : request.inscriptions[i]? = some inscription) :
    ∃ item output, plan.items[i]? = some item ∧
      item.Carries params plan.revealKey.xOnly inscription ∧
      funded.commitTx.outputs[i]? = some output ∧
      Taproot.Opens item.output.controlBlock.encode item.output.envelope output.script := by
  obtain ⟨change, hfunds⟩ := funds_of_ofQuoted hfunded
  obtain ⟨item, hitem, hcarries⟩ := exists_getElem?_of_forall₂ hplan.resolves.items hi
  obtain ⟨quote, -, -, houtput⟩ :=
    exists_output_of_item (QuotedReveals.quotes_of_ofPlan hquoted) change hitem
  refine ⟨item, _, hitem, hcarries, hfunds.commitTx_eq ▸ houtput, ?_⟩
  rw [hcarries.controlBlock, hcarries.lockScript]
  exact Taproot.opens_single plan.revealKey.lifts_xOnly _

namespace EnvelopeOutput

/-- **An envelope can be run if the content type fits one push**, and only then. This is
said of every envelope that is made of the inscription. Where a request has the
inscription, and the content type fits, the output at its position in the funded commit
transaction is opened by an envelope that can be run. -/
theorem pushesFit_of_short_type (inscription : Inscription) :
    (∀ (key : XOnlyKey) (params : ChainParams) (output : EnvelopeOutput),
      ofInscription inscription key params = .ok output →
      (output.envelope.PushesFit ↔
        inscription.contentType.utf8ByteSize ≤ maxElementSize)) ∧
    ∀ (request : InscriptionRequest) (params : ChainParams) (plan : InscriptionPlan)
      (quoted : QuotedReveals) (funded : FundedCommit),
      InscriptionPlan.IsPlanFor request params plan → QuotedReveals.ofPlan plan = .ok quoted →
      FundedCommit.ofQuoted quoted = .ok funded →
      ∀ i : ℕ, request.inscriptions[i]? = some inscription →
        inscription.contentType.utf8ByteSize ≤ maxElementSize →
        ∃ item output, plan.items[i]? = some item ∧ funded.commitTx.outputs[i]? = some output ∧
          Taproot.Opens item.output.controlBlock.encode item.output.envelope output.script ∧
          item.output.envelope.PushesFit := by
  refine ⟨fun key params output h => ?_,
    fun request params plan quoted funded hplan hquoted hfunded i hi htype => ?_⟩
  · obtain ⟨henvelope, htype⟩ := envelope_of_ofInscription h
    rw [henvelope, Envelope.pushesFit_script_iff htype]
  · obtain ⟨item, output, hitem, hcarries, houtput, hopens⟩ :=
      FundedCommit.exists_opened_output hplan hquoted hfunded hi
    refine ⟨item, output, hitem, houtput, hopens, ?_⟩
    rw [hcarries.envelope, Envelope.pushesFit_script_iff (Nat.le_trans htype (by decide))]
    exact htype

/-- The second inscription of a request for two, by itself and in the funded commit
transaction. -/
theorem pushesFit_of_short_type_sample :
    (∃ output, ofInscription sampleInscription (.ofNat 1) Chain.bitcoinRegtest.params
        = .ok output ∧ output.envelope.PushesFit) ∧
    ∃ plan quoted funded item output,
      InscriptionPlan.IsPlanFor sampleRequest Chain.bitcoinRegtest.params plan ∧
      QuotedReveals.ofPlan plan = .ok quoted ∧ FundedCommit.ofQuoted quoted = .ok funded ∧
      plan.items[1]? = some item ∧ funded.commitTx.outputs[1]? = some output ∧
      Taproot.Opens item.output.controlBlock.encode item.output.envelope output.script ∧
      item.output.envelope.PushesFit := by
  constructor
  · have hmade : (ofInscription sampleInscription (.ofNat 1)
        Chain.bitcoinRegtest.params).toOption.isSome := by decide +kernel
    obtain ⟨output, houtput⟩ := exists_eq_ok_of_isSome hmade
    exact ⟨output, houtput, ((pushesFit_of_short_type _).1 _ _ _ houtput).mpr (by decide)⟩
  · obtain ⟨plan, quoted, funded, _, _, hplan, hquoted, hfunded, -⟩ := exists_run_sampleRequest
    obtain ⟨item, output, hitem, houtput, hopens, hfit⟩ :=
      (pushesFit_of_short_type sampleInscription).2 _ _ _ _ _ (.inl hplan) hquoted hfunded 1 rfl
        (by decide)
    exact ⟨plan, quoted, funded, item, output, .inl hplan, hquoted, hfunded, hitem, houtput,
      hopens, hfit⟩

/-- An inscription whose content type has 521 letters. -/
def longTypeInscription : Inscription :=
  ⟨String.ofList (List.replicate 521 'a'), [], sampleAddress⟩

/-- A request for it. -/
def longTypeRequest : InscriptionRequest :=
  { sampleRequest with inscriptions := [longTypeInscription] }

/-- **A content type that fits no push is not refused.** The request is funded, and the
envelope that opens the output made for it pushes 521 bytes at once. -/
theorem exists_large_push_of_long_type :
    ∃ plan quoted funded item output instructions data,
      InscriptionPlan.ofRequest longTypeRequest Chain.bitcoinRegtest.params = .ok plan ∧
      QuotedReveals.ofPlan plan = .ok quoted ∧ FundedCommit.ofQuoted quoted = .ok funded ∧
      plan.items[0]? = some item ∧ funded.commitTx.outputs[0]? = some output ∧
      Taproot.Opens item.output.controlBlock.encode item.output.envelope output.script ∧
      item.output.envelope.instructions? = some instructions ∧
      Instruction.push data ∈ instructions ∧ data.length = 521 := by
  have hrun : ((do
      let plan ← InscriptionPlan.ofRequest longTypeRequest Chain.bitcoinRegtest.params
      let quoted ← QuotedReveals.ofPlan plan
      FundedCommit.ofQuoted quoted : Except TxError FundedCommit)).toOption.isSome := by
    decide +kernel
  obtain ⟨funded, hfunded⟩ := exists_eq_ok_of_isSome hrun
  simp only [bind_eq_ok_iff] at hfunded
  obtain ⟨plan, hplan, quoted, hquoted, hfunded⟩ := hfunded
  obtain ⟨item, output, hitem, hcarries, houtput, hopens⟩ :=
    FundedCommit.exists_opened_output (.inl hplan) hquoted hfunded (i := 0) rfl
  have htype : longTypeInscription.contentType.utf8ByteSize ≤ Script.maxPush := by
    decide +kernel
  have hread := Envelope.instructions?_script plan.revealKey.xOnly htype
  rw [← hcarries.envelope] at hread
  exact ⟨plan, quoted, funded, item, output, _, _, hplan, hquoted, hfunded, hitem, houtput,
    hopens, hread, Envelope.push_contentType_mem _ _ _, by decide +kernel⟩

end EnvelopeOutput

end CoinSpend
