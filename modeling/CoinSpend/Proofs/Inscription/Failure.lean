import CoinSpend.Inscription.Inscribe
import CoinSpend.Proofs.Inscription.Quote
import CoinSpend.Proofs.Signing.Refusal

/-!
What stops an inscription before it is funded.

* `InscriptionRequest.fund`: the steps from a request to its funded commit
  transaction.
* `IgnoresWeight`: a step that may fail, but not for the weight of a transaction.
* `InscriptionRequest.ignoresWeight_fund`: none of these steps fails for a weight, as
  only finished reveals are weighed.
-/

namespace CoinSpend

/-- The funded commit transaction of a request. -/
def InscriptionRequest.fund (request : InscriptionRequest) (params : ChainParams) :
    Except TxError FundedCommit := do
  let plan ← InscriptionPlan.ofRequest request params
  let quoted ← QuotedReveals.ofPlan plan
  FundedCommit.ofQuoted quoted

/-- A step that does not fail for the weight of a transaction. -/
def IgnoresWeight {α : Type} (x : Except TxError α) : Prop :=
  ∀ e, x = .error e → e.failureKind ≠ .standardness

/-! ### Steps in a row -/

namespace IgnoresWeight

variable {α β : Type}

lemma ok (a : α) : IgnoresWeight (.ok a) := by
  rintro _ ⟨⟩

lemma other {e : TxError} (h : e.failureKind = .other) :
    IgnoresWeight (.error e : Except TxError α) := by
  rintro _ ⟨⟩
  rw [h]
  nofun

lemma bind {x : Except TxError α} {f : α → Except TxError β} (hx : IgnoresWeight x)
    (hf : ∀ a, IgnoresWeight (f a)) : IgnoresWeight (x >>= f) := by
  intro e he
  obtain h | ⟨a, -, h⟩ := bind_eq_error_iff.mp he
  · exact hx e h
  · exact hf a e h

lemma mapM {f : α → Except TxError β} (hf : ∀ a, IgnoresWeight (f a)) (xs : List α) :
    IgnoresWeight (xs.mapM f) := by
  induction xs with
  | nil => exact ok []
  | cons x xs ih =>
      rw [List.mapM_cons]
      exact (hf x).bind fun y => ih.bind fun ys => ok (y :: ys)

end IgnoresWeight

/-! ### What a request names -/

namespace Address

lemma ignoresWeight_scriptOfBase58 (text : String) (params : ChainParams) :
    IgnoresWeight (scriptOfBase58 text params) := by
  rw [scriptOfBase58]
  match Base58.decodeCheck text with
  | .error fault => exact .other rfl
  | .ok [] => exact .other rfl
  | .ok (version :: hash) =>
      dsimp only
      split_ifs with hlength hkey hscript
      · exact .other rfl
      · exact .ok _
      · exact .ok _
      · exact .other rfl

lemma ignoresWeight_scriptOfSegwit (text hrp : String) :
    IgnoresWeight (scriptOfSegwit text hrp) := by
  rw [scriptOfSegwit]
  cases Bech32.decode? text with
  | none => exact .other rfl
  | some decoded =>
      dsimp only
      split_ifs with hprefix
      · exact .other rfl
      · exact .ok _

lemma ignoresWeight_toScript (text : String) (params : ChainParams) :
    IgnoresWeight (toScript text params) := by
  rw [toScript]
  cases params.hrp with
  | none => exact ignoresWeight_scriptOfBase58 text params
  | some hrp =>
      dsimp only
      split_ifs
      · cases hsegwit : scriptOfSegwit text hrp with
        | ok script => exact .ok script
        | error e =>
            have hfault : IgnoresWeight (.error e : Except TxError Script) :=
              hsegwit ▸ ignoresWeight_scriptOfSegwit text hrp
            cases scriptOfBase58 text params with
            | ok script => exact .ok script
            | error _ => exact hfault
      · exact ignoresWeight_scriptOfBase58 text params

lemma ignoresWeight_ofWitnessProgram (script : Script) (params : ChainParams) :
    IgnoresWeight (ofWitnessProgram script params) := by
  rw [ofWitnessProgram]
  cases params.hrp with
  | none => exact .other rfl
  | some hrp =>
      cases script.witnessVersion? with
      | none => exact .other rfl
      | some version =>
          cases hencode : Bech32.encode? hrp version (script.drop 2) with
          | none =>
              simp only [hencode]
              exact .other rfl
          | some address =>
              simp only [hencode]
              exact .ok address

end Address

namespace PrivateKey

lemma ignoresWeight_ofSecretBytes (b : Bytes) (compressed : Bool) (params : ChainParams) :
    IgnoresWeight (ofSecretBytes b compressed params) := by
  rw [ofSecretBytes]
  cases SecretKey.ofBytes? b with
  | none => exact .other rfl
  | some secret => exact .ok _

lemma ignoresWeight_ofPayload (payload : Bytes) (params : ChainParams) :
    IgnoresWeight (ofPayload payload params) := by
  rw [ofPayload]
  cases payloadForm? payload with
  | none => exact .other rfl
  | some compressed =>
      dsimp only
      split_ifs with hversion
      · exact .other rfl
      · exact ignoresWeight_ofSecretBytes _ compressed params

lemma ignoresWeight_ofText (text : String) (params : ChainParams) :
    IgnoresWeight (ofText text params) := by
  rw [ofText]
  split_ifs with hhex
  · cases Hex.decode (Hex.stripMark (trimBlanks text)) with
    | error fault => exact .other rfl
    | ok b => exact ignoresWeight_ofSecretBytes b true params
  · cases Base58.decodeCheck (Hex.stripMark (trimBlanks text)) with
    | error fault => exact .other rfl
    | ok payload => exact ignoresWeight_ofPayload payload params

end PrivateKey

lemma EnvelopeOutput.ignoresWeight_ofInscription (inscription : Inscription) (key : XOnlyKey)
    (params : ChainParams) : IgnoresWeight (ofInscription inscription key params) := by
  simp only [ofInscription]
  split_ifs
  · exact .other rfl
  · exact (Address.ignoresWeight_ofWitnessProgram _ params).bind fun _ => .ok _

namespace InscriptionPlan

lemma ignoresWeight_fundingInput (params : ChainParams) (output : FundingOutput) :
    IgnoresWeight (fundingInput params output) :=
  (Address.ignoresWeight_toScript _ params).bind fun _ =>
    (PrivateKey.ignoresWeight_ofText _ params).bind fun _ => .ok _

lemma ignoresWeight_plannedItem (params : ChainParams) (key : XOnlyKey)
    (inscription : Inscription) : IgnoresWeight (plannedItem params key inscription) :=
  (EnvelopeOutput.ignoresWeight_ofInscription inscription key params).bind fun _ =>
    (Address.ignoresWeight_toScript _ params).bind fun _ => .ok _

/-- Nothing that a request names is refused for a weight. -/
lemma ignoresWeight_ofRequest (request : InscriptionRequest) (params : ChainParams) :
    IgnoresWeight (ofRequest request params) := by
  rw [ofRequest]
  split_ifs
  · exact .other rfl
  · refine (IgnoresWeight.mapM (ignoresWeight_fundingInput params) _).bind fun funding => ?_
    cases funding with
    | nil => exact .other rfl
    | cons first rest =>
        exact (IgnoresWeight.mapM (ignoresWeight_plannedItem params _) _).bind fun _ =>
          (Address.ignoresWeight_toScript _ params).bind fun _ => .ok _

end InscriptionPlan

/-! ### Quotes and fees -/

lemma Amount.ignoresWeight_checked (n : ℕ) : IgnoresWeight (checked n) := by
  intro e he
  obtain ⟨-, rfl⟩ := checked_eq_error_iff.mp he
  nofun

namespace QuotedReveals

lemma ignoresWeight_quoteFrom (plan : InscriptionPlan) (index : ℕ) (items : List PlannedItem) :
    IgnoresWeight (quoteFrom plan index items) := by
  induction items generalizing index with
  | nil => exact .ok []
  | cons item rest ih =>
      have hquote : IgnoresWeight (RevealQuote.ofReveal (blankReveal plan index item)
          item.output.envelope plan.revealValue plan.revealFeeRate) := by
        intro e he
        obtain ⟨-, rfl⟩ := RevealQuote.ofReveal_eq_error_iff.mp he
        nofun
      rw [quoteFrom]
      split_ifs
      · exact .other rfl
      · exact hquote.bind fun _ => (ih (index + 1)).bind fun _ => .ok _

/-- The size that a reveal is quoted for is not weighed. -/
lemma ignoresWeight_ofPlan (plan : InscriptionPlan) : IgnoresWeight (ofPlan plan) :=
  (ignoresWeight_quoteFrom plan 0 plan.items).bind fun _ => .ok _

end QuotedReveals

namespace Transaction

lemma ignoresWeight_trialSigned (tx : Transaction) (keys : List PrivateKey) (lookup : Lookup) :
    IgnoresWeight (tx.trialSigned keys lookup) := by
  refine IgnoresWeight.bind (fun e he => ?_) fun _ => .ok _
  cases satisfactions_eq_error_iff.mp he with
  | fewKeys => nofun
  | unknownOutput => nofun
  | lock _ _ _ hcause => cases hcause <;> nofun

lemma ignoresWeight_inputCosts (view : ScriptView) (index : ℕ) (inputs : List TxIn) :
    IgnoresWeight (inputCosts view index inputs) := by
  induction inputs generalizing index with
  | nil => exact .ok 0
  | cons input rest ih =>
      rw [inputCosts]
      cases view.get? input.previous with
      | none => exact .other rfl
      | some script => exact (ih (index + 1)).bind fun _ => .ok _

lemma ignoresWeight_effectiveSize (tx : Transaction) (view : ScriptView) :
    IgnoresWeight (tx.effectiveSize view) := by
  rw [effectiveSize]
  split_ifs
  · exact .ok _
  · exact IgnoresWeight.bind ((ignoresWeight_inputCosts view 0 tx.inputs).bind fun _ => .ok _)
      fun _ => .ok _

end Transaction

namespace FundedCommit

lemma ignoresWeight_trialFee (plan : InscriptionPlan) (commitTx : Transaction) :
    IgnoresWeight (trialFee plan commitTx) :=
  (Transaction.ignoresWeight_trialSigned commitTx plan.keys plan.lookup).bind fun signed =>
    (Transaction.ignoresWeight_effectiveSize signed plan.scriptView).bind fun _ =>
      Amount.ignoresWeight_checked _

lemma ignoresWeight_ensureCovered (quoted : QuotedReveals) (totalIn totalLocked fee : Amount) :
    IgnoresWeight (ensureCovered quoted totalIn totalLocked fee) := by
  refine (ignoresWeight_trialFee quoted.plan _).bind fun _ =>
    (Amount.ignoresWeight_checked _).bind fun required => ?_
  split_ifs
  · rintro _ ⟨⟩
    nofun
  · exact .ok ()

/-- The commit transaction is not weighed. -/
lemma ignoresWeight_ofQuoted (quoted : QuotedReveals) : IgnoresWeight (ofQuoted quoted) := by
  refine (Amount.ignoresWeight_checked _).bind fun totalIn =>
    (Amount.ignoresWeight_checked _).bind fun totalLocked =>
      (ignoresWeight_trialFee quoted.plan _).bind fun fee => ?_
  dsimp only
  split_ifs
  · exact .ok _
  · exact .ok _
  · exact (ignoresWeight_ensureCovered quoted totalIn totalLocked fee).bind fun _ => .ok _

end FundedCommit

/-- **No weight stops an inscription before it is funded.** -/
lemma InscriptionRequest.ignoresWeight_fund (request : InscriptionRequest) (params : ChainParams) :
    IgnoresWeight (request.fund params) :=
  (InscriptionPlan.ignoresWeight_ofRequest request params).bind fun plan =>
    (QuotedReveals.ignoresWeight_ofPlan plan).bind FundedCommit.ignoresWeight_ofQuoted

end CoinSpend
