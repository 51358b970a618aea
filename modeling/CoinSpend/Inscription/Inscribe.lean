import CoinSpend.Inscription.Reveal

/-!
From the request of an inscription to its finished transactions.

* `InscriptionReceipt`: the transactions as texts, with their fees.
* `inscribe`: every step from the request on, and the event for the outcome.
-/

namespace CoinSpend

/-- The transactions of an inscription as texts, with their fees. -/
structure InscriptionReceipt where
  commitTx : String
  revealTxs : List String
  commitFee : Amount
  revealFees : List Amount
  addresses : List String
  deriving DecidableEq

/-- The finished transactions as texts. -/
def SignedReveals.toReceipt (signed : SignedReveals) : Except TxError InscriptionReceipt := do
  let (commitFee, revealFees) ← signed.fees
  return {
    commitTx := signed.commitTx.toHex
    revealTxs := signed.reveals.map Transaction.toHex
    commitFee
    revealFees
    addresses := signed.addresses }

/-- The transactions of a request, without counting success or failure. -/
def inscribeUncounted (request : InscriptionRequest) (params : ChainParams) :
    Metered InscriptionReceipt := do
  let plan ← InscriptionPlan.ofRequest request params
  let quoted ← QuotedReveals.ofPlan plan
  let funded ← FundedCommit.ofQuoted quoted
  let commit ← SignedCommit.ofFunded funded
  let signed ← SignedReveals.ofCommit commit
  signed.toReceipt

/-- The kind under which a failure is counted. -/
def TxError.failureKind : TxError → FailureKind
  | .insufficientBalance .. => .insufficientBalance
  | .standardnessViolation .. => .standardness
  | _ => .other

/-- The event for an outcome. -/
def outcomeEvent {α : Type} : Except TxError α → Event
  | .ok _ => .inscribed
  | .error e => .refused e.failureKind

/-- The transactions of a request. -/
def inscribe (request : InscriptionRequest) (params : ChainParams) :
    Metered InscriptionReceipt :=
  let run := inscribeUncounted request params
  ⟨run.outcome, run.events ++ [outcomeEvent run.outcome]⟩

end CoinSpend
