import CoinSpend.Inscription.Plan
import CoinSpend.Inscription.Quote
import CoinSpend.Signing.Transaction

/-!
The commit transaction, which locks what the reveals need.

* `QuotedReveals.ofPlan`: the reveal transactions, which do not know yet what
  they spend, and what each of them needs.
* `FundedCommit.ofQuoted`: one output for each reveal and the change, if it
  reaches its least value. The fee is that of a signed copy. If the funds do
  not even pay it without change, the commit fails.
* `SignedCommit.ofFunded`: the same transaction signed.
-/

namespace CoinSpend

/-! ### The reveals and their needs -/

/-- A plan with its reveal transactions, and what each of them needs. -/
structure QuotedReveals where
  plan : InscriptionPlan
  reveals : List Transaction
  quotes : List RevealQuote

namespace QuotedReveals

/-- The reveal of an item, which spends the output `vout` of a transaction that
is not known yet. -/
def blankReveal (plan : InscriptionPlan) (vout : Nat) (item : PlannedItem) : Transaction where
  version := inscriptionVersion
  lockTime := 0
  inputs := [replaceableInput ⟨.zero, UInt32.ofNat vout⟩]
  outputs := [⟨plan.revealValue, item.receiverScript⟩]

/-- The reveals of the items from position `index` on, and what they need. -/
def quoteFrom (plan : InscriptionPlan) :
    Nat → List PlannedItem → Except TxError (List (Transaction × RevealQuote))
  | _, [] => .ok []
  | index, item :: rest =>
    if UInt32.size ≤ index then .error (.invalidInscription (.tooMany index))
    else do
      let reveal := blankReveal plan index item
      let quote ← RevealQuote.ofReveal reveal item.output.envelope plan.revealValue
        plan.revealFeeRate
      let others ← quoteFrom plan (index + 1) rest
      return (reveal, quote) :: others

/-- The reveals of a plan. -/
def ofPlan (plan : InscriptionPlan) : Except TxError QuotedReveals := do
  let quoted ← quoteFrom plan 0 plan.items
  return ⟨plan, quoted.map Prod.fst, quoted.map Prod.snd⟩

/-- The values that the commit transaction has to lock. -/
def lockedValues (quoted : QuotedReveals) : List Amount :=
  quoted.quotes.map RevealQuote.lockedValue

end QuotedReveals

/-! ### The commit transaction and its fee -/

/-- A commit transaction that is not signed yet, and its fee. -/
structure FundedCommit where
  plan : InscriptionPlan
  reveals : List Transaction
  commitTx : Transaction
  commitFee : Amount

namespace FundedCommit

/-- The outputs that the reveals spend. -/
def revealOutputs (quoted : QuotedReveals) : List TxOut :=
  List.zipWith (fun item quote => ⟨quote.lockedValue, item.output.lockScript⟩)
    quoted.plan.items quoted.quotes

/-- The commit transaction with the given change. -/
def commitWith (quoted : QuotedReveals) (change : Option Amount) : Transaction where
  version := inscriptionVersion
  lockTime := 0
  inputs := quoted.plan.funding.map fun f => replaceableInput f.outpoint
  outputs := revealOutputs quoted ++
    change.toList.map fun value => ⟨value, quoted.plan.changeScript⟩

/-- The fee of a commit transaction once it is signed. -/
def trialFee (plan : InscriptionPlan) (commitTx : Transaction) : Except TxError Amount := do
  let signed ← commitTx.trialSigned plan.keys plan.lookup
  let size ← signed.effectiveSize plan.scriptView
  Amount.checked (size * plan.commitFeeRate.toNat)

/-- Fails unless the funds pay the reveals and the fee without change. The fee
with change is reported. -/
def ensureCovered (quoted : QuotedReveals) (totalIn totalLocked fee : Amount) :
    Except TxError Unit := do
  let feeWithoutChange ← trialFee quoted.plan (commitWith quoted none)
  let required ← Amount.checked (totalLocked.toNat + feeWithoutChange.toNat)
  if totalIn < required then throw (.insufficientBalance totalIn required fee)

/-- The commit that pays a fee and gives the change back. -/
def withChange (quoted : QuotedReveals) (change fee : Amount) : FundedCommit :=
  ⟨quoted.plan, quoted.reveals, commitWith quoted (some change), fee⟩

/-- The commit without change: all that the reveals do not lock is its fee. -/
def withoutChange (quoted : QuotedReveals) (totalIn totalLocked : Amount) : FundedCommit :=
  ⟨quoted.plan, quoted.reveals, commitWith quoted none, totalIn - totalLocked⟩

/-- Funds quoted reveals. -/
def ofQuoted (quoted : QuotedReveals) : Except TxError FundedCommit := do
  let totalIn ← Amount.checkedTotal quoted.plan.amounts
  let totalLocked ← Amount.checkedTotal quoted.lockedValues
  let fee ← trialFee quoted.plan (commitWith quoted (some 0))
  if totalLocked.toNat + fee.toNat ≤ totalIn.toNat then
    let change := totalIn - totalLocked - fee
    if quoted.plan.minChange ≤ change then return withChange quoted change fee
    else return withoutChange quoted totalIn totalLocked
  else
    ensureCovered quoted totalIn totalLocked fee
    return withoutChange quoted totalIn totalLocked

end FundedCommit

/-- A signed commit transaction. -/
structure SignedCommit where
  plan : InscriptionPlan
  reveals : List Transaction
  commitTx : Transaction

/-- Signs a commit transaction. -/
def SignedCommit.ofFunded (funded : FundedCommit) : Metered SignedCommit := do
  let commitTx ← funded.commitTx.sign funded.plan.keys funded.plan.lookup
  return ⟨funded.plan, funded.reveals, commitTx⟩

end CoinSpend
