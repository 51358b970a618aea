import CoinSpend.Inscription.Commit

/-!
The reveal transactions, which show what the commit transaction hides.

* `SignedReveals.ofCommit`: points every reveal at the signed commit
  transaction and signs it for its envelope. None may be heavier than what is
  relayed.
* `SignedReveals.fees`: the fees, read off the finished transactions.
-/

namespace CoinSpend

/-- The largest weight of a transaction that is relayed. -/
def maxStandardWeight : Nat :=
  400000

/-- Signed transactions, all of which are relayed. -/
structure SignedReveals where
  plan : InscriptionPlan
  reveals : List Transaction
  commitTx : Transaction

namespace SignedReveals

/-! ### Signing -/

/-- The reveal with its input pointed at a transaction. -/
def pointAt (txid : Txid) (reveal : Transaction) : Transaction :=
  match reveal.inputs with
  | [] => reveal
  | input :: rest =>
    { reveal with inputs := { input with previous := { input.previous with txid } } :: rest }

/-- Signs the reveals from position `index` on for their envelopes. -/
def signFrom (key : PrivateKey) (commitTx : Transaction) :
    Nat → List (Transaction × PlannedItem) → Metered (List Transaction)
  | _, [] => pure []
  | index, (reveal, item) :: rest =>
    match commitTx.outputs[index]? with
    | none => .lift (.error (.invalidInscription (.missingOutput index)))
    | some output => do
      let signed ← (pointAt commitTx.txid reveal).signLeaf 0 item.output.envelope
        item.output.controlBlock key [output]
      let others ← signFrom key commitTx (index + 1) rest
      return signed :: others

/-- Fails at the first transaction from position `index` on that is too
heavy. -/
def checkWeights : Nat → List Transaction → Except TxError Unit
  | _, [] => .ok ()
  | index, reveal :: rest =>
    if maxStandardWeight < reveal.weight then
      .error (.standardnessViolation index reveal.weight maxStandardWeight)
    else checkWeights (index + 1) rest

/-- Signs the reveals of a signed commit transaction. -/
def ofCommit (signed : SignedCommit) : Metered SignedReveals := do
  let reveals ← signFrom signed.plan.revealKey signed.commitTx 0
    (signed.reveals.zip signed.plan.items)
  checkWeights 0 reveals
  return ⟨signed.plan, reveals, signed.commitTx⟩

/-! ### What was made -/

/-- The addresses that the commit transaction pays to, one for each item. -/
def addresses (signed : SignedReveals) : List String :=
  signed.plan.items.map fun item => item.output.address

/-- The difference of two amounts, which may not be negative. -/
def difference (a b : Amount) : Except TxError Amount :=
  if a < b then .error .amountOverflow else .ok (a - b)

/-- The fee of a reveal that spends an output. -/
def revealFee (pair : Transaction × TxOut) : Except TxError Amount := do
  let out ← Amount.checkedTotal (pair.1.outputs.map TxOut.value)
  difference pair.2.value out

/-- The fee of the commit transaction and of every reveal. -/
def fees (signed : SignedReveals) : Except TxError (Amount × List Amount) := do
  let commitIn ← Amount.checkedTotal signed.plan.amounts
  let commitOut ← Amount.checkedTotal (signed.commitTx.outputs.map TxOut.value)
  let commitFee ← difference commitIn commitOut
  let revealFees ← (signed.reveals.zip signed.commitTx.outputs).mapM revealFee
  return (commitFee, revealFees)

end SignedReveals

end CoinSpend
