import CoinSpend.Config
import CoinSpend.Inscription.Envelope
import CoinSpend.Key.Text
import CoinSpend.Transaction.SigopCost

/-!
Inscriptions as they are asked for and as they are planned.

* `InscriptionRequest`: the outputs that pay, the rates, and what to inscribe.
* `InscriptionPlan`: the same with every key, address and envelope resolved.
  `InscriptionPlan.ofRequest` takes the chain by itself, and
  `InscriptionPlan.ofConfig` takes it, and values that are not set, from a
  configuration.
-/

namespace CoinSpend

/-- An output that pays for inscriptions, and its key. -/
structure FundingOutput where
  txid : Txid
  vout : UInt32
  amount : Amount
  address : String
  privateKey : String
  deriving DecidableEq

/-- The output that is spent. -/
def FundingOutput.outpoint (output : FundingOutput) : OutPoint :=
  ⟨output.txid, output.vout⟩

/-- What is to be inscribed and what pays for it. Rates are for each virtual
byte. -/
structure InscriptionRequest where
  funding : List FundingOutput
  commitFeeRate : UInt64
  revealFeeRate : UInt64
  inscriptions : List Inscription
  revealValue : Option Amount
  changeAddress : String
  minChange : Option Amount
  deriving DecidableEq

/-- The version of commit and reveal transactions. -/
def inscriptionVersion : Int32 :=
  2

/-- The sequence of their inputs, which lets them be replaced. -/
def replaceableSequence : UInt32 :=
  0xfffffffd

/-- An input that can be replaced and is not signed yet. -/
def replaceableInput (outpoint : OutPoint) : TxIn :=
  ⟨outpoint, [], replaceableSequence, []⟩

/-- A paying output with its script and its key. -/
structure FundingInput where
  outpoint : OutPoint
  output : TxOut
  key : PrivateKey
  deriving DecidableEq

/-- An inscription with its envelope and the script that receives it. -/
structure PlannedItem where
  output : EnvelopeOutput
  receiverScript : Script

/-- A request with everything resolved. -/
structure InscriptionPlan where
  params : ChainParams
  commitFeeRate : UInt64
  revealFeeRate : UInt64
  /-- What every reveal leaves for its receiver. -/
  revealValue : Amount
  /-- The least change that is worth an output. -/
  minChange : Amount
  changeScript : Script
  funding : List FundingInput
  /-- The key of the first paying output, which signs every reveal. -/
  revealKey : PrivateKey
  items : List PlannedItem

namespace InscriptionPlan

/-- Resolves a paying output. -/
def fundingInput (params : ChainParams) (output : FundingOutput) :
    Except TxError FundingInput := do
  let script ← Address.toScript output.address params
  let key ← PrivateKey.ofText output.privateKey params
  return ⟨output.outpoint, ⟨output.amount, script⟩, key⟩

/-- Resolves an inscription. -/
def plannedItem (params : ChainParams) (key : XOnlyKey) (inscription : Inscription) :
    Except TxError PlannedItem := do
  let output ← EnvelopeOutput.ofInscription inscription key params
  let receiverScript ← Address.toScript inscription.receiver params
  return ⟨output, receiverScript⟩

/-- The plan of a request on a chain. -/
def ofRequest (request : InscriptionRequest) (params : ChainParams) :
    Except TxError InscriptionPlan := do
  if request.funding.isEmpty || request.inscriptions.isEmpty then
    throw .emptyInputsOrOutputs
  let funding ← request.funding.mapM (fundingInput params)
  match funding with
  | [] => throw .emptyInputsOrOutputs
  | first :: _ =>
    let items ← request.inscriptions.mapM (plannedItem params first.key.xOnly)
    let changeScript ← Address.toScript request.changeAddress params
    return {
      params
      commitFeeRate := request.commitFeeRate
      revealFeeRate := request.revealFeeRate
      revealValue := (nonzero? request.revealValue).getD defaultValue
      minChange := (nonzero? request.minChange).getD defaultValue
      changeScript
      funding
      revealKey := first.key
      items }

/-- The plan of a request on the chain of a configuration, which also gives
the values that the request leaves unset or zero. -/
def ofConfig (request : InscriptionRequest) (config : Config) :
    Except TxError InscriptionPlan := do
  let params ← config.params
  let plan ← ofRequest request params
  return { plan with
    revealValue := (nonzero? request.revealValue).getD config.revealValue
    minChange := (nonzero? request.minChange).getD config.minChange }

/-- The outputs that pay, looked up by reference. -/
def lookup (plan : InscriptionPlan) : OutPoint → Option TxOut :=
  OutPoint.Table.get? (plan.funding.map fun f => (f.outpoint, f.output))

/-- The scripts of the outputs that pay. -/
def scriptView (plan : InscriptionPlan) : ScriptView :=
  plan.funding.map fun f => (f.outpoint, f.output.script)

/-- The keys of the outputs that pay. -/
def keys (plan : InscriptionPlan) : List PrivateKey :=
  plan.funding.map FundingInput.key

/-- The amounts of the outputs that pay. -/
def amounts (plan : InscriptionPlan) : List Amount :=
  plan.funding.map fun f => f.output.value

end InscriptionPlan

end CoinSpend
