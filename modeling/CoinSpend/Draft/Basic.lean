import CoinSpend.Address.Basic
import CoinSpend.Config
import CoinSpend.Key.Text

/-!
What a transaction is made from.

* `Lock`: a locking script by address or spelled out.
* `Spend`, `Payment`: an output to spend and an output to make.
* `Draft`: spends and payments gathered for one chain, with their totals and
  the scripts that the spends open.
* `Draft.keptOutputs`: the outputs of the transaction; change below the dust
  floor is left out.
-/

namespace CoinSpend

/-- A locking script, by the address that stands for it or in hexadecimal. -/
inductive Lock where
  | address (text : String)
  | script (hex : String)
  deriving Repr, DecidableEq

/-- The locking script on a chain. -/
def Lock.toScript (lock : Lock) (params : ChainParams) : Except TxError Script :=
  match lock with
  | .address text => Address.toScript text params
  | .script hex => Script.ofHex hex

/-- An output to spend, with its amount, its lock and perhaps a key. Amount and
lock are taken as they are given. -/
structure Spend where
  txid : Txid
  vout : UInt32
  amount : Amount
  lock : Lock
  privateKey : Option String
  deriving DecidableEq

/-- The output that is spent. -/
def Spend.outpoint (spend : Spend) : OutPoint :=
  ⟨spend.txid, spend.vout⟩

/-- The key of the spend at a position. -/
def Spend.key (spend : Spend) (params : ChainParams) (index : Nat) :
    Except TxError PrivateKey :=
  match spend.privateKey with
  | none => .error (.invalidPrivateKey (.missing index))
  | some text => PrivateKey.ofText text params

/-- An output to make. -/
structure Payment where
  lock : Lock
  amount : Amount
  isChange : Bool
  deriving DecidableEq

/-- Spends and payments gathered for a transaction of one chain. -/
structure Draft where
  version : Int32
  params : ChainParams
  dustFloor : Amount
  spends : List Spend
  payments : List Payment

namespace Draft

/-! ### Gathering -/

/-- A draft without spends and payments. -/
def empty (version : Int32) (params : ChainParams) : Draft :=
  ⟨version, params, defaultValue, [], []⟩

/-- An empty draft with the settings of a configuration. -/
def ofConfig (config : Config) : Except TxError Draft := do
  let params ← config.params
  return { empty config.version params with dustFloor := config.dust }

/-- Sets the amount below which change is left out. -/
def setDustFloor (draft : Draft) (amount : Amount) : Draft :=
  { draft with dustFloor := amount }

/-- Adds a spend at the end. -/
def addSpend (draft : Draft) (spend : Spend) : Draft :=
  { draft with spends := draft.spends ++ [spend] }

/-- Adds a payment at the end. -/
def addPayment (draft : Draft) (payment : Payment) : Draft :=
  { draft with payments := draft.payments ++ [payment] }

/-! ### What is known before signing -/

/-- The sum of all spends. -/
def spendTotal (draft : Draft) : Except TxError Amount :=
  Amount.checkedTotal (draft.spends.map Spend.amount)

/-- The sum of all payments, change included. -/
def paymentTotal (draft : Draft) : Except TxError Amount :=
  Amount.checkedTotal (draft.payments.map Payment.amount)

/-- The output that a spend refers to, with its locking script. -/
def viewEntry (draft : Draft) (spend : Spend) : Except TxError (OutPoint × Script) := do
  let script ← spend.lock.toScript draft.params
  return (spend.outpoint, script)

/-- The scripts that the spends open. -/
def scriptView (draft : Draft) : Except TxError (OutPoint.Table Script) :=
  draft.spends.mapM draft.viewEntry

/-- The payment is made: it is no change, or it reaches the dust floor. -/
def keeps (draft : Draft) (payment : Payment) : Bool :=
  !(payment.isChange && payment.amount < draft.dustFloor)

/-- The output that a payment makes. -/
def outputOf (draft : Draft) (payment : Payment) : Except TxError TxOut := do
  let script ← payment.lock.toScript draft.params
  return ⟨payment.amount, script⟩

/-- The outputs of the transaction, of which there has to be one. -/
def keptOutputs (draft : Draft) : Except TxError (List TxOut) := do
  let outputs ← (draft.payments.filter draft.keeps).mapM draft.outputOf
  if outputs.isEmpty then throw .emptyInputsOrOutputs
  return outputs

/-- There are a spend and a payment. -/
def requireParts (draft : Draft) : Except TxError Unit :=
  if draft.spends.isEmpty || draft.payments.isEmpty then .error .emptyInputsOrOutputs
  else .ok ()

/-- All spends from position `index` on, each as `read` reads it. -/
def readSpends {α : Type} (read : Nat → Spend → Except TxError α) :
    Nat → List Spend → Except TxError (List α)
  | _, [] => .ok []
  | index, spend :: rest => do
    let a ← read index spend
    let others ← readSpends read (index + 1) rest
    return a :: others

/-- An input with a signature script, final in its sequence. -/
def finalInput (outpoint : OutPoint) (scriptSig : Script) : TxIn :=
  ⟨outpoint, scriptSig, 0xffffffff, []⟩

/-- A transaction of the draft's version that can be mined at once. -/
def transactionWith (draft : Draft) (inputs : List TxIn) (outputs : List TxOut) : Transaction :=
  ⟨draft.version, 0, inputs, outputs⟩

end Draft

end CoinSpend
