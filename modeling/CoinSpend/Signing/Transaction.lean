import CoinSpend.Signing.InPlace
import CoinSpend.Signing.Satisfaction

/-!
Signing transactions.

* `Transaction.signInPlace`: signs every input with the key at its position; all
  satisfactions are made, over the transaction as it is given, before any of
  them is put in. `Transaction.sign`: the signed transaction with its events.
* `Transaction.trialSigned`: the same without counting, to measure a size.
* `Transaction.signLeafInPlace`, `Transaction.signLeaf`: one input is signed for a
  script under its output key.
-/

namespace CoinSpend

/-- Where the outputs that a transaction spends are looked up. -/
abbrev Lookup := OutPoint → Option TxOut

/-- The input with a satisfaction put in. -/
def TxIn.satisfy (input : TxIn) (satisfaction : Satisfaction) : TxIn :=
  { input with scriptSig := satisfaction.scriptSig, witness := satisfaction.witness }

namespace Transaction

/-- The outputs spent by the inputs from position `index` on. -/
def spentFrom (lookup : Lookup) : Nat → List TxIn → Except TxError (List TxOut)
  | _, [] => .ok []
  | index, input :: rest =>
    match lookup input.previous with
    | none => .error (.unknownPrevOut input.previous index)
    | some output => do
      let outputs ← spentFrom lookup (index + 1) rest
      return output :: outputs

/-- The way of spending and the satisfaction of each input from position
`index` on, given its output and its key. -/
def satisfyFrom (tx : Transaction) (prevouts : List TxOut) :
    Nat → List (TxOut × PrivateKey) → Except TxError (List (SpendPath × Satisfaction))
  | _, [] => .ok []
  | index, (output, key) :: rest => do
    let path ← SpendPath.ofScript output.script key index
    let satisfaction ← Satisfaction.ofPath tx index path key prevouts
    let others ← satisfyFrom tx prevouts (index + 1) rest
    return (path, satisfaction) :: others

/-- The way of spending and the satisfaction of every input. -/
def satisfactions (tx : Transaction) (keys : List PrivateKey) (lookup : Lookup) :
    Except TxError (List (SpendPath × Satisfaction)) :=
  if keys.length < tx.inputs.length then
    .error (.keyCountMismatch keys.length tx.inputs.length)
  else do
    let prevouts ← spentFrom lookup 0 tx.inputs
    satisfyFrom tx prevouts 0 (prevouts.zip keys)

/-- The transaction with a satisfaction put into each input. -/
def satisfy (tx : Transaction) (satisfactions : List Satisfaction) : Transaction :=
  { tx with inputs := List.zipWith TxIn.satisfy tx.inputs satisfactions }

/-- The transaction with every input signed. Nothing is counted. -/
def trialSigned (tx : Transaction) (keys : List PrivateKey) (lookup : Lookup) :
    Except TxError Transaction := do
  let found ← tx.satisfactions keys lookup
  return tx.satisfy (found.map Prod.snd)

/-- Puts a satisfaction into the input at a position. -/
def putInto (index : Nat) (satisfaction : Satisfaction) : InPlace Unit := do
  InPlace.modifyInput index fun input => { input with scriptSig := satisfaction.scriptSig }
  InPlace.modifyInput index fun input => { input with witness := satisfaction.witness }

/-- Puts satisfactions into the inputs from position `index` on. -/
def putAllFrom : Nat → List Satisfaction → InPlace Unit
  | _, [] => pure ()
  | index, satisfaction :: rest => do
    putInto index satisfaction
    putAllFrom (index + 1) rest

/-- Signs every input. -/
def signInPlace (keys : List PrivateKey) (lookup : Lookup) : InPlace Unit := do
  let tx ← InPlace.current
  let found ← tx.satisfactions keys lookup
  found.forM fun entry => InPlace.record (.signed entry.1.lockKind)
  putAllFrom 0 (found.map Prod.snd)

/-- The transaction with every input signed. -/
def sign (tx : Transaction) (keys : List PrivateKey) (lookup : Lookup) : Metered Transaction :=
  (signInPlace keys lookup).metered tx

/-- Signs the input `index` for a script under the key of the output it spends. -/
def signLeafInPlace (index : Nat) (leafScript : Script) (controlBlock : ControlBlock)
    (key : PrivateKey) (prevouts : List TxOut) : InPlace Unit := do
  let tx ← InPlace.current
  let path := SpendPath.taprootScriptPath leafScript controlBlock
  let satisfaction ← Satisfaction.ofPath tx index path key prevouts
  if tx.inputs.length ≤ index then throw (.signing (.inputOutOfRange index))
  putInto index satisfaction
  InPlace.record (.signed path.lockKind)

/-- The transaction with the input `index` signed for a script under the key
of the output it spends. -/
def signLeaf (tx : Transaction) (index : Nat) (leafScript : Script) (controlBlock : ControlBlock)
    (key : PrivateKey) (prevouts : List TxOut) : Metered Transaction :=
  (signLeafInPlace index leafScript controlBlock key prevouts).metered tx

end Transaction

end CoinSpend
