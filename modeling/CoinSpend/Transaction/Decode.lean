import CoinSpend.Transaction.Size

/-!
Reading transactions.

* `Transaction.decode`: an input count of zero announces the form with
  witnesses, which needs the flag one and, if it has inputs, some witness. The
  whole byte string has to be used.
* `Reader.witness`: a witness has a bounded number of items, and each item
  has to fit the space that the earlier ones left.
* `Transaction.ofHex`: the transaction that a hexadecimal text stands for.
-/

namespace CoinSpend

namespace Reader

/-- An output reference. -/
def outPoint : Reader OutPoint := do
  let field ← bytes 32
  let vout ← nat 4
  match Txid.ofBytes? field with
  | some txid => return ⟨txid, UInt32.ofNat vout⟩
  | none => throw .endOfData

/-- An input, its witness still empty. -/
def input : Reader TxIn := do
  let previous ← outPoint
  let scriptSig ← sized
  let sequence ← nat 4
  return ⟨previous, scriptSig, UInt32.ofNat sequence, []⟩

/-- An output. -/
def output : Reader TxOut := do
  let value ← nat 8
  let script ← sized
  return ⟨UInt64.ofNat value, script⟩

/-- The next `n` items of a witness of `count` items, of which the earlier
ones took `used` bytes with their lengths. Every item is charged four bytes
in advance. -/
def witnessItems (count : Nat) : Nat → Nat → Reader (List Bytes)
  | 0, _ => pure []
  | n + 1, used => do
    let length ← CompactSize.read
    let used := used + length + CompactSize.size length
    if UInt64.size ≤ 4 * count + used then throw (.oversized (UInt64.size - 1))
    if maxWitnessBytes < used then throw (.oversized (4 * count + used))
    let item ← bytes length
    let rest ← witnessItems count n used
    return item :: rest

/-- The items of a witness. -/
def witness : Reader (List Bytes) := do
  let count ← CompactSize.read
  if maxWitnessBytes < count then throw (.oversized count)
  witnessItems count count 0

/-- A witness for each input. -/
def witnesses : List TxIn → Reader (List TxIn)
  | [] => pure []
  | i :: rest => do
    let items ← witness
    let rest ← witnesses rest
    return { i with witness := items } :: rest

/-- The lock time at the end of a transaction. -/
def lockTime (version : Nat) (inputs : List TxIn) (outputs : List TxOut) : Reader Transaction := do
  let time ← nat 4
  return ⟨(UInt32.ofNat version).toInt32, UInt32.ofNat time, inputs, outputs⟩

/-- The form with witnesses, from its flag on. -/
def flagged (version : Nat) : Reader Transaction := do
  let flag ← nat 1
  if flag ≠ 1 then throw (.unknownFlag (UInt8.ofNat flag))
  let inputs ← list input
  let outputs ← list output
  let inputs ← witnesses inputs
  if !inputs.isEmpty && inputs.all fun i => i.witness.isEmpty then throw .emptyWitnesses
  lockTime version inputs outputs

/-- A transaction in either form. -/
def transaction : Reader Transaction := do
  let version ← nat 4
  let inputs ← list input
  if inputs.isEmpty then flagged version
  else
    let outputs ← list output
    lockTime version inputs outputs

end Reader

namespace Transaction

/-- The transaction that a byte string is the written form of. -/
def decode (b : Bytes) : Except DecodeFault Transaction :=
  match Reader.transaction b with
  | .ok (tx, []) => .ok tx
  | .ok (_, _ :: _) => .error .trailingData
  | .error fault => .error fault

/-- The transaction that a hexadecimal text stands for. -/
def ofHex (text : String) : Except TxError Transaction :=
  match Hex.decodeMarked text with
  | .error fault => .error (.invalidTransaction (.hex fault))
  | .ok b =>
    match decode b with
    | .error fault => .error (.invalidTransaction fault)
    | .ok tx => .ok tx

/-- The double digest of the bytes that a text stands for, as an identifier.
The bytes are taken as they are, so that the form with witnesses gives
`witnessTxid`. -/
def idOfHex (text : String) : Except TxError Txid :=
  match Hex.decodeMarked text with
  | .error fault => .error (.invalidTransaction (.hex fault))
  | .ok b => .ok (.ofContent b)

/-- The size of the transaction that a text stands for. -/
def sizeOfHex (text : String) : Except TxError Nat := do
  let tx ← ofHex text
  return tx.totalSize

end Transaction

end CoinSpend
