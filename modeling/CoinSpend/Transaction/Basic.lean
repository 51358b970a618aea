import CoinSpend.Amount
import CoinSpend.Hash.Sha256
import CoinSpend.Bytes.Hex

/-!
Transactions and what they are made of.

* `Txid`: a 32-byte identifier; `Txid.text` shows it with its bytes reversed
  and `Txid.ofText?` reads that text in either case.
* `OutPoint`, `TxIn`, `TxOut`, `Transaction`: inputs spend outputs of earlier
  transactions, outputs lock amounts with scripts.
* `OutPoint.Table`: what is known of some outputs; a later entry for the same
  output takes the place of an earlier one.
-/

namespace CoinSpend

/-- A program that locks or unlocks an output, in its written form. -/
abbrev Script := Bytes

/-- The identifier of a transaction. -/
structure Txid where
  bytes : Bytes
  length_eq : bytes.length = 32
  deriving DecidableEq

namespace Txid

/-- The identifier with all bytes zero. -/
def zero : Txid := ⟨List.replicate 32 0, by simp⟩

/-- The identifier with these bytes, if there are 32. -/
def ofBytes? (b : Bytes) : Option Txid :=
  if h : b.length = 32 then some ⟨b, h⟩ else none

/-- The double digest of a byte string as an identifier. -/
def ofContent (content : Bytes) : Txid :=
  ⟨doubleSha256 content, length_doubleSha256 content⟩

/-- The identifier as it is shown: the last byte first. -/
def text (txid : Txid) : String :=
  Hex.encode txid.bytes.reverse

/-- The identifier shown by a text of 64 digits of either case. -/
def ofText? (text : String) : Option Txid :=
  match Hex.decode text with
  | .ok b => ofBytes? b.reverse
  | .error _ => none

end Txid

/-- An output of an earlier transaction. -/
structure OutPoint where
  txid : Txid
  vout : UInt32
  deriving DecidableEq

/-- The transaction and the position in it. -/
def OutPoint.text (outpoint : OutPoint) : String :=
  s!"{outpoint.txid.text}:{outpoint.vout.toNat}"

/-- Facts about some outputs, in the order they were learnt. -/
abbrev OutPoint.Table (α : Type) := List (OutPoint × α)

namespace OutPoint.Table

/-- The fact learnt last about an output. -/
def get? {α : Type} (table : Table α) (outpoint : OutPoint) : Option α :=
  table.reverse.lookup outpoint

/-- An output that is listed is found, with the fact of one of its entries. -/
theorem exists_get?_of_mem {α : Type} {table : Table α} {outpoint : OutPoint} {a : α}
    (h : (outpoint, a) ∈ table) : ∃ b, table.get? outpoint = some b ∧ (outpoint, b) ∈ table := by
  rw [get?]
  cases hfound : table.reverse.lookup outpoint with
  | none =>
    have hne := List.lookup_eq_none_iff.mp hfound _ (List.mem_reverse.mpr h)
    simp at hne
  | some b =>
    obtain ⟨before, after, hsplit, -⟩ := List.lookup_eq_some_iff.mp hfound
    have hmem : (outpoint, b) ∈ table.reverse := by simp [hsplit]
    exact ⟨b, rfl, List.mem_reverse.mp hmem⟩

/-- The entries that are in force: of several for one output only the last. -/
def current {α : Type} : Table α → Table α
  | [] => []
  | (outpoint, a) :: rest =>
    if rest.any (·.1 == outpoint) then current rest else (outpoint, a) :: current rest

/-- The order of outputs by shown identifier, then by position. -/
def inOrder {α : Type} (a b : OutPoint × α) : Bool :=
  if a.1.txid = b.1.txid then a.1.vout ≤ b.1.vout else a.1.txid.text < b.1.txid.text

/-- The entries in force, sorted by shown identifier and position. -/
def sorted {α : Type} (table : Table α) : Table α :=
  table.current.mergeSort inOrder

end OutPoint.Table

/-- An input: the output it spends and what unlocks it. -/
structure TxIn where
  previous : OutPoint
  scriptSig : Script
  sequence : UInt32
  witness : List Bytes
  deriving DecidableEq

/-- An output: an amount and the script that locks it. -/
structure TxOut where
  value : Amount
  script : Script
  deriving DecidableEq

/-- A transaction. -/
structure Transaction where
  version : Int32
  lockTime : UInt32
  inputs : List TxIn
  outputs : List TxOut
  deriving DecidableEq

/-- The transaction with the given signature scripts. -/
def Transaction.withScriptSigs (tx : Transaction) (scriptSigs : List Script) : Transaction :=
  { tx with
    inputs := List.zipWith (fun input scriptSig => { input with scriptSig }) tx.inputs scriptSigs }

end CoinSpend
