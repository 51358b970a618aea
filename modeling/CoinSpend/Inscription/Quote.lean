import CoinSpend.Transaction.Size

/-!
What a reveal transaction costs, before it is signed.

* `RevealQuote`: the fee, and with it the value that the output to spend has to
  lock.
* `RevealQuote.ofReveal`: the bytes outside witnesses at the full rate, and the
  witness it will have, a signature, the envelope and the proof, at a quarter. Both
  parts of the fee, the fee and the value to lock have to be amounts.
-/

namespace CoinSpend

/-- What a reveal transaction needs. -/
structure RevealQuote where
  /-- The value that the output it spends has to lock. -/
  lockedValue : Amount
  fee : Amount
  deriving Repr, DecidableEq

namespace RevealQuote

/-- The witness of a reveal, with zeros for what is not known yet. -/
def witness (envelope : Script) : List Bytes :=
  [List.replicate 64 0, envelope, List.replicate 33 0]

/-- What marker, flag and witness count for, a quarter of their size rounded up. -/
def discountedSize (envelope : Script) : Nat :=
  (witnessSize (witness envelope) + 2 + witnessScale - 1) / witnessScale

/-- The number of bytes that a reveal pays the rate for. -/
def paidSize (reveal : Transaction) (envelope : Script) : Nat :=
  reveal.baseSize + discountedSize envelope

/-- The fee of a reveal at a rate for each byte, in two parts. -/
def feeAt (reveal : Transaction) (envelope : Script) (rate : UInt64) : Except TxError Amount := do
  let base ← Amount.checked (reveal.baseSize * rate.toNat)
  let discounted ← Amount.checked (discountedSize envelope * rate.toNat)
  Amount.checked (base.toNat + discounted.toNat)

/-- The needs of a reveal that leaves `outValue` at a rate for each byte. -/
def ofReveal (reveal : Transaction) (envelope : Script) (outValue : Amount) (rate : UInt64) :
    Except TxError RevealQuote := do
  let fee ← feeAt reveal envelope rate
  let lockedValue ← Amount.checked (outValue.toNat + fee.toNat)
  return ⟨lockedValue, fee⟩

end RevealQuote

end CoinSpend
