import CoinSpend.Inscription.Quote
import CoinSpend.Proofs.Transaction.Size

/-!
What a reveal is quoted, and for which size.

* `Amount.checked_bind_checked`: a sum whose terms are checked one by one is as good as
  checked once, since neither term exceeds it.
* `RevealQuote.Covers`: a quote is the rate for the size of a reveal, and the value to
  lock is this fee on top of what the reveal leaves. `RevealQuote.ofReveal_eq_ok_iff`,
  `RevealQuote.ofReveal_eq_error_iff`: a quote fails only if this value is no amount.
* `RevealQuote.signedWeight`: the weight that a reveal will have, from the reveal
  without its witness and the envelope. `RevealQuote.paidSize_eq`: the size that a quote
  pays for, whose witness part is rounded by itself, is a quarter of this weight,
  rounded up once.
* `RevealQuote.ofReveal_exact`: hence a quote is exact for every transaction with one
  input, as far as amounts go.
-/

namespace CoinSpend

/-! ### Checked sums -/

/-- Terms that are checked one by one add up to an amount if and only if their sum is
one. -/
lemma Amount.checked_bind_checked (m n : ℕ) :
    (do
      let a ← checked m
      let b ← checked n
      checked (a.toNat + b.toNat)) = checked (m + n) := by
  by_cases hm : m < UInt64.size
  · obtain ⟨a, ha, rfl⟩ := exists_checked hm
    by_cases hn : n < UInt64.size
    · obtain ⟨b, hb, rfl⟩ := exists_checked hn
      rw [bind_of_eq_ok ha, bind_of_eq_ok hb]
    · have hterm := checked_eq_error_iff.mpr ⟨Nat.le_of_not_lt hn, rfl⟩
      have hsum := checked_eq_error_iff.mpr ⟨show UInt64.size ≤ a.toNat + n by omega, rfl⟩
      rw [bind_of_eq_ok ha, hterm, hsum]
      rfl
  · have hterm := checked_eq_error_iff.mpr ⟨Nat.le_of_not_lt hm, rfl⟩
    have hsum := checked_eq_error_iff.mpr ⟨show UInt64.size ≤ m + n by omega, rfl⟩
    rw [hterm, hsum]
    rfl

/-- The transaction with one and the same witness for every input. -/
def Transaction.withWitness (tx : Transaction) (witness : List Bytes) : Transaction :=
  { tx with inputs := tx.inputs.map fun input => { input with witness } }

lemma Transaction.baseSize_withWitness (tx : Transaction) (witness : List Bytes) :
    (tx.withWitness witness).baseSize = tx.baseSize := by
  simp only [baseSize, withWitness, List.length_map, sumOf_map]
  rfl

namespace RevealQuote

variable {reveal : Transaction} {envelope : Script} {outValue : Amount} {rate : UInt64}

/-! ### Success and failure -/

/-- The fee is the rate for each byte that counts, and the value to lock is what
the reveal leaves and the fee. -/
structure Covers (reveal : Transaction) (envelope : Script) (outValue : Amount)
    (rate : UInt64) (quote : RevealQuote) : Prop where
  fee : quote.fee.toNat = paidSize reveal envelope * rate.toNat
  lockedValue : quote.lockedValue.toNat = outValue.toNat + quote.fee.toNat

/-- The two parts of a fee are checked as their sum is. -/
lemma feeAt_eq (reveal : Transaction) (envelope : Script) (rate : UInt64) :
    feeAt reveal envelope rate = Amount.checked (paidSize reveal envelope * rate.toNat) := by
  rw [feeAt, Amount.checked_bind_checked, paidSize, Nat.add_mul]

/-- A quote is made if and only if the fee and the value to lock are amounts. -/
lemma ofReveal_eq_ok_iff {quote : RevealQuote} :
    ofReveal reveal envelope outValue rate = .ok quote ↔
      quote.Covers reveal envelope outValue rate := by
  simp only [ofReveal, feeAt_eq, bind_eq_ok_iff, pure_eq_ok_iff, Amount.checked_eq_ok_iff]
  constructor
  · rintro ⟨fee, hfee, lockedValue, hlocked, rfl⟩
    exact ⟨hfee, hlocked⟩
  · rintro ⟨hfee, hlocked⟩
    exact ⟨quote.fee, hfee, quote.lockedValue, hlocked, rfl⟩

/-- A quote fails if and only if the value to lock is no amount, whichever check it is
that fails. -/
lemma ofReveal_eq_error_iff {e : TxError} :
    ofReveal reveal envelope outValue rate = .error e ↔
      UInt64.size ≤ outValue.toNat + paidSize reveal envelope * rate.toNat ∧
        e = .amountOverflow := by
  simp only [ofReveal, feeAt_eq, bind_eq_error_iff, Amount.checked_eq_ok_iff,
    Amount.checked_eq_error_iff]
  constructor
  · rintro (⟨hfee, rfl⟩ | ⟨fee, hfee, ⟨hlocked, rfl⟩ | ⟨lockedValue, -, h⟩⟩)
    · exact ⟨by omega, rfl⟩
    · exact ⟨by omega, rfl⟩
    · cases h
  · rintro ⟨hlocked, rfl⟩
    by_cases hfee : paidSize reveal envelope * rate.toNat < UInt64.size
    · obtain ⟨fee, -, hfee⟩ := Amount.exists_checked hfee
      exact .inr ⟨fee, hfee, .inl ⟨by omega, rfl⟩⟩
    · exact .inl ⟨Nat.le_of_not_lt hfee, rfl⟩

/-! ### Sizes -/

/-- The weight of a reveal once its witness is there. -/
def signedWeight (reveal : Transaction) (envelope : Script) : ℕ :=
  4 * reveal.baseSize + 2 + (encodeWitness (witness envelope)).length

/-- Only the witness part can fail to be a multiple of four, so that rounding it
by itself is rounding the whole weight. -/
lemma paidSize_eq (reveal : Transaction) (envelope : Script) :
    paidSize reveal envelope = (signedWeight reveal envelope + 3) / 4 := by
  rw [paidSize, discountedSize, signedWeight, length_encodeWitness, witnessScale]
  omega

/-- The witness that a reveal will have takes the room that was assumed for it. -/
lemma witnessSize_of_length {signature proof : Bytes} (hsignature : signature.length = 64)
    (hproof : proof.length = 33) (envelope : Script) :
    witnessSize [signature, envelope, proof] = witnessSize (witness envelope) := by
  simp [witnessSize, witness, sumOf, sizedSize, hsignature, hproof]

/-- The size that a quote pays for is the virtual size of the reveal with its witness,
whatever signature script and witness it has before. -/
lemma virtualSize_withWitness {input : TxIn} (hinput : reveal.inputs = [input])
    {signature proof : Bytes} (hsignature : signature.length = 64) (hproof : proof.length = 33) :
    (reveal.withWitness [signature, envelope, proof]).virtualSize = paidSize reveal envelope := by
  have hlone : (reveal.withWitness [signature, envelope, proof]).inputs
      = [{ input with witness := [signature, envelope, proof] }] := by
    rw [Transaction.withWitness, hinput]
    rfl
  have hweight : (reveal.withWitness [signature, envelope, proof]).weight
      = signedWeight reveal envelope := by
    rw [Transaction.weight_of_lone hlone (List.cons_ne_nil _ _), Transaction.baseSize_withWitness,
      witnessSize_of_length hsignature hproof, signedWeight, length_encodeWitness]
  calc (reveal.withWitness [signature, envelope, proof]).virtualSize
      = (signedWeight reveal envelope + 3) / 4 := by rw [Transaction.virtualSize, hweight]; rfl
    _ = paidSize reveal envelope := (paidSize_eq reveal envelope).symm

/-- **Quotes are exact as far as amounts go.** For a transaction with one input the fee
is the rate for the virtual size that it has with a signature, the envelope and a proof
as its witness, and the value to lock is what it leaves on top of this fee. The quote
fails, as an overflow, if and only if this value is no amount. -/
theorem ofReveal_exact (reveal : Transaction) {input : TxIn} (hinput : reveal.inputs = [input])
    (envelope : Script) (outValue : Amount) (rate : UInt64) {signature proof : Bytes}
    (hsignature : signature.length = 64) (hproof : proof.length = 33) :
    let size := (reveal.withWitness [signature, envelope, proof]).virtualSize
    (outValue.toNat + rate.toNat * size < UInt64.size →
      ∃ quote, ofReveal reveal envelope outValue rate = .ok quote ∧
        quote.fee.toNat = rate.toNat * size ∧
        quote.lockedValue.toNat = outValue.toNat + rate.toNat * size) ∧
    (UInt64.size ≤ outValue.toNat + rate.toNat * size →
      ofReveal reveal envelope outValue rate = .error .amountOverflow) := by
  intro size
  have hsize : rate.toNat * size = paidSize reveal envelope * rate.toNat := by
    rw [Nat.mul_comm]
    exact congrArg (· * rate.toNat) (virtualSize_withWitness hinput hsignature hproof)
  rw [hsize]
  constructor
  · intro hfits
    cases hquote : ofReveal reveal envelope outValue rate with
    | error e =>
        obtain ⟨hoverflow, -⟩ := ofReveal_eq_error_iff.mp hquote
        omega
    | ok quote =>
        have hcovers := ofReveal_eq_ok_iff.mp hquote
        exact ⟨quote, rfl, hcovers.fee, by rw [hcovers.lockedValue, hcovers.fee]⟩
  · intro hoverflow
    exact ofReveal_eq_error_iff.mpr ⟨hoverflow, rfl⟩

/-- A transaction whose input has a signature script and a witness already. -/
def sampleSpent : Transaction :=
  ⟨2, 0, [⟨⟨.zero, 0⟩, [0x51], 0xfffffffd, [[1, 2, 3]]⟩], [⟨546, [0x51]⟩]⟩

/-- Its virtual size is 88 with the other witness. At three for each byte the largest
amount can be locked, and not one more. -/
theorem ofReveal_exact_sample :
    (∃ quote, ofReveal sampleSpent [0x51] 18446744073709551351 3 = .ok quote ∧
      quote.fee.toNat = 3 * 88 ∧ quote.lockedValue.toNat = 18446744073709551615) ∧
    ofReveal sampleSpent [0x51] 18446744073709551352 3 = .error .amountOverflow := by
  have hsignature : (List.replicate 64 (7 : UInt8)).length = 64 := by decide
  have hproof : (List.replicate 33 (9 : UInt8)).length = 33 := by decide
  obtain ⟨hfits, -⟩ := ofReveal_exact sampleSpent rfl [0x51]
    18446744073709551351 3 hsignature hproof
  obtain ⟨-, hoverflow⟩ := ofReveal_exact sampleSpent rfl [0x51]
    18446744073709551352 3 hsignature hproof
  exact ⟨hfits (by decide), hoverflow (by decide)⟩

end RevealQuote

end CoinSpend
