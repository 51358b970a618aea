import CoinSpend.Inscription.Commit
import CoinSpend.Proofs.Inscription.Plan
import CoinSpend.Proofs.Inscription.Quote

/-!
What quoted reveals and funded commit transactions hold.

* `QuotedReveals.Quotes`: the reveals of a plan stand in the order of its items
  and spend the outputs at their positions; each has its quote.
* `FundedCommit.Funds`: the commit transaction locks the quoted values in the
  order of the items, with at most one change output behind them; funds, outputs
  and fee add up.
* `QuotedReveals.quotes_of_ofPlan`, `FundedCommit.funds_of_ofQuoted`: this is so
  whenever the step succeeds.
-/

namespace CoinSpend

/-! ### Quotes -/

namespace QuotedReveals

/-- The quote of an item that stands at a position. -/
def QuoteOf (plan : InscriptionPlan) (entry : PlannedItem × ℕ) (quote : RevealQuote) : Prop :=
  quote.Covers (blankReveal plan entry.2 entry.1) entry.1.output.envelope plan.revealValue
    plan.revealFeeRate

/-- The reveals of a plan with their quotes. -/
structure Quotes (plan : InscriptionPlan) (quoted : QuotedReveals) : Prop where
  plan_eq : quoted.plan = plan
  reveals_eq : quoted.reveals
    = plan.items.zipIdx.map fun entry => blankReveal plan entry.2 entry.1
  quotes : List.Forall₂ (QuoteOf plan) plan.items.zipIdx quoted.quotes
  lt_size : ∀ i < plan.items.length, i < UInt32.size

/-- The reveals from a position on with their quotes. -/
lemma quoteFrom_eq_ok {plan : InscriptionPlan} {index : ℕ} {items : List PlannedItem}
    {quoted : List (Transaction × RevealQuote)} (h : quoteFrom plan index items = .ok quoted) :
    quoted.map Prod.fst
        = (items.zipIdx index).map (fun entry => blankReveal plan entry.2 entry.1) ∧
      List.Forall₂ (QuoteOf plan) (items.zipIdx index) (quoted.map Prod.snd) ∧
      ∀ i < items.length, index + i < UInt32.size := by
  induction items generalizing index quoted with
  | nil =>
      rw [quoteFrom] at h
      cases h
      exact ⟨rfl, .nil, by simp⟩
  | cons item rest ih =>
      rw [quoteFrom] at h
      split_ifs at h with hsize
      simp only [bind_eq_ok_iff, pure_eq_ok_iff, RevealQuote.ofReveal_eq_ok_iff] at h
      obtain ⟨quote, hquote, others, hothers, rfl⟩ := h
      obtain ⟨hreveals, hquotes, hlt⟩ := ih hothers
      refine ⟨?_, .cons hquote hquotes, fun i hi => ?_⟩
      · rw [List.map_cons, List.zipIdx_cons, List.map_cons, hreveals]
      · cases i with
        | zero => omega
        | succ i =>
            have := hlt i (by simpa using hi)
            omega

/-- A plan that is quoted has its reveals and quotes in order. -/
lemma quotes_of_ofPlan {plan : InscriptionPlan} {quoted : QuotedReveals}
    (h : ofPlan plan = .ok quoted) : Quotes plan quoted := by
  simp only [ofPlan, bind_eq_ok_iff, pure_eq_ok_iff] at h
  obtain ⟨entries, hentries, rfl⟩ := h
  obtain ⟨hreveals, hquotes, hlt⟩ := quoteFrom_eq_ok hentries
  exact ⟨rfl, hreveals, hquotes, fun i hi => by simpa using hlt i hi⟩

/-- There is one quote for each item. -/
lemma Quotes.length_quotes {plan : InscriptionPlan} {quoted : QuotedReveals}
    (h : Quotes plan quoted) : quoted.quotes.length = plan.items.length := by
  rw [← h.quotes.length_eq, List.length_zipIdx]

end QuotedReveals

/-! ### Funding -/

namespace FundedCommit

open QuotedReveals (Quotes QuoteOf)

/-- Whatever the change, the output at the position of an item locks the value
of its quote with the script that commits to its envelope. -/
lemma exists_output_of_item {plan : InscriptionPlan} {quoted : QuotedReveals} {i : ℕ}
    {item : PlannedItem} (h : Quotes plan quoted) (change : Option Amount)
    (hitem : plan.items[i]? = some item) :
    ∃ quote, quoted.quotes[i]? = some quote ∧ QuoteOf plan (item, i) quote ∧
      (commitWith quoted change).outputs[i]?
        = some ⟨quote.lockedValue, item.output.lockScript⟩ := by
  have hentry : plan.items.zipIdx[i]? = some (item, i) := by simp [hitem]
  obtain ⟨quote, hquote, hof⟩ := exists_getElem?_of_forall₂ h.quotes hentry
  have hreveal : (revealOutputs quoted)[i]?
      = some ⟨quote.lockedValue, item.output.lockScript⟩ := by
    rw [revealOutputs, h.plan_eq, List.getElem?_zipWith, hitem, hquote]
  obtain ⟨hi, -⟩ := List.getElem?_eq_some_iff.mp hreveal
  exact ⟨quote, hquote, hof, by rw [commitWith, List.getElem?_append_left hi, hreveal]⟩

/-- A commit transaction that pays for quoted reveals. -/
structure Funds (quoted : QuotedReveals) (funded : FundedCommit) (change : Option Amount) :
    Prop where
  plan_eq : funded.plan = quoted.plan
  reveals_eq : funded.reveals = quoted.reveals
  commitTx_eq : funded.commitTx = commitWith quoted change
  minChange_le : ∀ value ∈ change, quoted.plan.minChange ≤ value
  balance : Amount.total quoted.plan.amounts
    = Amount.total quoted.lockedValues + Amount.total change.toList + funded.commitFee.toNat
  total_lt : Amount.total quoted.plan.amounts < UInt64.size

/-- What is left of the funds is a difference of amounts when they cover the
rest. -/
lemma toNat_sub_of_total {totalIn totalLocked : Amount} (h : totalLocked.toNat ≤ totalIn.toNat) :
    (totalIn - totalLocked).toNat = totalIn.toNat - totalLocked.toNat :=
  UInt64.toNat_sub_of_le _ _ (UInt64.le_iff_toNat_le.mpr h)

/-- So is what is left once the fee is taken off as well. -/
lemma toNat_sub_sub {totalIn totalLocked fee : Amount}
    (h : totalLocked.toNat + fee.toNat ≤ totalIn.toNat) :
    (totalIn - totalLocked - fee).toNat = totalIn.toNat - totalLocked.toNat - fee.toNat := by
  have hrest : (totalIn - totalLocked).toNat = totalIn.toNat - totalLocked.toNat :=
    toNat_sub_of_total (by omega)
  calc (totalIn - totalLocked - fee).toNat
      = (totalIn - totalLocked).toNat - fee.toNat := toNat_sub_of_total (by omega)
    _ = totalIn.toNat - totalLocked.toNat - fee.toNat := by rw [hrest]

/-- Funds that are found to cover the reveals do cover them. -/
lemma le_of_ensureCovered {quoted : QuotedReveals} {totalIn totalLocked fee : Amount}
    (h : ensureCovered quoted totalIn totalLocked fee = .ok ()) :
    totalLocked.toNat ≤ totalIn.toNat := by
  simp only [ensureCovered, bind_eq_ok_iff, Amount.checked_eq_ok_iff] at h
  obtain ⟨feeWithoutChange, -, required, hrequired, h⟩ := h
  split_ifs at h with hlt
  rw [UInt64.lt_iff_toNat_lt] at hlt
  omega

/-- Every way in which a commit transaction is funded. -/
lemma funds_of_ofQuoted {quoted : QuotedReveals} {funded : FundedCommit}
    (h : ofQuoted quoted = .ok funded) : ∃ change, Funds quoted funded change := by
  simp only [ofQuoted, bind_eq_ok_iff, Amount.checkedTotal_eq_ok_iff] at h
  obtain ⟨totalIn, hin, totalLocked, hlocked, fee, -, h⟩ := h
  have hlt := totalIn.toNat_lt
  have hnone (hle : totalLocked.toNat ≤ totalIn.toNat) :
      Funds quoted (withoutChange quoted totalIn totalLocked) none := by
    refine ⟨rfl, rfl, rfl, by simp, ?_, by rw [← hin]; exact hlt⟩
    have hfee := toNat_sub_of_total hle
    simp only [withoutChange, Option.toList_none, Amount.total, sumOf] at hin hlocked hfee ⊢
    omega
  split_ifs at h with hcovers hchange
  · -- the change reaches its least value
    cases h
    refine ⟨some (totalIn - totalLocked - fee), rfl, rfl, rfl, by simpa using hchange, ?_,
      by rw [← hin]; exact hlt⟩
    have hvalue := toNat_sub_sub hcovers
    simp only [withChange, Option.toList_some, Amount.total, sumOf] at hin hlocked hvalue ⊢
    omega
  · cases h
    exact ⟨none, hnone (by omega)⟩
  · simp only [bind_eq_ok_iff] at h
    obtain ⟨⟨⟩, hcovered, h⟩ := h
    cases h
    exact ⟨none, hnone (le_of_ensureCovered hcovered)⟩

end FundedCommit

end CoinSpend
