import CoinSpend.Sum

/-!
Amounts of coin, in the smallest unit.

* `Amount`: a 64-bit word; `Amount.ofNat?` refuses a number that does not fit.
* `Amount.total`: the exact sum of a list. A partial sum never exceeds the
  whole, so that checking the whole is as strict as checking after every term.
* `Amount.text`: the wording of an amount in messages.
-/

namespace CoinSpend

/-- An amount in the smallest unit of its chain. -/
abbrev Amount := UInt64

namespace Amount

/-- The amount of this many units, if it fits. -/
def ofNat? (n : Nat) : Option Amount :=
  if h : n < UInt64.size then some (UInt64.ofNatLT n h) else none

theorem toNat_of_ofNat? {n : Nat} {a : Amount} (h : ofNat? n = some a) : a.toNat = n := by
  unfold ofNat? at h
  split at h
  · cases h; simp
  · simp at h

theorem ofNat?_eq_none_iff {n : Nat} : ofNat? n = none ↔ UInt64.size ≤ n := by
  unfold ofNat?
  split <;> simp <;> omega

/-- The exact sum of a list of amounts. -/
def total (amounts : List Amount) : Nat :=
  sumOf UInt64.toNat amounts

/-- Units in one whole coin. -/
def unitsPerCoin : Nat :=
  100000000

/-- The decimal text of a number with at least `width` digits. -/
def padded (width n : Nat) : String :=
  let digits := toString n
  String.ofList (List.replicate (width - digits.length) '0') ++ digits

/-- An amount in whole coins, with eight decimals unless it is a whole
number of coins. -/
def text (a : Amount) : String :=
  let n := a.toNat
  if n % unitsPerCoin = 0 then s!"{n / unitsPerCoin} BTC"
  else s!"{n / unitsPerCoin}.{padded 8 (n % unitsPerCoin)} BTC"

end Amount

end CoinSpend
