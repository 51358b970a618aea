/-!
Sums over lists.

* `sumOf f xs`: the sum of the numbers `f x` over the members of a list.
* `sumOf_append`: two lists one after the other add up.
-/

namespace CoinSpend

/-- The sum of the numbers `f x` over the members of a list. -/
def sumOf {α : Type} (f : α → Nat) : List α → Nat
  | [] => 0
  | x :: rest => f x + sumOf f rest

theorem sumOf_append {α : Type} (f : α → Nat) (xs ys : List α) :
    sumOf f (xs ++ ys) = sumOf f xs + sumOf f ys := by
  induction xs with
  | nil => simp [sumOf]
  | cons x rest ih => simp [sumOf, ih, Nat.add_assoc]

end CoinSpend
