import Mathlib.Data.List.Forall2
import Mathlib.Tactic.Lemma
import CoinSpend.Sum

/-!
Sums over lists, compared.

* `sumOf_eq_mul`, `sumOf_map`, `sumOf_add`, `sumOf_mul`: a sum of one number, a sum
  over images, two sums over one list, and a multiple of a sum.
* `sumOf_indicator`: a sum of ones is a count. `count_eq_countP`: members of a class are
  counted by the class of each. `length_flatMap_eq`: lists one after the other have the
  sum of their lengths.
* `sumOf_congr`, `sumOf_congr_forall₂`, `sumOf_le_forall₂`, `sumOf_le_add_forall₂`: sums
  that agree, or are bounded, member by member.
-/

namespace CoinSpend

variable {α β : Type}

lemma sumOf_eq_mul {f : α → ℕ} {c : ℕ} {xs : List α} (h : ∀ x ∈ xs, f x = c) :
    sumOf f xs = c * xs.length := by
  induction xs with
  | nil => rfl
  | cons x xs ih =>
      have hrest := ih fun y hy => h y (List.mem_cons_of_mem _ hy)
      calc sumOf f (x :: xs) = c + c * xs.length := by
            rw [sumOf, h x List.mem_cons_self, hrest]
        _ = c * (x :: xs).length := by
            rw [List.length_cons, Nat.mul_succ, Nat.add_comm]

lemma sumOf_map (f : β → ℕ) (g : α → β) (xs : List α) :
    sumOf f (xs.map g) = sumOf (fun x => f (g x)) xs := by
  induction xs with
  | nil => rfl
  | cons x xs ih => rw [List.map_cons, sumOf, sumOf, ih]

lemma sumOf_add (f g : α → ℕ) (xs : List α) :
    sumOf f xs + sumOf g xs = sumOf (fun x => f x + g x) xs := by
  induction xs with
  | nil => rfl
  | cons x xs ih =>
      simp only [sumOf]
      omega

lemma sumOf_mul (c : ℕ) (f : α → ℕ) (xs : List α) :
    sumOf (fun x => c * f x) xs = c * sumOf f xs := by
  induction xs with
  | nil => rfl
  | cons x xs ih => rw [sumOf, sumOf, ih, Nat.mul_add]

/-- A one for each member with a property counts these members. -/
lemma sumOf_indicator (p : α → Bool) (xs : List α) :
    sumOf (fun x => if p x then 1 else 0) xs = xs.countP p := by
  induction xs with
  | nil => rfl
  | cons x xs ih => rw [sumOf, ih, List.countP_cons, Nat.add_comm]

/-- If every member is in one class, those in a class are as many as the class is named. -/
lemma count_eq_countP [DecidableEq β] {p : β → α → Bool}
    (hp : ∀ a b b', p b a → p b' a = decide (b = b')) {xs : List α} {classes : List β}
    (h : List.Forall₂ (fun x b => p b x) xs classes) (b : β) :
    classes.count b = xs.countP (p b) := by
  induction h with
  | nil => rfl
  | @cons x b' _ _ hx _ ih =>
      rw [List.count_cons, List.countP_cons, ih, hp x b' b hx]
      simp only [beq_iff_eq, decide_eq_true_eq]

/-- What is written for each member, one after the other, has the sum of the sizes. -/
lemma length_flatMap_eq {write : α → List β} {size : α → ℕ} (h : ∀ x, (write x).length = size x)
    (xs : List α) : (xs.flatMap write).length = sumOf size xs := by
  induction xs with
  | nil => rfl
  | cons x xs ih => rw [List.flatMap_cons, List.length_append, h, ih, sumOf]

/-- Counterparts with one number each add up to one sum. -/
lemma sumOf_congr_forall₂ {f : α → ℕ} {g : β → ℕ} {xs : List α} {ys : List β}
    (h : List.Forall₂ (fun x y => f x = g y) xs ys) : sumOf f xs = sumOf g ys := by
  induction h with
  | nil => rfl
  | cons hxy _ ih => rw [sumOf, sumOf, hxy, ih]

lemma sumOf_congr {f g : α → ℕ} {xs : List α} (h : ∀ x ∈ xs, f x = g x) :
    sumOf f xs = sumOf g xs :=
  sumOf_congr_forall₂ (List.forall₂_same.mpr h)

/-- Counterparts with no larger numbers add up to no larger sum. -/
lemma sumOf_le_forall₂ {f : α → ℕ} {g : β → ℕ} {xs : List α} {ys : List β}
    (h : List.Forall₂ (fun x y => f x ≤ g y) xs ys) : sumOf f xs ≤ sumOf g ys := by
  induction h with
  | nil => exact Nat.le_refl 0
  | cons hxy _ ih => exact Nat.add_le_add hxy ih

/-- Counterparts that exceed each other by some numbers do so, in sum, by the sum of
these numbers. -/
lemma sumOf_le_add_forall₂ {f : α → ℕ} {g : β → ℕ} {e : α × β → ℕ} {xs : List α} {ys : List β}
    (h : List.Forall₂ (fun x y => f x ≤ g y + e (x, y)) xs ys) :
    sumOf f xs ≤ sumOf g ys + sumOf e (xs.zip ys) := by
  induction h with
  | nil => exact Nat.le_refl 0
  | cons hxy _ ih =>
      rw [List.zip_cons_cons, sumOf, sumOf, sumOf]
      omega

end CoinSpend
