import Mathlib.Data.Int.Notation
import Mathlib.Data.Nat.Notation
import Mathlib.Tactic.Lemma
import CoinSpend.Json.Parser

/-!
Whole numbers in documents.

* `Json.natOfDigits_toDigits`: the decimal digits of a number stand for it.
* `Json.int?_toString`: a whole number is read back from its literal.
* `Json.IsNumber`: a literal that is taken as a whole off the front of whatever may
  follow a number, `Json.EndsNumber`. `Json.isNumber_toString`: every whole number is
  written as such a literal.
-/

namespace CoinSpend

namespace Json

/-! ### Digits -/

/-- The digits are those of the library. -/
lemma isDigit_eq (c : Char) : isDigit c = c.isDigit := rfl

lemma isDigit_of_mem_toDigits {n : ℕ} {c : Char} (h : c ∈ Nat.toDigits 10 n) :
    isDigit c = true := by
  rw [isDigit_eq]
  exact Nat.isDigit_of_mem_toDigits (by decide) (by decide) h

/-- The decimal digits of a number stand for it. -/
lemma natOfDigits_toDigits (n : ℕ) : natOfDigits (Nat.toDigits 10 n) = n :=
  Nat.ofDigitChars_ten_toDigits

/-- Only zero starts with the digit zero. -/
lemma eq_zero_of_toDigits {n : ℕ} {rest : List Char} (h : Nat.toDigits 10 n = '0' :: rest) :
    n = 0 := by
  induction n using Nat.strongRecOn generalizing rest with
  | ind n ih =>
      by_cases hn : n < 10
      · rw [Nat.toDigits_of_lt_base hn] at h
        have hdigits : natOfDigits [n.digitChar] = 0 := by
          rw [(List.cons.inj h).1]
          rfl
        rw [← Nat.toDigits_of_lt_base hn, natOfDigits_toDigits] at hdigits
        exact hdigits
      · -- the digits of a tenth stand in front
        rw [Nat.toDigits_of_base_le (by decide) (Nat.le_of_not_lt hn)] at h
        cases htenth : Nat.toDigits 10 (n / 10) with
        | nil => exact absurd htenth Nat.toDigits_ne_nil
        | cons c digits =>
            rw [htenth, List.cons_append] at h
            rw [(List.cons.inj h).1] at htenth
            have hzero := ih (n / 10) (by omega) htenth
            omega

/-- The characters of a natural number are its digits. -/
lemma toList_toString_nat (n : ℕ) : (toString n).toList = Nat.toDigits 10 n :=
  Nat.toList_repr

/-- A whole number is written as its digits, with a minus sign in front if it is
negative. -/
lemma toList_toString_int (n : ℤ) :
    (∃ m : ℕ, n = m ∧ (toString n).toList = Nat.toDigits 10 m) ∨
      ∃ m : ℕ, m ≠ 0 ∧ n = -m ∧ (toString n).toList = '-' :: Nat.toDigits 10 m := by
  cases n with
  | ofNat m => exact .inl ⟨m, rfl, Nat.toList_repr⟩
  | negSucc m =>
      refine .inr ⟨m + 1, Nat.succ_ne_zero m, rfl, ?_⟩
      have htext : toString (Int.negSucc m) = "-" ++ Nat.repr (m + 1) := rfl
      rw [htext, String.toList_append, Nat.toList_repr]
      rfl

/-! ### Numbers by their literals -/

/-- A natural number is read back from its literal. -/
lemma int?_toDigits (n : ℕ) : int? (Nat.toDigits 10 n) = some (n : ℤ) := by
  cases hdigits : Nat.toDigits 10 n with
  | nil => exact absurd hdigits Nat.toDigits_ne_nil
  | cons c digits =>
      have hall : (c :: digits).all isDigit = true := by
        rw [← hdigits, List.all_eq_true]
        exact fun _ => isDigit_of_mem_toDigits
      have hvalue : natOfDigits (c :: digits) = n := by
        rw [← hdigits, natOfDigits_toDigits]
      have hne : c ≠ '-' := by
        rintro rfl
        simp [isDigit] at hall
      rw [int?.eq_3 _ _ hne, if_pos hall, hvalue]

/-- A whole number is read back from its literal. -/
lemma int?_toString (n : ℤ) : int? (toString n).toList = some n := by
  obtain ⟨m, rfl, hdigits⟩ | ⟨m, hm, rfl, hdigits⟩ := toList_toString_int n
  · rw [hdigits, int?_toDigits]
  · have hall : (Nat.toDigits 10 m).all isDigit = true :=
      List.all_eq_true.mpr fun _ => isDigit_of_mem_toDigits
    have hvalue := natOfDigits_toDigits m
    rw [hdigits, int?, if_pos ⟨Nat.toDigits_ne_nil, hall, by rwa [hvalue]⟩, hvalue]

/-! ### Literals in front of a text -/

/-- What may follow a number: nothing, or a character that does not go on with
it. -/
def EndsNumber (rest : List Char) : Prop :=
  ∀ c ∈ rest.head?, isDigit c = false ∧ c ≠ '.' ∧ c ≠ 'e' ∧ c ≠ 'E'

/-- A number starts with a minus sign or a digit. -/
def startsNumber (c : Char) : Bool :=
  c == '-' || isDigit c

/-- No other character starts a number. -/
lemma ne_of_startsNumber {c d : Char} (hc : startsNumber c = true) (hd : startsNumber d = false) :
    c ≠ d := by
  rintro rfl
  exact absurd (hc.symm.trans hd) (by decide)

/-- A number literal: it starts like one, and it is taken as a whole off the front of
whatever may follow. -/
structure IsNumber (literal : List Char) : Prop where
  head : ∀ c ∈ literal.head?, startsNumber c = true
  ne_nil : literal ≠ []
  takes : ∀ rest, EndsNumber rest → takeNumber? (literal ++ rest) = some (literal, rest)

variable {rest : List Char}

/-- Digits are taken up to the first character that is none. -/
lemma takeDigits?_append {digits : List Char} (hne : digits ≠ [])
    (hdigits : ∀ c ∈ digits, isDigit c = true) (hrest : EndsNumber rest) :
    takeDigits? (digits ++ rest) = some (digits, rest) := by
  have htake : (digits ++ rest).takeWhile isDigit = digits := by
    rw [List.takeWhile_append_of_pos hdigits]
    cases rest with
    | nil => rw [List.takeWhile_nil, List.append_nil]
    | cons c rest =>
        rw [List.takeWhile_cons_of_neg (by simp [(hrest c rfl).1]), List.append_nil]
  have hdrop : (digits ++ rest).dropWhile isDigit = rest := by
    rw [List.dropWhile_append_of_pos hdigits]
    cases rest with
    | nil => rfl
    | cons c rest => exact List.dropWhile_cons_of_neg (by simp [(hrest c rfl).1])
  rw [takeDigits?, htake, hdrop]
  cases digits with
  | nil => exact absurd rfl hne
  | cons c digits => rfl

/-- The digits of a number are taken. -/
lemma takeWhole?_toDigits (n : ℕ) (hrest : EndsNumber rest) :
    takeWhole? (Nat.toDigits 10 n ++ rest) = some (Nat.toDigits 10 n, rest) := by
  by_cases hzero : n = 0
  · rw [hzero]
    rfl
  · have htake := takeDigits?_append Nat.toDigits_ne_nil
      (fun _ => isDigit_of_mem_toDigits (n := n)) hrest
    cases hdigits : Nat.toDigits 10 n with
    | nil => exact absurd hdigits Nat.toDigits_ne_nil
    | cons c digits =>
        have hne : c ≠ '0' := fun heq => hzero (eq_zero_of_toDigits (heq ▸ hdigits))
        rw [hdigits] at htake
        rw [List.cons_append, takeWhole?.eq_2 _ (by simpa using hne), ← List.cons_append, htake]

/-- There is no fraction where a number ends. -/
lemma takeFraction?_of_endsNumber (hrest : EndsNumber rest) :
    takeFraction? rest = some ([], rest) := by
  cases rest with
  | nil => rfl
  | cons c rest =>
      rw [takeFraction?.eq_2 _ (by simpa using (hrest c rfl).2.1)]

/-- Nor is there an exponent. -/
lemma takeExponent?_of_endsNumber (hrest : EndsNumber rest) :
    takeExponent? rest = some ([], rest) := by
  cases rest with
  | nil => rfl
  | cons c rest =>
      obtain ⟨-, -, he, hE⟩ := hrest c rfl
      rw [takeExponent?, if_neg (not_or.mpr ⟨he, hE⟩)]

/-- The digits of a number, with or without a minus sign, are a literal. -/
lemma isNumber_toDigits (n : ℕ) :
    IsNumber (Nat.toDigits 10 n) ∧ IsNumber ('-' :: Nat.toDigits 10 n) := by
  have htakes (minus : List Char) (rest : List Char) (hrest : EndsNumber rest)
      (hminus : takeMinus (minus ++ (Nat.toDigits 10 n ++ rest))
        = (minus, Nat.toDigits 10 n ++ rest)) :
      takeNumber? (minus ++ (Nat.toDigits 10 n ++ rest))
        = some (minus ++ Nat.toDigits 10 n, rest) := by
    simp only [takeNumber?, hminus, takeWhole?_toDigits n hrest,
      takeFraction?_of_endsNumber hrest, takeExponent?_of_endsNumber hrest, Option.bind_eq_bind,
      Option.bind_some, Option.pure_def, List.append_nil]
  have hhead : ∀ c ∈ (Nat.toDigits 10 n).head?, isDigit c = true :=
    fun c hc => isDigit_of_mem_toDigits (List.mem_of_mem_head? hc)
  have hstarts : ∀ c ∈ (Nat.toDigits 10 n).head?, startsNumber c = true := by
    intro c hc
    rw [startsNumber, hhead c hc, Bool.or_true]
  refine ⟨⟨hstarts, Nat.toDigits_ne_nil, fun rest hrest => ?_⟩,
    ⟨by simp [startsNumber], List.cons_ne_nil _ _,
      fun rest hrest => htakes ['-'] rest hrest rfl⟩⟩
  refine htakes [] rest hrest ?_
  cases hdigits : Nat.toDigits 10 n with
  | nil => exact absurd hdigits Nat.toDigits_ne_nil
  | cons c digits =>
      have hne : c ≠ '-' := by
        rintro rfl
        rw [hdigits] at hhead
        exact absurd (hhead '-' rfl) (by decide)
      exact takeMinus.eq_2 _ (by simpa using hne)

/-- Every whole number is written as a number literal. -/
lemma isNumber_toString (n : ℤ) : IsNumber (toString n).toList := by
  obtain ⟨m, -, hdigits⟩ | ⟨m, -, -, hdigits⟩ := toList_toString_int n
  · rw [hdigits]
    exact (isNumber_toDigits m).1
  · rw [hdigits]
    exact (isNumber_toDigits m).2

end Json

end CoinSpend
