import Mathlib.Tactic.Lemma
import CoinSpend.Json.Parser

/-!
Texts in documents.

* `Json.cases_of_escape`: the three forms of a character in a string literal.
* `Json.literalText?_literal`: a text is read back from its literal.
* `Json.IsLiteral`: a string literal that is taken as a whole up to its closing quote.
  `Json.isLiteral_literal`: the literal of every text is one.
-/

namespace CoinSpend

namespace Json

/-! ### The forms of a character -/

/-- The digits of a control character stand for its number. -/
lemma hexUnit?_control {n : Nat} (h : n < 0x20) :
    hexUnit? '0' '0' (hexChar (n / 16)) (hexChar (n % 16)) = some n :=
  (by decide : ∀ m : Fin 0x20,
    hexUnit? '0' '0' (hexChar (m.val / 16)) (hexChar (m.val % 16)) = some m.val) ⟨n, h⟩

/-- The three forms of a character in a string literal: behind a backslash, as the
number of a control character, and as it is. -/
lemma cases_of_escape (c : Char) :
    (∃ e, escape c = ['\\', e] ∧ e ≠ 'u' ∧ escaped? e = some c) ∨
      (∃ high low, escape c = ['\\', 'u', '0', '0', high, low] ∧ c.toNat < 0x20 ∧
        hexUnit? '0' '0' high low = some c.toNat) ∨
      (escape c = [c] ∧ 0x20 ≤ c.toNat ∧ c ≠ '"' ∧ c ≠ '\\') := by
  fun_cases escape c with
  | case1 | case2 | case3 | case4 | case5 | case6 | case7 =>
      exact .inl ⟨_, rfl, by decide, rfl⟩
  | case8 c _ _ _ _ _ _ _ hcontrol =>
      exact .inr (.inl ⟨_, _, rfl, hcontrol, hexUnit?_control hcontrol⟩)
  | case9 c hquote hbackslash _ _ _ _ _ hcontrol =>
      exact .inr (.inr ⟨rfl, Nat.le_of_not_lt hcontrol, hquote, hbackslash⟩)

/-- A digit stands as it is. -/
lemma escape_of_isDigit {c : Char} (h : isDigit c = true) : escape c = [c] := by
  fun_cases escape c with
  | case1 | case2 | case3 | case4 | case5 | case6 | case7 => exact absurd h (by decide)
  | case8 c _ _ _ _ _ _ _ hcontrol =>
      have hlow : 48 ≤ c.toNat := by
        rw [isDigit, Bool.and_eq_true, decide_eq_true_eq] at h
        exact h.1
      omega
  | case9 => rfl

/-! ### Reading the literal of a text -/

/-- A character is read back from its form. -/
lemma chars?_escape (c : Char) (rest : List Char) :
    chars? (escape c ++ rest) = (chars? rest).map (c :: ·) := by
  obtain ⟨e, heq, hu, hescaped⟩ | ⟨high, low, heq, hcontrol, hunit⟩ | ⟨heq, -, -, hbackslash⟩ :=
    cases_of_escape c
  · rw [heq, List.cons_append, List.cons_append, List.nil_append,
      chars?.eq_3 _ _ fun _ _ _ _ _ he => absurd he hu, hescaped]
    rfl
  · -- the number of a control character is no half of a pair
    have hhigh : isHighHalf c.toNat = false := by
      simp only [isHighHalf, Bool.and_eq_false_iff, decide_eq_false_iff_not]
      omega
    have hlow : isLowHalf c.toNat = false := by
      simp only [isLowHalf, Bool.and_eq_false_iff, decide_eq_false_iff_not]
      omega
    simp only [heq, List.cons_append, List.nil_append, chars?.eq_2, hunit, Option.bind_eq_bind,
      Option.bind_some, hhigh, hlow, Bool.false_eq_true, if_false, Char.ofNat_toNat]
  · rw [heq, List.singleton_append, chars?.eq_5]
    all_goals
      intros
      exact hbackslash ‹_›

/-- A text is read back from its literal. -/
lemma literalText?_literal (text : String) : literalText? (literal text) = some text := by
  have hchars (cs : List Char) : chars? (cs.flatMap escape) = some cs := by
    induction cs with
    | nil => rfl
    | cons c cs ih => rw [List.flatMap_cons, chars?_escape, ih, Option.map_some]
  rw [literalText?, literal, hchars, Option.map_some, String.ofList_toList]

/-! ### Literals up to their closing quote -/

/-- A string literal: it is taken as a whole up to the quote that closes it. -/
def IsLiteral (literal : List Char) : Prop :=
  ∀ rest, takeString? (literal ++ '"' :: rest) = some (literal, rest)

/-- The form of a character is taken off the front of a literal. -/
lemma takeString?_escape (c : Char) (rest : List Char) :
    takeString? (escape c ++ rest)
      = (takeString? rest).map fun taken => (escape c ++ taken.1, taken.2) := by
  obtain ⟨e, heq, hu, hescaped⟩ | ⟨high, low, heq, -, hunit⟩ | ⟨heq, hcontrol, hquote, hbackslash⟩ :=
    cases_of_escape c
  · rw [heq, List.cons_append, List.cons_append, List.nil_append,
      takeString?.eq_4 _ _ fun _ _ _ _ _ he => absurd he hu, hescaped]
    rfl
  · simp only [heq, List.cons_append, List.nil_append, takeString?.eq_3, hunit,
      Option.isSome_some, if_true]
  · have hplain : ¬(c.toNat < 0x20 ∨ c = '\\') :=
      not_or.mpr ⟨Nat.not_lt.mpr hcontrol, hbackslash⟩
    rw [heq, List.singleton_append, takeString?.eq_5 _ _ hquote, if_neg hplain]
    · rfl
    all_goals
      intros
      exact hbackslash ‹_›

/-- The literal of a text is one. -/
lemma isLiteral_literal (text : String) : IsLiteral (literal text) := by
  intro rest
  rw [literal]
  induction text.toList with
  | nil => rfl
  | cons c cs ih =>
      rw [List.flatMap_cons, List.append_assoc, takeString?_escape, ih, Option.map_some]

/-- Digits are the literal of their text. -/
lemma literal_of_digits {digits : List Char} (h : ∀ c ∈ digits, isDigit c = true) :
    literal (String.ofList digits) = digits := by
  rw [literal, String.toList_ofList]
  induction digits with
  | nil => rfl
  | cons c digits ih =>
      rw [List.flatMap_cons, escape_of_isDigit (h c List.mem_cons_self),
        ih fun d hd => h d (List.mem_cons_of_mem c hd), List.singleton_append]

end Json

end CoinSpend
