import Mathlib.Data.List.Nodup
import CoinSpend.Proofs.Outcome

/-!
Texts over an alphabet without repetition.

* `idxOf?_eq_some_iff`: a character and its position are the same thing.
* `mapM_idxOf?_eq_some_iff`: so are a text and the positions of its characters.
-/

namespace CoinSpend

variable (alphabet : List Char) (hnodup : alphabet.Nodup) (c₀ : Char)

include hnodup

/-- The position of a character is where the alphabet has this character. -/
lemma idxOf?_eq_some_iff {c : Char} {v : ℕ} :
    alphabet.idxOf? c = some v ↔ v < alphabet.length ∧ c = alphabet.getD v c₀ := by
  constructor
  · intro h
    obtain ⟨hlt, hget, -⟩ := List.idxOf?_eq_some_iff.mp h
    refine ⟨hlt, ?_⟩
    rw [← hget, List.getD_eq_getElem?_getD, List.getElem?_eq_getElem hlt, Option.getD_some]
  · rintro ⟨hlt, rfl⟩
    rw [List.getD_eq_getElem?_getD, List.getElem?_eq_getElem hlt, Option.getD_some]
    refine List.idxOf?_eq_some_iff.mpr ⟨hlt, rfl, fun j hj heq => ?_⟩
    exact Nat.ne_of_lt hj ((List.Nodup.getElem_inj_iff hnodup).mp heq)

/-- The positions of the characters of a text. -/
lemma mapM_idxOf?_eq_some_iff {chars : List Char} {values : List ℕ} :
    chars.mapM alphabet.idxOf? = some values ↔
      (∀ v ∈ values, v < alphabet.length) ∧ chars = values.map fun v => alphabet.getD v c₀ := by
  rw [mapM_eq_some_iff]
  constructor
  · intro h
    induction h with
    | nil => exact ⟨by simp, rfl⟩
    | cons hv _ ih =>
        obtain ⟨hlt, rfl⟩ := (idxOf?_eq_some_iff alphabet hnodup c₀).mp hv
        obtain ⟨hall, rfl⟩ := ih
        exact ⟨List.forall_mem_cons.mpr ⟨hlt, hall⟩, rfl⟩
  · rintro ⟨hall, rfl⟩
    rw [List.forall₂_map_left_iff, List.forall₂_same]
    exact fun v hv => (idxOf?_eq_some_iff alphabet hnodup c₀).mpr ⟨hall v hv, rfl⟩

end CoinSpend
