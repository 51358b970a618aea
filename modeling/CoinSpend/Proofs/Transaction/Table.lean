import Mathlib.Data.List.Nodup
import CoinSpend.Proofs.Sum
import CoinSpend.Transaction.Basic

/-!
What is found in a table of outputs.

* `OutPoint.Table.get?_map`: a fact that is read off another one is found with it.
  `OutPoint.Table.exists_get?_of_forall₂`: in tables that agree entry by entry
  counterparts are found.
* `OutPoint.Table.get?_eq_some_of_mem`: of entries for different outputs each is
  found, so that `OutPoint.Table.sumOf_get?` what is found adds up to what was put
  in.
-/

namespace CoinSpend

namespace OutPoint.Table

variable {α β : Type} {table : Table α}

/-- A fact that is read off another one is found with it. -/
lemma get?_map (f : α → β) (table : Table α) (outpoint : OutPoint) :
    get? (table.map fun entry => (entry.1, f entry.2)) outpoint = (table.get? outpoint).map f := by
  rw [get?, get?, ← List.map_reverse]
  induction table.reverse with
  | nil => rfl
  | cons entry rest ih =>
      rw [List.map_cons, List.lookup_cons, List.lookup_cons, ih]
      split <;> rfl

/-- What is found is the fact of an entry. -/
lemma mem_of_get? {outpoint : OutPoint} {a : α} (h : table.get? outpoint = some a) :
    (outpoint, a) ∈ table := by
  obtain ⟨before, after, hsplit, -⟩ := List.lookup_eq_some_iff.mp h
  rw [← List.mem_reverse, hsplit]
  exact List.mem_append_right _ List.mem_cons_self

/-- What is looked up in a list has its counterpart in one that agrees with it. -/
lemma exists_lookup_of_forall₂ {R : α → β → Prop} {table : Table α} {other : Table β}
    (h : List.Forall₂ (fun entry counterpart => entry.1 = counterpart.1 ∧
      R entry.2 counterpart.2) table other)
    {outpoint : OutPoint} {b : β} (hb : List.lookup outpoint other = some b) :
    ∃ a, List.lookup outpoint table = some a ∧ R a b := by
  induction h with
  | nil => cases hb
  | @cons entry counterpart _ _ hentry _ ih =>
      obtain ⟨heq, hrel⟩ := hentry
      rw [List.lookup_cons, ← heq] at hb
      rw [List.lookup_cons]
      cases hfound : outpoint == entry.1 with
      | true =>
          rw [hfound] at hb
          exact ⟨entry.2, rfl, Option.some.inj hb ▸ hrel⟩
      | false =>
          rw [hfound] at hb
          exact ih hb

/-- What is found in a table has its counterpart found in one that agrees with it. -/
lemma exists_get?_of_forall₂ {R : α → β → Prop} {table : Table α} {other : Table β}
    (h : List.Forall₂ (fun entry counterpart => entry.1 = counterpart.1 ∧
      R entry.2 counterpart.2) table other)
    {outpoint : OutPoint} {b : β} (hb : other.get? outpoint = some b) :
    ∃ a, table.get? outpoint = some a ∧ R a b :=
  exists_lookup_of_forall₂ (List.forall₂_reverse_iff.mpr h) hb

/-- Of entries for different outputs each is found. -/
lemma get?_eq_some_of_mem {outpoint : OutPoint} {a : α} (hdistinct : (table.map Prod.fst).Nodup)
    (h : (outpoint, a) ∈ table) : table.get? outpoint = some a := by
  obtain ⟨b, hget, hmem⟩ := exists_get?_of_mem h
  obtain ⟨-, rfl⟩ := Prod.mk.inj (List.inj_on_of_nodup_map hdistinct hmem h rfl)
  exact hget

/-- What is found at different outputs adds up to what was put in. -/
lemma sumOf_get? (f : α → ℕ) (hdistinct : (table.map Prod.fst).Nodup) :
    sumOf (fun outpoint => (table.get? outpoint).elim 0 f) (table.map Prod.fst)
      = sumOf (fun entry => f entry.2) table := by
  rw [sumOf_map]
  refine sumOf_congr fun entry hentry => ?_
  rw [get?_eq_some_of_mem hdistinct hentry]
  rfl

end OutPoint.Table

end CoinSpend
