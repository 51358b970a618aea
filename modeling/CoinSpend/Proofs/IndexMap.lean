import Mathlib.Data.Nat.Notation
import Mathlib.Tactic.Lemma
import CoinSpend.IndexMap

/-!
Maps by position hold what was put in.

* `IndexMap.entries_ofList`: entries at increasing positions are put in as they
  are.
* `IndexMap.get?_eq_some_of_mem`: every entry is found at its position.
* `IndexMap.positions_ofValues`, `IndexMap.values_ofValues`,
  `IndexMap.get?_ofValues`: a list of texts, no longer than there are positions,
  is held in its order, at the positions from zero on.
-/

namespace CoinSpend

namespace IndexMap

/-! ### Entries -/

/-- An entry beyond all others goes to the end. -/
lemma insertEntry_of_forall_lt {index : UInt64} {text : String}
    {entries : List (UInt64 × String)} (h : ∀ entry ∈ entries, entry.1 < index) :
    insertEntry index text entries = entries ++ [(index, text)] := by
  induction entries with
  | nil => rfl
  | cons first rest ih =>
      have hfirst := h first List.mem_cons_self
      have hrest := ih fun entry hentry => h entry (List.mem_cons_of_mem _ hentry)
      rw [insertEntry, if_neg (UInt64.lt_asymm hfirst),
        if_neg fun heq => UInt64.lt_irrefl _ (heq ▸ hfirst), hrest, List.cons_append]

/-- Entries at increasing positions are put in as they are. -/
lemma entries_ofList {entries : List (UInt64 × String)}
    (h : entries.Pairwise fun a b => a.1 < b.1) : (ofList entries).entries = entries := by
  -- on the way the entries seen so far lie before those to come
  suffices hfold : ∀ map : IndexMap, (∀ a ∈ map.entries, ∀ b ∈ entries, a.1 < b.1) →
      (entries.foldl (fun map entry => map.insert entry.1 entry.2) map).entries
        = map.entries ++ entries by
    exact hfold empty fun a ha => absurd ha List.not_mem_nil
  induction entries with
  | nil => simp
  | cons entry rest ih =>
      obtain ⟨hentry, hrest⟩ := List.pairwise_cons.mp h
      intro map hmap
      have hinsert : (map.insert entry.1 entry.2).entries = map.entries ++ [entry] :=
        insertEntry_of_forall_lt fun a ha => hmap a ha entry List.mem_cons_self
      have hbefore : ∀ a ∈ (map.insert entry.1 entry.2).entries, ∀ b ∈ rest, a.1 < b.1 := by
        intro a ha b hb
        rw [hinsert, List.mem_append, List.mem_singleton] at ha
        rcases ha with ha | rfl
        · exact hmap a ha b (List.mem_cons_of_mem _ hb)
        · exact hentry b hb
      rw [List.foldl_cons, ih hrest _ hbefore, hinsert, List.append_assoc, List.singleton_append]

/-- Every entry is found at its position. -/
lemma get?_eq_some_of_mem {map : IndexMap} {entry : UInt64 × String} (h : entry ∈ map.entries) :
    map.get? entry.1.toNat = some entry.2 := by
  obtain ⟨entries, sorted⟩ := map
  induction entries with
  | nil => cases h
  | cons first rest ih =>
      obtain ⟨hfirst, hrest⟩ := List.pairwise_cons.mp sorted
      rcases List.mem_cons.mp h with rfl | hmem
      · simp [get?]
      · have hne : first.1.toNat ≠ entry.1.toNat :=
          Nat.ne_of_lt (UInt64.lt_iff_toNat_lt.mp (hfirst entry hmem))
        have hget := ih hrest hmem
        rw [get?] at hget ⊢
        simpa [List.find?_cons, hne] using hget

/-! ### Texts in order -/

variable {values : List String}

/-- Texts no more than there are positions are held as they stand. -/
lemma entries_ofValues (h : values.length ≤ UInt64.size) :
    (ofValues values).entries
      = values.zipIdx.map fun (text, index) => (UInt64.ofNat index, text) := by
  refine entries_ofList (List.pairwise_iff_getElem.mpr fun i j hi hj hij => ?_)
  have hj' : j < UInt64.size := by
    simp only [List.length_map, List.length_zipIdx] at hj
    omega
  rw [UInt64.lt_iff_toNat_lt]
  simpa [UInt64.toNat_ofNat_of_lt' hj', UInt64.toNat_ofNat_of_lt' (Nat.lt_trans hij hj')] using hij

/-- The positions are those from zero on. -/
lemma positions_ofValues (h : values.length ≤ UInt64.size) :
    (ofValues values).entries.map (fun entry => entry.1.toNat) = List.range values.length := by
  rw [entries_ofValues h]
  refine List.ext_getElem (by simp) fun i hi _ => ?_
  have hi' : i < UInt64.size := by
    simp only [List.length_map, List.length_zipIdx] at hi
    omega
  simp [UInt64.toNat_ofNat_of_lt' hi']

/-- The texts are held in their order. -/
lemma values_ofValues (h : values.length ≤ UInt64.size) : (ofValues values).values = values := by
  rw [IndexMap.values, entries_ofValues h, List.map_map]
  exact List.zipIdx_map_fst 0 values

/-- A text is found at its position. -/
lemma get?_ofValues (h : values.length ≤ UInt64.size) (i : ℕ) :
    (ofValues values).get? i = values[i]? := by
  cases hi : values[i]? with
  | some text =>
      have hlt : i < UInt64.size :=
        Nat.lt_of_lt_of_le (List.getElem?_eq_some_iff.mp hi).1 h
      have hmem : (UInt64.ofNat i, text) ∈ (ofValues values).entries := by
        rw [entries_ofValues h, List.mem_map]
        exact ⟨(text, i), List.mem_zipIdx_iff_getElem?.mpr hi, rfl⟩
      simpa [UInt64.toNat_ofNat_of_lt' hlt] using get?_eq_some_of_mem hmem
  | none =>
      rw [get?, Option.map_eq_none_iff, List.find?_eq_none]
      intro entry hentry
      have hposition : entry.1.toNat ∈ List.range values.length :=
        positions_ofValues h ▸ List.mem_map_of_mem hentry
      have hlength := List.getElem?_eq_none_iff.mp hi
      rw [List.mem_range] at hposition
      simp only [decide_eq_true_eq]
      omega

end IndexMap

end CoinSpend
