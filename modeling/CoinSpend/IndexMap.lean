/-!
Texts by position.

* `IndexMap`: each position occurs once, in increasing order.
* `IndexMap.insert` and `IndexMap.ofList`: an entry put in takes the place of
  the entry at its position; `IndexMap.pairwise_insertEntry` keeps the order.
-/

namespace CoinSpend

/-- Texts by position, in the order of positions. -/
structure IndexMap where
  entries : List (UInt64 × String)
  sorted : entries.Pairwise fun a b => a.1 < b.1
  deriving DecidableEq

namespace IndexMap

/-- The map without entries. -/
def empty : IndexMap := ⟨[], .nil⟩

/-- The entries with one put in; it takes the place of an entry at the same
position. -/
def insertEntry (index : UInt64) (text : String) : List (UInt64 × String) → List (UInt64 × String)
  | [] => [(index, text)]
  | entry :: rest =>
    if index < entry.1 then (index, text) :: entry :: rest
    else if index = entry.1 then (index, text) :: rest
    else entry :: insertEntry index text rest

theorem fst_of_mem_insertEntry {index : UInt64} {text : String} {entry : UInt64 × String}
    {entries : List (UInt64 × String)} (h : entry ∈ insertEntry index text entries) :
    entry.1 = index ∨ entry ∈ entries := by
  induction entries with
  | nil => simp [insertEntry] at h; simp [h]
  | cons e rest ih =>
    simp only [insertEntry] at h
    split at h
    · rcases List.mem_cons.mp h with rfl | h
      · exact .inl rfl
      · exact .inr h
    · split at h
      · rcases List.mem_cons.mp h with rfl | h
        · exact .inl rfl
        · exact .inr (List.mem_cons_of_mem _ h)
      · rcases List.mem_cons.mp h with rfl | h
        · exact .inr List.mem_cons_self
        · exact (ih h).imp_right (List.mem_cons_of_mem _)

theorem pairwise_insertEntry (index : UInt64) (text : String) {entries : List (UInt64 × String)}
    (h : entries.Pairwise fun a b => a.1 < b.1) :
    (insertEntry index text entries).Pairwise fun a b => a.1 < b.1 := by
  induction entries with
  | nil => simp [insertEntry]
  | cons e rest ih =>
    obtain ⟨he, hrest⟩ := List.pairwise_cons.mp h
    simp only [insertEntry]
    split
    · rename_i hlt
      refine List.pairwise_cons.mpr ⟨fun b hb => ?_, h⟩
      rcases List.mem_cons.mp hb with rfl | hb
      · exact hlt
      · exact UInt64.lt_trans hlt (he b hb)
    · split
      · rename_i heq
        exact List.pairwise_cons.mpr ⟨fun b hb => heq ▸ he b hb, hrest⟩
      · rename_i hlt hne
        refine List.pairwise_cons.mpr ⟨fun b hb => ?_, ih hrest⟩
        rcases fst_of_mem_insertEntry hb with hb | hb
        · exact hb ▸ UInt64.lt_of_le_of_ne (UInt64.not_lt.mp hlt) fun h => hne h.symm
        · exact he b hb

/-- Puts an entry in. -/
def insert (map : IndexMap) (index : UInt64) (text : String) : IndexMap :=
  ⟨insertEntry index text map.entries, pairwise_insertEntry index text map.sorted⟩

/-- The map with these entries, later ones taking the place of earlier ones. -/
def ofList (entries : List (UInt64 × String)) : IndexMap :=
  entries.foldl (fun map entry => map.insert entry.1 entry.2) empty

/-- The text at a position. -/
def get? (map : IndexMap) (index : Nat) : Option String :=
  (map.entries.find? fun entry => entry.1.toNat = index).map Prod.snd

/-- The number of entries. -/
def size (map : IndexMap) : Nat :=
  map.entries.length

/-- The texts, in the order of positions. -/
def values (map : IndexMap) : List String :=
  map.entries.map Prod.snd

/-- Texts at the positions from zero on. -/
def ofValues (values : List String) : IndexMap :=
  ofList (values.zipIdx.map fun (text, index) => (UInt64.ofNat index, text))

end IndexMap

end CoinSpend
