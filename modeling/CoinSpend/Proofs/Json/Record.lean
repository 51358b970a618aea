import CoinSpend.Json.Record
import CoinSpend.Proofs.Bytes.Hex
import CoinSpend.Proofs.Json.RoundTrip
import CoinSpend.Proofs.Outcome

/-!
Values are read back from documents.

* `LawfulJsonForm`: a type whose values are written as documents with literals in
  them, and are read back from these. `JsonForm.read?_write`: then they are read back
  from their texts.
* Instances for texts, truth values, numbers, lists and identifiers, and for optional
  values of a type that is never written as nothing, `NeverNull`.
* `Json.record?_ofFields`: a record is read back field by field if its fields have the
  names of its specification, and different ones.
-/

namespace CoinSpend

open JsonForm (toJson ofJson? read? write)
open Json (WellWritten)

/-- A form from which every value is read back. -/
class LawfulJsonForm (α : Type) [JsonForm α] : Prop where
  wellWritten (a : α) : (toJson a).WellWritten
  ofJson?_toJson (a : α) : ofJson? (toJson a) = some a

/-- A form in which no value is nothing. -/
class NeverNull (α : Type) [JsonForm α] : Prop where
  toJson_ne_null (a : α) : toJson a ≠ .null

open LawfulJsonForm (wellWritten ofJson?_toJson)

attribute [simp] ofJson?_toJson

/-- A value is read back from its text. -/
lemma JsonForm.read?_write {α : Type} [JsonForm α] [LawfulJsonForm α] (a : α) :
    read? (write a) = some a := by
  rw [read?, write, Json.parse?_render (wellWritten a), Option.bind_some, ofJson?_toJson]

/-! ### Simple values -/

lemma Json.wellWritten_ofText (text : String) : (Json.ofText text).WellWritten :=
  .str (Json.isLiteral_literal text)

instance : LawfulJsonForm String where
  wellWritten := Json.wellWritten_ofText
  ofJson?_toJson := Json.literalText?_literal

instance : NeverNull String where
  toJson_ne_null _ h := nomatch h

instance : LawfulJsonForm Bool where
  wellWritten := .bool
  ofJson?_toJson _ := rfl

lemma Json.wellWritten_ofNat (n : ℕ) : (Json.ofNat n).WellWritten :=
  .num (Json.isNumber_toString n)

/-- A number below the bound is read back. -/
lemma Json.natBelow?_ofNat {n bound : ℕ} (h : n < bound) :
    (Json.ofNat n).natBelow? bound = some n := by
  have hint : Json.int? (toString n).toList = some (.ofNat n) := Json.int?_toString n
  simp only [Json.ofNat, Json.natBelow?, hint, if_pos h]

instance : LawfulJsonForm UInt64 where
  wellWritten a := Json.wellWritten_ofNat a.toNat
  ofJson?_toJson a := by
    change ((Json.ofNat a.toNat).natBelow? UInt64.size).map UInt64.ofNat = some a
    rw [Json.natBelow?_ofNat a.toNat_lt, Option.map_some, UInt64.ofNat_toNat]

instance : NeverNull UInt64 where
  toJson_ne_null _ h := nomatch h

instance : LawfulJsonForm UInt32 where
  wellWritten a := Json.wellWritten_ofNat a.toNat
  ofJson?_toJson a := by
    change ((Json.ofNat a.toNat).natBelow? UInt32.size).map UInt32.ofNat = some a
    rw [Json.natBelow?_ofNat a.toNat_lt, Option.map_some, UInt32.ofNat_toNat]

instance : LawfulJsonForm Int32 where
  wellWritten a := .num (Json.isNumber_toString a.toInt)
  ofJson?_toJson a := by
    have hbounds : -0x80000000 ≤ a.toInt ∧ a.toInt ≤ 0x7fffffff :=
      ⟨a.le_toInt, Int.le_of_lt_add_one a.toInt_lt⟩
    have hint := Json.int?_toString a.toInt
    simp only [toJson, ofJson?, Json.ofInt, hint, if_pos hbounds, Int32.ofInt_toInt]

instance : NeverNull Int32 where
  toJson_ne_null _ h := nomatch h

instance {α : Type} [JsonForm α] [LawfulJsonForm α] [NeverNull α] :
    LawfulJsonForm (Option α) where
  wellWritten
    | none => .null
    | some a => wellWritten a
  ofJson?_toJson
    | none => rfl
    | some a => by
      have hne := NeverNull.toJson_ne_null a
      have hread := ofJson?_toJson a
      change ofJson? (toJson a) = some (some a)
      cases hjson : toJson a with
      | null => exact absurd hjson hne
      | bool | num | str | arr | obj =>
          rw [hjson] at hread
          exact congrArg (Option.map some) hread

instance {α : Type} [JsonForm α] [LawfulJsonForm α] : LawfulJsonForm (List α) where
  wellWritten items := .arr (by
    intro json hjson
    obtain ⟨item, -, rfl⟩ := List.mem_map.mp hjson
    exact wellWritten item)
  ofJson?_toJson items := by
    have hitems : List.Forall₂ (fun json item => ofJson? json = some item)
        (items.map toJson) items := by
      rw [List.forall₂_map_left_iff, List.forall₂_same]
      exact fun item _ => ofJson?_toJson item
    exact mapM_eq_some_iff.mpr hitems

/-- An identifier is read back from the text that shows it. -/
lemma Txid.ofText?_text (txid : Txid) : ofText? txid.text = some txid := by
  rw [ofText?, text, Hex.decode_encode]
  simp only [List.reverse_reverse, ofBytes?, dif_pos txid.length_eq]

instance : LawfulJsonForm Txid where
  wellWritten txid := Json.wellWritten_ofText txid.text
  ofJson?_toJson txid := by
    change (ofJson? (toJson txid.text)).bind Txid.ofText? = some txid
    rw [ofJson?_toJson, Option.bind_some, Txid.ofText?_text]

/-- A byte string is read back. -/
@[simp] lemma Json.bytes?_ofBytes (b : Bytes) : (Json.ofBytes b).bytes? = some b := by
  have htext : ofJson? (Json.ofBytes b) = some (Hex.encode b) := ofJson?_toJson (Hex.encode b)
  rw [Json.bytes?, htext]
  simp only [Hex.decode_encode, Except.toOption]

/-! ### Records -/

namespace Json

variable {fields : List (String × Json)} {spec : List (String × Presence)}

/-- The document of a record is one with literals if the values of its fields are. -/
lemma wellWritten_ofFields (h : ∀ field ∈ fields, field.2.WellWritten) :
    (ofFields fields).WellWritten := by
  refine .obj (fun field hfield => ?_) (fun field hfield => ?_)
  · obtain ⟨source, -, rfl⟩ := List.mem_map.mp hfield
    exact isLiteral_literal source.1
  · obtain ⟨source, hsource, rfl⟩ := List.mem_map.mp hfield
    exact h source hsource

/-- The names of fields are read back. -/
lemma namedFields?_ofFields (fields : List (String × Json)) :
    namedFields? (fields.map fun (name, value) => field name value) = some fields := by
  rw [namedFields?, mapM_eq_some_iff, List.forall₂_map_left_iff, List.forall₂_same]
  rintro ⟨name, value⟩ -
  simp only [field, literalText?_literal, Option.map_some]

/-- Of fields with different names, one is found by its name. -/
lemma filter_eq_singleton (hdistinct : (fields.map Prod.fst).Nodup) {name : String} {value : Json}
    (h : (name, value) ∈ fields) : fields.filter (·.1 == name) = [(name, value)] := by
  induction fields with
  | nil => cases h
  | cons entry fields ih =>
      rw [List.map_cons, List.nodup_cons] at hdistinct
      obtain ⟨hnotMem, hdistinct⟩ := hdistinct
      rcases List.mem_cons.mp h with rfl | hmem
      · have hnone : fields.filter (fun other => other.1 == name) = [] := by
          rw [List.filter_eq_nil_iff]
          intro other hother heq
          exact hnotMem (List.mem_map.mpr ⟨other, hother, beq_iff_eq.mp heq⟩)
        simp [hnone]
      · have hne : entry.1 ≠ name := by
          rintro rfl
          exact hnotMem (List.mem_map.mpr ⟨_, hmem, rfl⟩)
        simp [hne, ih hdistinct hmem]

/-- The value of every field that is there is found, whether it might be left out or
not. -/
lemma record?_ofFields (hnames : fields.map Prod.fst = spec.map Prod.fst)
    (hdistinct : (spec.map Prod.fst).Nodup) :
    record? spec (ofFields fields) = some (fields.map fun field => some field.2) := by
  have hvalues : List.Forall₂ (fun (entry : String × Presence) value =>
      fieldValue? fields entry.1 entry.2 = some value) spec
      (fields.map fun field => some field.2) := by
    rw [List.forall₂_map_right_iff]
    refine forall₂_of_getElem? ?_ fun i entry field hentry hfield => ?_
    · simpa using (congrArg List.length hnames).symm
    · have hname : field.1 = entry.1 := by
        have hi := congrArg (·[i]?) hnames
        simpa [hentry, hfield] using hi
      have hfound := filter_eq_singleton (hnames ▸ hdistinct) (List.mem_of_getElem? hfield)
      rw [fieldValue?, ← hname, hfound]
  simp only [record?, ofFields, namedFields?_ofFields, Option.bind_eq_bind, Option.bind_some,
    mapM_eq_some_iff.mpr hvalues]

/-- A record is read back if the values of its fields make it up. -/
lemma bind_record?_ofFields {α : Type} {ofValues? : List (Option Json) → Option α} {a : α}
    (hnames : fields.map Prod.fst = spec.map Prod.fst) (hdistinct : (spec.map Prod.fst).Nodup)
    (h : ofValues? (fields.map fun field => some field.2) = some a) :
    (record? spec (ofFields fields)).bind ofValues? = some a := by
  rw [record?_ofFields hnames hdistinct, Option.bind_some, h]

end Json

end CoinSpend
