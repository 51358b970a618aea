import CoinSpend.Document.Config
import CoinSpend.Document.Draft
import CoinSpend.Document.Inscription
import CoinSpend.Proofs.IndexMap
import CoinSpend.Proofs.Json.Record

/-!
What goes in and out as a document is read back.

* Each type that has a form in documents has a lawful one: chains and locks by their
  names, maps by position by the digits of their positions, and records field by
  field.
* `JsonForm.documents_lossless`: hence every value is read back from the text that is
  written for it.
-/

namespace CoinSpend

open JsonForm (toJson ofJson? read? write)
open LawfulJsonForm (wellWritten)
open Json (wellWritten_ofText wellWritten_ofFields bind_record?_ofFields withDefault? required?)

/-! ### Settings -/

/-- A chain is found by its name in documents. -/
lemma Chain.ofKey?_key (chain : Chain) : ofKey? chain.key = some chain := by
  cases chain <;> decide

instance : LawfulJsonForm Chain where
  wellWritten chain := wellWritten_ofText chain.key
  ofJson?_toJson chain := by
    change (Json.literalText? (Json.literal chain.key)).bind Chain.ofKey? = some chain
    rw [Json.literalText?_literal, Option.bind_some, Chain.ofKey?_key]

instance : LawfulJsonForm Config where
  wellWritten config := wellWritten_ofFields (by simp [wellWritten])
  ofJson?_toJson config :=
    bind_record?_ofFields rfl (by simp [Config.spec]) (by simp [Config.ofValues?, withDefault?])

/-! ### Spends and payments -/

instance : LawfulJsonForm Lock where
  wellWritten
    | .address text => wellWritten_ofFields (by simp [wellWritten])
    | .script hex => wellWritten_ofFields (by simp [wellWritten])
  ofJson?_toJson
    | .address text => by
      change ((Json.literalText? (Json.literal "address")).bind fun kind =>
        (ofJson? (toJson text)).bind fun text => Lock.ofKind? kind text) = some (.address text)
      simp [Json.literalText?_literal, Lock.ofKind?]
    | .script hex => by
      change ((Json.literalText? (Json.literal "script")).bind fun kind =>
        (ofJson? (toJson hex)).bind fun text => Lock.ofKind? kind text) = some (.script hex)
      simp [Json.literalText?_literal, Lock.ofKind?]

instance : LawfulJsonForm Spend where
  wellWritten spend := wellWritten_ofFields (by simp [wellWritten])
  ofJson?_toJson spend :=
    bind_record?_ofFields rfl (by simp [Spend.spec])
      (by simp [Spend.ofValues?, required?, withDefault?])

instance : LawfulJsonForm Payment where
  wellWritten payment := wellWritten_ofFields (by simp [wellWritten])
  ofJson?_toJson payment :=
    bind_record?_ofFields rfl (by simp [Payment.spec])
      (by simp [Payment.ofValues?, required?, withDefault?])

/-! ### Signing requests -/

namespace IndexMap

/-- The name of a position is a literal. -/
lemma isLiteral_index (index : UInt64) : Json.IsLiteral (toString index.toNat).toList := by
  rw [Json.toList_toString_nat, ← Json.literal_of_digits fun _ => Json.isDigit_of_mem_toDigits]
  exact Json.isLiteral_literal _

/-- A position is read back from its name. -/
lemma index?_toString (index : UInt64) : index? (toString index.toNat).toList = some index := by
  have htaken := (Json.isNumber_toString index.toNat).takes [] Json.endsNumber_nil
  have hread : ofJson? (.num (toString index.toNat).toList) = some index :=
    LawfulJsonForm.ofJson?_toJson index
  rw [List.append_nil] at htaken
  rw [index?, show Json.takeNumber? (toString index.toNat).toList = some (_, []) from htaken]
  exact hread

end IndexMap

instance : LawfulJsonForm IndexMap where
  wellWritten map := .obj
    (fun field hfield => by
      obtain ⟨entry, -, rfl⟩ := List.mem_map.mp hfield
      exact IndexMap.isLiteral_index entry.1)
    (fun field hfield => by
      obtain ⟨entry, -, rfl⟩ := List.mem_map.mp hfield
      exact wellWritten entry.2)
  ofJson?_toJson map := by
    have hentries : List.Forall₂ (fun field entry => IndexMap.entry? field = some entry)
        (map.entries.map fun entry => ((toString entry.1.toNat).toList, toJson entry.2))
        map.entries := by
      rw [List.forall₂_map_left_iff, List.forall₂_same]
      intro entry _
      simp only [IndexMap.entry?, IndexMap.index?_toString, LawfulJsonForm.ofJson?_toJson,
        Option.bind_eq_bind, Option.bind_some, Option.pure_def]
    have hlist : IndexMap.ofList map.entries = map := by
      cases map with
      | mk entries sorted => exact (IndexMap.mk.injEq ..).mpr (IndexMap.entries_ofList sorted)
    change ((map.entries.map _).mapM IndexMap.entry?).map IndexMap.ofList = some map
    rw [mapM_eq_some_iff.mpr hentries, Option.map_some, hlist]

instance : LawfulJsonForm SigningRequest where
  wellWritten request := wellWritten_ofFields (by simp [wellWritten])
  ofJson?_toJson request :=
    bind_record?_ofFields rfl (by simp [SigningRequest.spec])
      (by simp [SigningRequest.ofValues?, required?])

/-! ### Inscriptions -/

instance : LawfulJsonForm FundingOutput where
  wellWritten output := wellWritten_ofFields (by simp [wellWritten])
  ofJson?_toJson output :=
    bind_record?_ofFields rfl (by simp [FundingOutput.spec])
      (by simp [FundingOutput.ofValues?, required?])

instance : LawfulJsonForm Inscription where
  wellWritten inscription :=
    wellWritten_ofFields (by simp [wellWritten, Json.ofBytes, wellWritten_ofText])
  ofJson?_toJson inscription :=
    bind_record?_ofFields rfl (by simp [Inscription.spec])
      (by simp [Inscription.ofValues?, required?])

instance : LawfulJsonForm InscriptionRequest where
  wellWritten request := wellWritten_ofFields (by simp [wellWritten])
  ofJson?_toJson request :=
    bind_record?_ofFields rfl (by simp [InscriptionRequest.spec])
      (by simp [InscriptionRequest.ofValues?, required?, withDefault?])

instance : LawfulJsonForm InscriptionReceipt where
  wellWritten receipt := wellWritten_ofFields (by simp [wellWritten])
  ofJson?_toJson receipt :=
    bind_record?_ofFields rfl (by simp [InscriptionReceipt.spec])
      (by simp [InscriptionReceipt.ofValues?, required?])

/-- **Documents lose nothing.** Every value of a type that goes in or out as a document
is read back from the text that is written for it. -/
theorem JsonForm.documents_lossless :
    (∀ config : Config, read? (write config) = some config) ∧
    (∀ lock : Lock, read? (write lock) = some lock) ∧
    (∀ spend : Spend, read? (write spend) = some spend) ∧
    (∀ payment : Payment, read? (write payment) = some payment) ∧
    (∀ request : SigningRequest, read? (write request) = some request) ∧
    (∀ output : FundingOutput, read? (write output) = some output) ∧
    (∀ inscription : Inscription, read? (write inscription) = some inscription) ∧
    (∀ request : InscriptionRequest, read? (write request) = some request) ∧
    (∀ receipt : InscriptionReceipt, read? (write receipt) = some receipt) ∧
    ∀ chain : Chain, read? (write chain) = some chain :=
  ⟨read?_write, read?_write, read?_write, read?_write, read?_write, read?_write, read?_write,
    read?_write, read?_write, read?_write⟩

end CoinSpend
