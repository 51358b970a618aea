import CoinSpend.Proofs.Signing.Result
import CoinSpend.Proofs.Transaction.Size

/-!
Signing a transaction that spends output keys only.

* `SpendPath.ofScript_of_isP2tr`: an output key is spent by a signature of the key
  alone, whichever key it is.
* `Transaction.SpendsOutputKeys`: every input spends a known output that an output
  key locks.
* `Transaction.exists_trialSigned_of_isP2tr`: with a key for each input, signing
  such a transaction succeeds, and every input then holds one signature.
-/

namespace CoinSpend

/-- The template of output keys comes first. -/
lemma SpendPath.ofScript_of_isP2tr {script : Script} (h : script.isP2tr) (key : PrivateKey)
    (index : ℕ) : ofScript script key index = .ok .taprootKeyPath := by
  rw [ofScript, if_pos h]

namespace Transaction

/-- Every input spends a known output that an output key locks. -/
def SpendsOutputKeys (tx : Transaction) (lookup : Lookup) : Prop :=
  ∀ input ∈ tx.inputs, ∃ output, lookup input.previous = some output ∧ output.script.isP2tr

/-- An output key is satisfied by one signature. -/
lemma exists_entry_of_isP2tr {tx : Transaction} {prevouts : List TxOut} {index : ℕ}
    {prevout : TxOut} (key : PrivateKey) (hlength : prevouts.length = tx.inputs.length)
    (hprevout : prevouts[index]? = some prevout) (htr : prevout.script.isP2tr) :
    ∃ signature : Bytes, signature.length = 64 ∧
      tx.Entry prevouts ((prevout, key), index) (.taprootKeyPath, ⟨[], [signature]⟩) := by
  refine ⟨Schnorr.sign key.commitScalar
    (taggedHash "TapSighash" (Sighash.taprootMessage tx index prevouts none)),
    Schnorr.length_sign _ _, SpendPath.ofScript_of_isP2tr htr key index, ?_⟩
  simp only [Satisfaction.ofPath, hprevout, Satisfaction.keyPath, Sighash.taproot, if_pos hlength]
  rfl

/-- Signing succeeds and gives every input one signature. -/
lemma exists_trialSigned_of_isP2tr {tx : Transaction} {keys : List PrivateKey} {lookup : Lookup}
    (hkeys : tx.inputs.length ≤ keys.length) (hspends : tx.SpendsOutputKeys lookup) :
    ∃ t, tx.trialSigned keys lookup = .ok t ∧ t.skeleton = tx.skeleton ∧
      t.HoldsKeySignatures := by
  obtain ⟨prevouts, hprevouts⟩ := exists_forall₂_of_forall hspends
  have hlength : prevouts.length = tx.inputs.length := hprevouts.length_eq.symm
  have hentry : ∀ input ∈ (prevouts.zip keys).zipIdx, ∃ entry, tx.Entry prevouts input entry ∧
      ∃ signature : Bytes, signature.length = 64 ∧ entry.2 = ⟨[], [signature]⟩ := by
    rintro ⟨⟨prevout, key⟩, i⟩ hmem
    have hi := List.mem_zipIdx_iff_getElem?.mp hmem
    obtain ⟨hprevout, -⟩ := List.getElem?_zip_eq_some.mp hi
    obtain ⟨input, -, -, htr⟩ := exists_getElem?_of_forall₂ hprevouts.flip hprevout
    obtain ⟨signature, h64, hof⟩ := exists_entry_of_isP2tr key hlength hprevout htr
    exact ⟨_, hof, signature, h64, rfl⟩
  obtain ⟨found, hfound⟩ := exists_forall₂_of_forall hentry
  have hsatisfactions : tx.satisfactions keys lookup = .ok found :=
    satisfactions_eq_ok_iff.mpr ⟨hkeys, prevouts, hprevouts.imp fun _ _ h => h.1,
      hfound.imp fun _ _ h => h.1⟩
  have hsigned : tx.trialSigned keys lookup = .ok (tx.satisfy (found.map Prod.snd)) :=
    trialSigned_eq_ok_iff.mpr ⟨found, hsatisfactions, rfl⟩
  refine ⟨_, hsigned, skeleton_of_trialSigned hsigned, ?_⟩
  intro input hinput
  obtain ⟨i, hi⟩ := List.mem_iff_getElem?.mp hinput
  obtain ⟨source, satisfaction, -, hsat, rfl⟩ := List.getElem?_zipWith_eq_some.mp hi
  rw [List.getElem?_map, Option.map_eq_some_iff] at hsat
  obtain ⟨entry, hentry, rfl⟩ := hsat
  obtain ⟨_, -, -, signature, h64, hsignature⟩ := exists_getElem?_of_forall₂ hfound.flip hentry
  rw [hsignature]
  exact ⟨rfl, signature, h64, rfl⟩

end Transaction

end CoinSpend
