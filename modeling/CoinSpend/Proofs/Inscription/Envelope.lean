import CoinSpend.Inscription.Envelope
import CoinSpend.Proofs.Inscription.Finish
import CoinSpend.Proofs.Script.Scan

/-!
Envelopes are read back.

* `Envelope.Cuts`: the pieces of a body, all of full length but the last one;
  `Envelope.cuts_chunks` says this of the pieces in an envelope.
* `Envelope.instructions`: the instructions of an envelope, given the pieces.
  `Envelope.instructions_injective`: they tell the key, the content type and the
  body.
* `EnvelopeOutput.envelope_read_back`: an envelope that is made is read as these
  instructions, and hence tells what it was made of.
-/

namespace CoinSpend

namespace Envelope

/-! ### The pieces of a body -/

variable {body : Bytes}

/-- A body in pieces of full length, but for the last one, which is not empty. -/
structure Cuts (body : Bytes) (pieces : List Bytes) : Prop where
  length_eq : pieces.length = (body.length + maxElementSize - 1) / maxElementSize
  flatten_eq : pieces.flatten = body
  full : ∀ (i : ℕ) piece, pieces[i]? = some piece → i + 1 < pieces.length →
    piece.length = maxElementSize
  length_pos : ∀ piece ∈ pieces, 1 ≤ piece.length
  length_le : ∀ piece ∈ pieces, piece.length ≤ maxElementSize

@[simp] lemma length_pieces (count : ℕ) (body : Bytes) : (pieces count body).length = count := by
  induction count generalizing body with
  | zero => rfl
  | succ count ih => rw [pieces, List.length_cons, ih]

/-- The piece at a position is what stands there in the body. -/
lemma getElem?_pieces {count i : ℕ} (h : i < count) (body : Bytes) :
    (pieces count body)[i]? = some ((body.drop (i * maxElementSize)).take maxElementSize) := by
  induction count generalizing i body with
  | zero => omega
  | succ count ih =>
      cases i with
      | zero => rw [pieces, List.getElem?_cons_zero, Nat.zero_mul, List.drop_zero]
      | succ i =>
          rw [pieces, List.getElem?_cons_succ, ih (by omega), List.drop_drop, Nat.succ_mul,
            Nat.add_comm]

/-- Enough pieces make up the body. -/
lemma flatten_pieces {count : ℕ} (h : body.length ≤ count * maxElementSize) :
    (pieces count body).flatten = body := by
  induction count generalizing body with
  | zero =>
      rw [Nat.zero_mul, Nat.le_zero, List.length_eq_zero_iff] at h
      rw [h]
      rfl
  | succ count ih =>
      have hrest : (body.drop maxElementSize).length ≤ count * maxElementSize := by
        rw [List.length_drop]
        rw [Nat.succ_mul] at h
        omega
      rw [pieces, List.flatten_cons, ih hrest, List.take_append_drop]

/-- A body is cut as it should be. -/
lemma cuts_chunks (body : Bytes) : Cuts body (chunks body) := by
  have hcount : ∀ i, i < (chunks body).length ↔ i * maxElementSize < body.length := by
    intro i
    rw [chunks, length_pieces, maxElementSize]
    omega
  have hpiece : ∀ i < (chunks body).length, ∀ piece, (chunks body)[i]? = some piece →
      piece.length = min maxElementSize (body.length - i * maxElementSize) := by
    intro i hi piece hpiece
    rw [chunks, length_pieces] at hi
    rw [chunks, getElem?_pieces hi, Option.some.injEq] at hpiece
    rw [← hpiece, List.length_take, List.length_drop]
  have hmem : ∀ piece ∈ chunks body, ∃ i < (chunks body).length,
      (chunks body)[i]? = some piece := by
    intro piece hpiece
    obtain ⟨i, hi⟩ := List.mem_iff_getElem?.mp hpiece
    exact ⟨i, (List.getElem?_eq_some_iff.mp hi).1, hi⟩
  refine ⟨?_, ?_, ?_, ?_, ?_⟩
  · rw [chunks, length_pieces]
  · refine flatten_pieces ?_
    rw [maxElementSize]
    omega
  · intro i piece hi hnext
    have hlength := hpiece i (by omega) piece hi
    rw [hcount, Nat.succ_mul] at hnext
    omega
  · intro piece hp
    obtain ⟨i, hi, hget⟩ := hmem piece hp
    have hlength := hpiece i hi piece hget
    rw [hcount] at hi
    rw [maxElementSize] at *
    omega
  · intro piece hp
    obtain ⟨i, hi, hget⟩ := hmem piece hp
    rw [hpiece i hi piece hget]
    exact Nat.min_le_left _ _

/-! ### The instructions of an envelope -/

variable {inscription other : Inscription} {key otherKey : XOnlyKey} {cut otherCut : List Bytes}

/-- The instructions of an envelope with the body in the given pieces. -/
def instructions (key : XOnlyKey) (contentType : String) (cut : List Bytes) : List Instruction :=
  [.push key.bytes, .op Op.checkSig, .push [], .op Op.ifTrue, .push protocolMark,
    .push contentTypeTag, .push contentType.toUTF8.data.toList, .push []] ++
    cut.map Instruction.push ++ [.op Op.endIf]

/-- The instructions tell the key, the content type and the pieces. -/
lemma instructions_injective {contentType otherType : String}
    (h : instructions key contentType cut = instructions otherKey otherType otherCut) :
    key = otherKey ∧ contentType = otherType ∧ cut = otherCut := by
  simp only [instructions, List.cons_append, List.nil_append, List.cons.injEq,
    Instruction.push.injEq, List.append_cancel_right_eq, true_and] at h
  obtain ⟨hkey, htype, hcut⟩ := h
  refine ⟨?_, ?_, List.map_injective_iff.mpr (fun _ _ => Instruction.push.inj) hcut⟩
  · cases key
    cases otherKey
    exact (XOnlyKey.mk.injEq ..).mpr hkey
  · exact String.toByteArray_inj.mp (ByteArray.ext (Array.toList_inj.mp htype))

/-- An envelope is read to its end, one instruction for each of its parts. -/
lemma reads_script (h : inscription.contentType.utf8ByteSize ≤ Script.maxPush) :
    (script inscription key).Reads
      (instructions key inscription.contentType (chunks inscription.body)) := by
  have hpieces : ∀ piece ∈ chunks inscription.body, piece.length ≤ Script.maxPush :=
    fun piece hpiece => Nat.le_trans ((cuts_chunks _).length_le piece hpiece) (by decide)
  have hkey : key.bytes.length ≤ Script.maxPush := by
    rw [key.length_eq, Script.maxPush]
    omega
  simp only [script, content, instructions, List.append_assoc, List.cons_append,
    List.nil_append]
  exact .push hkey (.op (by decide) (.push (by decide) (.op (by decide) (.push (by decide)
    (.push (by decide) (.push h (.push (by decide) (.pushes hpieces
    (.op (by decide) .nil)))))))))

/-- What an envelope is read as. -/
lemma instructions?_script (key : XOnlyKey)
    (h : inscription.contentType.utf8ByteSize ≤ Script.maxPush) :
    (script inscription key).instructions?
      = some (instructions key inscription.contentType (chunks inscription.body)) := by
  rw [Script.instructions?, reads_script h]

end Envelope

namespace EnvelopeOutput

variable {inscription : Inscription} {key : XOnlyKey} {params : ChainParams}
  {output : EnvelopeOutput}

/-- The content type of an envelope that is made fits a push. -/
lemma envelope_of_ofInscription (h : ofInscription inscription key params = .ok output) :
    output.envelope = Envelope.script inscription key ∧
      inscription.contentType.utf8ByteSize ≤ Script.maxPush := by
  rw [ofInscription] at h
  split_ifs at h with htype
  simp only [bind_eq_ok_iff, pure_eq_ok_iff] at h
  obtain ⟨address, -, rfl⟩ := h
  exact ⟨rfl, Nat.le_of_not_lt htype⟩

/-- The instructions of an envelope that is made. -/
lemma instructions?_of_ofInscription (h : ofInscription inscription key params = .ok output) :
    output.envelope.instructions? = some
      (Envelope.instructions key inscription.contentType (Envelope.chunks inscription.body)) := by
  obtain ⟨henvelope, htype⟩ := envelope_of_ofInscription h
  rw [henvelope, Envelope.instructions?_script key htype]

/-- **An envelope is read back without loss.** An envelope that is made consists of
complete instructions: the key and the check of its signature, the mark and the
content type in a branch, and the body in pieces of 520 bytes, up to the last one,
which has from one to 520 bytes; nothing follows the end of the branch. Two
envelopes are equal only if they are made of the same key, content type and body. -/
theorem envelope_read_back (h : ofInscription inscription key params = .ok output) :
    (∃ cut, output.envelope.instructions? = some (
        [.push key.bytes, .op Op.checkSig, .push [], .op Op.ifTrue,
          .push "ord".toUTF8.data.toList, .push [1],
          .push inscription.contentType.toUTF8.data.toList, .push []] ++
        cut.map Instruction.push ++ [.op Op.endIf]) ∧
      Envelope.Cuts inscription.body cut) ∧
    output.size = output.envelope.length ∧
    ∀ (other : Inscription) (otherKey : XOnlyKey) (otherParams : ChainParams)
      (otherOutput : EnvelopeOutput),
      ofInscription other otherKey otherParams = .ok otherOutput →
      otherOutput.envelope = output.envelope →
      otherKey = key ∧ other.contentType = inscription.contentType ∧
        other.body = inscription.body := by
  have hread := instructions?_of_ofInscription h
  refine ⟨⟨_, hread, Envelope.cuts_chunks _⟩, rfl, ?_⟩
  intro other otherKey otherParams otherOutput hother hequal
  rw [← hequal, instructions?_of_ofInscription hother, Option.some.injEq] at hread
  obtain ⟨hkey, htype, hcut⟩ := Envelope.instructions_injective hread
  refine ⟨hkey, htype, ?_⟩
  rw [← (Envelope.cuts_chunks other.body).flatten_eq, hcut,
    (Envelope.cuts_chunks inscription.body).flatten_eq]

/-- The body of `sampleInscription` takes two pieces, the second one of ten bytes. -/
theorem envelope_read_back_sample :
    ∃ output cut, ofInscription sampleInscription (.ofNat 1) Chain.bitcoinRegtest.params
        = .ok output ∧
      output.envelope.instructions? = some (
        [.push (XOnlyKey.ofNat 1).bytes, .op Op.checkSig, .push [], .op Op.ifTrue,
          .push "ord".toUTF8.data.toList, .push [1],
          .push "text/html".toUTF8.data.toList, .push []] ++
        cut.map Instruction.push ++ [.op Op.endIf]) ∧
      Envelope.Cuts (List.replicate 530 7) cut := by
  have hmade : (ofInscription sampleInscription (.ofNat 1)
      Chain.bitcoinRegtest.params).toOption.isSome := by decide +kernel
  obtain ⟨output, houtput⟩ := exists_eq_ok_of_isSome hmade
  obtain ⟨⟨cut, hread, hcuts⟩, -⟩ := envelope_read_back houtput
  exact ⟨output, cut, houtput, hread, hcuts⟩

end EnvelopeOutput

end CoinSpend
