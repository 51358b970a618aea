import CoinSpend.Proofs.Counters
import CoinSpend.Proofs.Signing.Lock

/-!
When a transaction is signed, and what signing leaves.

* `Transaction.Refused`: why a transaction is not signed. There have to be keys for all
  inputs, then all outputs spent have to be known, then every key has to sign for the
  lock of its input; among inputs the first counts.
* `Transaction.satisfactions_eq_error_iff`, `Transaction.exists_satisfactions_iff`:
  satisfactions fail for these causes and no other. What a transaction pays is not among
  them (`Transaction.exists_trialSigned_congr`).
* `Transaction.left_signInPlace_of_satisfactions`, `Transaction.left_signInPlace_of_error`:
  what is left of a transaction that is signed in place.
* `Transaction.sign_decided`: hence signing is decided by keys and locks alone, and is
  done for all inputs or for none.
-/

namespace CoinSpend

namespace Transaction

variable {tx : Transaction} {keys : List PrivateKey} {lookup : Lookup}

/-! ### Causes -/

/-- The input at a position spends an output by a key. -/
def SpendsAt (tx : Transaction) (keys : List PrivateKey) (lookup : Lookup) (i : ℕ)
    (prevout : TxOut) (key : PrivateKey) : Prop :=
  ∃ input, tx.inputs[i]? = some input ∧ lookup input.previous = some prevout ∧
    keys[i]? = some key

/-- Why a transaction is not signed. -/
inductive Refused (tx : Transaction) (keys : List PrivateKey) (lookup : Lookup) :
    TxError → Prop where
  | fewKeys (h : keys.length < tx.inputs.length) :
      Refused tx keys lookup (.keyCountMismatch keys.length tx.inputs.length)
  | unknownOutput {i : ℕ} {input : TxIn} (hkeys : tx.inputs.length ≤ keys.length)
      (hinput : tx.inputs[i]? = some input) (hunknown : lookup input.previous = none)
      (hfirst : ∀ (j : ℕ) earlier, j < i → tx.inputs[j]? = some earlier →
        ∃ prevout, lookup earlier.previous = some prevout) :
      Refused tx keys lookup (.unknownPrevOut input.previous i)
  | lock {i : ℕ} {prevout : TxOut} {key : PrivateKey} {e : TxError}
      (hkeys : tx.inputs.length ≤ keys.length)
      (hknown : ∀ input ∈ tx.inputs, ∃ prevout, lookup input.previous = some prevout)
      (hspends : tx.SpendsAt keys lookup i prevout key)
      (hcause : key.CannotSignFor prevout.script i e)
      (hfirst : ∀ (j : ℕ) other otherKey, j < i → tx.SpendsAt keys lookup j other otherKey →
        otherKey.SignsFor other.script) :
      Refused tx keys lookup e

/-- Every input spends a known output, and there is a key that signs for its lock. -/
def Signable (tx : Transaction) (keys : List PrivateKey) (lookup : Lookup) : Prop :=
  ∀ (i : ℕ) input, tx.inputs[i]? = some input → ∃ prevout key,
    lookup input.previous = some prevout ∧ keys[i]? = some key ∧ key.SignsFor prevout.script

/-- It can be seen input by input. -/
instance : Decidable (tx.Signable keys lookup) :=
  decidable_of_iff (∀ entry ∈ tx.inputs.zipIdx, ∃ prevout ∈ lookup entry.1.previous,
      ∃ key ∈ keys[entry.2]?, key.SignsFor prevout.script) <| by
    constructor
    · intro h i input hinput
      obtain ⟨prevout, hprevout, key, hkey, hsigns⟩ :=
        h (input, i) (List.mem_zipIdx_iff_getElem?.mpr hinput)
      exact ⟨prevout, key, hprevout, hkey, hsigns⟩
    · rintro h ⟨input, i⟩ hentry
      obtain ⟨prevout, key, hprevout, hkey, hsigns⟩ :=
        h i input (List.mem_zipIdx_iff_getElem?.mp hentry)
      exact ⟨prevout, hprevout, key, hkey, hsigns⟩

/-- There is a key for each input then. -/
lemma Signable.length_le (h : tx.Signable keys lookup) : tx.inputs.length ≤ keys.length := by
  by_contra hfew
  obtain ⟨_, _, -, hkey, -⟩ :=
    h keys.length _ (List.getElem?_eq_getElem (Nat.lt_of_not_le hfew))
  exact Nat.lt_irrefl _ (List.getElem?_eq_some_iff.mp hkey).1

/-- The key of every input signs for its lock. -/
lemma Signable.signsFor (h : tx.Signable keys lookup) {i : ℕ} {prevout : TxOut}
    {key : PrivateKey} (hspends : tx.SpendsAt keys lookup i prevout key) :
    key.SignsFor prevout.script := by
  obtain ⟨input, hinput, hlookup, hkey⟩ := hspends
  obtain ⟨other, otherKey, hother, hotherKey, hsigns⟩ := h i input hinput
  obtain rfl := Option.some.inj (hlookup.symm.trans hother)
  obtain rfl := Option.some.inj (hkey.symm.trans hotherKey)
  exact hsigns

/-- And every output spent is known. -/
lemma Signable.exists_lookup (h : tx.Signable keys lookup) :
    ∀ input ∈ tx.inputs, ∃ prevout, lookup input.previous = some prevout := by
  intro input hinput
  obtain ⟨i, hi⟩ := List.mem_iff_getElem?.mp hinput
  obtain ⟨prevout, _, hlookup, -⟩ := h i input hi
  exact ⟨prevout, hlookup⟩

/-! ### Failures in order -/

/-- The first output that is not known decides. -/
lemma spentFrom_eq_error_iff {index : ℕ} {inputs : List TxIn} {e : TxError} :
    spentFrom lookup index inputs = .error e ↔
      ∃ (i : ℕ) (input : TxIn), inputs[i]? = some input ∧
        (lookup input.previous = none ∧ e = .unknownPrevOut input.previous (index + i)) ∧
        ∀ (j : ℕ) (earlier : TxIn), j < i → inputs[j]? = some earlier →
          ∃ prevout, lookup earlier.previous = some prevout := by
  let step : ℕ → TxIn → Except TxError TxOut := fun index input =>
    (lookup input.previous).elim (.error (.unknownPrevOut input.previous index)) .ok
  have hfails (index : ℕ) (input : TxIn) : step index input = .error e ↔
      lookup input.previous = none ∧ e = .unknownPrevOut input.previous index := by
    simp only [step]
    cases lookup input.previous <;> simp [eq_comm]
  have hfinds (index : ℕ) (input : TxIn) : (∃ prevout, step index input = .ok prevout) ↔
      ∃ prevout, lookup input.previous = some prevout := by
    simp only [step]
    cases lookup input.previous <;> simp
  rw [numbered_eq_error_iff step (spentFrom lookup) (fun _ => rfl) fun index input rest => ?_]
  · simp only [hfails, hfinds]
  · rw [spentFrom]
    simp only [step]
    cases lookup input.previous <;> rfl

/-- The first input that cannot be signed decides. -/
lemma satisfyFrom_eq_error_iff {prevouts : List TxOut} {index : ℕ}
    {pairs : List (TxOut × PrivateKey)} {e : TxError} :
    satisfyFrom tx prevouts index pairs = .error e ↔
      ∃ (i : ℕ) (pair : TxOut × PrivateKey), pairs[i]? = some pair ∧
        tx.entryAt prevouts (index + i) pair = .error e ∧
        ∀ (j : ℕ) (earlier : TxOut × PrivateKey), j < i → pairs[j]? = some earlier →
          ∃ entry, tx.entryAt prevouts (index + j) earlier = .ok entry := by
  refine numbered_eq_error_iff (tx.entryAt prevouts) (satisfyFrom tx prevouts) (fun _ => rfl) ?_
  rintro index ⟨output, key⟩ rest
  simp only [satisfyFrom, entryAt, bind_assoc, pure_bind]

/-- What is spent by position, once the outputs are known. -/
lemma spendsAt_iff {prevouts : List TxOut}
    (hspent : List.Forall₂ (fun input output => lookup input.previous = some output)
      tx.inputs prevouts) {i : ℕ} {prevout : TxOut} {key : PrivateKey} :
    tx.SpendsAt keys lookup i prevout key ↔ (prevouts.zip keys)[i]? = some (prevout, key) := by
  rw [List.getElem?_zip_eq_some]
  constructor
  · rintro ⟨input, hinput, hlookup, hkey⟩
    obtain ⟨found, hfound, hfoundAt⟩ := exists_getElem?_of_forall₂ hspent hinput
    obtain rfl := Option.some.inj (hfoundAt.symm.trans hlookup)
    exact ⟨hfound, hkey⟩
  · rintro ⟨hprevout, hkey⟩
    obtain ⟨input, hinput, hlookup⟩ := exists_getElem?_of_forall₂ hspent.flip hprevout
    exact ⟨input, hinput, hlookup, hkey⟩

/-- **Satisfactions fail for the causes there are, and for no other.** -/
lemma satisfactions_eq_error_iff {e : TxError} :
    tx.satisfactions keys lookup = .error e ↔ tx.Refused keys lookup e := by
  have hentry {prevouts : List TxOut}
      (hspent : List.Forall₂ (fun input output => lookup input.previous = some output)
        tx.inputs prevouts) {i : ℕ} {prevout : TxOut} {key : PrivateKey}
      (hspends : tx.SpendsAt keys lookup i prevout key) :
      (tx.entryAt prevouts i (prevout, key) = .error e ↔
        key.CannotSignFor prevout.script i e) ∧
      ((∃ entry, tx.entryAt prevouts i (prevout, key) = .ok entry) ↔
        key.SignsFor prevout.script) := by
    have hprevout := (List.getElem?_zip_eq_some.mp ((spendsAt_iff hspent).mp hspends)).1
    have hlength := hspent.length_eq.symm
    exact ⟨entryAt_eq_error_iff hlength hprevout, exists_entryAt_iff hlength hprevout⟩
  rw [satisfactions]
  constructor
  · intro h
    split_ifs at h with hkeys
    · cases h
      exact .fewKeys hkeys
    have hkeys := Nat.le_of_not_lt hkeys
    obtain h | ⟨prevouts, hprevouts, h⟩ := bind_eq_error_iff.mp h
    · obtain ⟨i, input, hinput, ⟨hunknown, rfl⟩, hfirst⟩ := spentFrom_eq_error_iff.mp h
      rw [Nat.zero_add]
      exact .unknownOutput hkeys hinput hunknown hfirst
    · have hspent := spentFrom_eq_ok_iff.mp hprevouts
      obtain ⟨i, ⟨prevout, key⟩, hpair, hfails, hfirst⟩ := satisfyFrom_eq_error_iff.mp h
      simp only [Nat.zero_add] at hfails hfirst
      have hspends := (spendsAt_iff hspent).mpr hpair
      refine .lock hkeys (fun input hinput => ?_) hspends ((hentry hspent hspends).1.mp hfails) ?_
      · obtain ⟨j, hj⟩ := List.mem_iff_getElem?.mp hinput
        obtain ⟨found, -, hfound⟩ := exists_getElem?_of_forall₂ hspent hj
        exact ⟨found, hfound⟩
      · intro j other otherKey hj hother
        exact (hentry hspent hother).2.mp (hfirst j _ hj ((spendsAt_iff hspent).mp hother))
  · intro h
    cases h with
    | fewKeys h => rw [if_pos h]
    | unknownOutput hkeys hinput hunknown hfirst =>
        rw [if_neg (Nat.not_lt.mpr hkeys), bind_eq_error_iff]
        refine .inl (spentFrom_eq_error_iff.mpr ⟨_, _, hinput, ⟨hunknown, ?_⟩, hfirst⟩)
        rw [Nat.zero_add]
    | @lock i prevout key e hkeys hknown hspends hcause hfirst =>
        obtain ⟨prevouts, hspent⟩ := exists_forall₂_of_forall hknown
        rw [if_neg (Nat.not_lt.mpr hkeys), bind_eq_error_iff]
        refine .inr ⟨prevouts, spentFrom_eq_ok_iff.mpr hspent, satisfyFrom_eq_error_iff.mpr
          ⟨i, (prevout, key), (spendsAt_iff hspent).mp hspends, ?_, ?_⟩⟩
        · rw [Nat.zero_add]
          exact (hentry hspent hspends).1.mpr hcause
        · rintro j ⟨other, otherKey⟩ hj hearlier
          have hother := (spendsAt_iff hspent).mpr hearlier
          rw [Nat.zero_add]
          exact (hentry hspent hother).2.mpr (hfirst j other otherKey hj hother)

/-! ### Successes -/

/-- What stands at the position of an input, once every input is satisfied. -/
lemma exists_entry_of_input {prevouts : List TxOut} {found : List (SpendPath × Satisfaction)}
    (hkeys : tx.inputs.length ≤ keys.length)
    (hspent : List.Forall₂ (fun input output => lookup input.previous = some output)
      tx.inputs prevouts)
    (hfound : List.Forall₂ (tx.Entry prevouts) (prevouts.zip keys).zipIdx found)
    {i : ℕ} {input : TxIn} (hinput : tx.inputs[i]? = some input) :
    ∃ prevout key entry, lookup input.previous = some prevout ∧ prevouts[i]? = some prevout ∧
      keys[i]? = some key ∧ found[i]? = some entry ∧
      tx.Entry prevouts ((prevout, key), i) entry := by
  obtain ⟨prevout, hprevout, hlookup⟩ := exists_getElem?_of_forall₂ hspent hinput
  have hi : i < keys.length :=
    Nat.lt_of_lt_of_le (List.getElem?_eq_some_iff.mp hinput).1 hkeys
  have hpair : (prevouts.zip keys).zipIdx[i]? = some ((prevout, keys[i]), i) := by
    simp [List.getElem?_zip_eq_some, hprevout, hi]
  obtain ⟨entry, hentry, hof⟩ := exists_getElem?_of_forall₂ hfound hpair
  exact ⟨prevout, keys[i], entry, hlookup, hprevout, List.getElem?_eq_getElem hi, hentry, hof⟩

/-- **Satisfactions are found if every input can be signed, and only then.** -/
lemma exists_satisfactions_iff :
    (∃ found, tx.satisfactions keys lookup = .ok found) ↔ tx.Signable keys lookup := by
  simp only [satisfactions_eq_ok_iff]
  constructor
  · rintro ⟨found, hkeys, prevouts, hspent, hfound⟩ i input hinput
    obtain ⟨prevout, key, entry, hlookup, hprevout, hkey, -, hentry⟩ :=
      exists_entry_of_input hkeys hspent hfound hinput
    exact ⟨prevout, key, hlookup, hkey,
      (exists_entryAt_iff hspent.length_eq.symm hprevout).mp ⟨entry, entryAt_eq_ok_iff.mpr hentry⟩⟩
  · intro h
    obtain ⟨prevouts, hspent⟩ := exists_forall₂_of_forall h.exists_lookup
    have hentry : ∀ pair ∈ (prevouts.zip keys).zipIdx, ∃ entry, tx.Entry prevouts pair entry := by
      rintro ⟨⟨prevout, key⟩, i⟩ hmem
      have hpair := List.mem_zipIdx_iff_getElem?.mp hmem
      obtain ⟨hprevout, -⟩ := List.getElem?_zip_eq_some.mp hpair
      have hsigns := h.signsFor ((spendsAt_iff hspent).mpr hpair)
      obtain ⟨entry, hentry⟩ := exists_entryAt hspent.length_eq.symm hprevout hsigns
      exact ⟨entry, entryAt_eq_ok_iff.mp hentry⟩
    obtain ⟨found, hfound⟩ := exists_forall₂_of_forall hentry
    exact ⟨found, h.length_le, prevouts, hspent, hfound⟩

/-- A transaction is signed if every input can be signed, and only then. -/
lemma exists_trialSigned_iff :
    (∃ t, tx.trialSigned keys lookup = .ok t) ↔ tx.Signable keys lookup := by
  rw [← exists_satisfactions_iff]
  constructor
  · rintro ⟨t, ht⟩
    obtain ⟨found, hfound, -⟩ := trialSigned_eq_ok_iff.mp ht
    exact ⟨found, hfound⟩
  · rintro ⟨found, hfound⟩
    exact ⟨_, trialSigned_eq_ok_iff.mpr ⟨found, hfound, rfl⟩⟩

/-- A transaction with the inputs of one that can be signed can be signed. -/
lemma exists_trialSigned_congr {other t : Transaction} (hinputs : tx.inputs = other.inputs)
    (h : tx.trialSigned keys lookup = .ok t) : ∃ u, other.trialSigned keys lookup = .ok u := by
  have hsignable := exists_trialSigned_iff.mp ⟨t, h⟩
  rw [Signable, hinputs, ← Signable] at hsignable
  exact exists_trialSigned_iff.mpr hsignable

/-- Keys beyond the last input are not looked at. -/
lemma satisfactions_take :
    tx.satisfactions (keys.take tx.inputs.length) lookup = tx.satisfactions keys lookup := by
  by_cases hfew : keys.length ≤ tx.inputs.length
  · rw [List.take_of_length_le hfew]
  have hlength : (keys.take tx.inputs.length).length = tx.inputs.length := by
    rw [List.length_take]
    omega
  rw [satisfactions, satisfactions, if_neg (by omega), if_neg (by omega)]
  cases hprevouts : spentFrom lookup 0 tx.inputs with
  | error e => rfl
  | ok prevouts =>
      have hzip : prevouts.zip (keys.take tx.inputs.length) = prevouts.zip keys := by
        rw [(spentFrom_eq_ok_iff.mp hprevouts).length_eq] at hfew ⊢
        rw [@List.zip_eq_zip_take_min _ _ prevouts keys, Nat.min_eq_left (Nat.le_of_not_le hfew),
          List.take_length]
      exact congrArg (satisfyFrom tx prevouts 0) hzip

/-! ### Counting -/

/-- The events of a success are one for the lock of each output that is spent. -/
lemma count_events {prevouts : List TxOut} {found : List (SpendPath × Satisfaction)}
    (h : List.Forall₂ (fun prevout entry => entry.1.lockKind.locks prevout.script)
      prevouts found) (kind : LockKind) :
    (found.map fun entry => Event.signed entry.1.lockKind).count (.signed kind) =
      prevouts.countP fun prevout => kind.locks prevout.script := by
  have hkinds : List.Forall₂ (fun (prevout : TxOut) kind => LockKind.locks kind prevout.script)
      prevouts (found.map fun entry => entry.1.lockKind) := List.forall₂_map_right_iff.mpr h
  calc (found.map fun entry => Event.signed entry.1.lockKind).count (.signed kind)
      = (found.map fun entry => entry.1.lockKind).count kind := by
        rw [← LockKind.count_signed, List.map_map]
        rfl
    _ = prevouts.countP fun prevout => kind.locks prevout.script :=
        count_eq_countP (p := fun kind (prevout : TxOut) => kind.locks prevout.script)
          (fun _ _ other hlocks => LockKind.locks_eq hlocks other) hkinds kind

/-- The outputs that a signed transaction spends are known, and each has the lock that
is counted for it. -/
lemma exists_prevouts_of_satisfactions {found : List (SpendPath × Satisfaction)}
    (h : tx.satisfactions keys lookup = .ok found) :
    ∃ prevouts, tx.inputs.map (fun input => lookup input.previous) = prevouts.map some ∧
      List.Forall₂ (fun prevout entry => entry.1.lockKind.locks prevout.script)
        prevouts found := by
  obtain ⟨hkeys, prevouts, hspent, hentries⟩ := satisfactions_eq_ok_iff.mp h
  refine ⟨prevouts, forall₂_image_iff.mp hspent, forall₂_of_getElem? ?_ ?_⟩
  · rw [length_satisfactions h, hspent.length_eq]
  · intro i prevout entry hprevout hentry
    obtain ⟨input, hinput, -⟩ := exists_getElem?_of_forall₂ hspent.flip hprevout
    obtain ⟨other, key, otherEntry, -, hother, -, hotherEntry, hpath, -⟩ :=
      exists_entry_of_input hkeys hspent hentries hinput
    obtain rfl := Option.some.inj (hprevout.symm.trans hother)
    obtain rfl := Option.some.inj (hentry.symm.trans hotherEntry)
    exact SpendPath.locks_of_ofScript hpath

/-! ### Signing -/

/-- If every satisfaction is found, all inputs are changed in place. -/
lemma left_signInPlace_of_satisfactions {found : List (SpendPath × Satisfaction)}
    (h : tx.satisfactions keys lookup = .ok found) :
    (signInPlace keys lookup).left tx = tx.satisfy (found.map Prod.snd) := by
  rw [InPlace.left, on_signInPlace_of_ok h (length_satisfactions h)]

/-- If one is not, none is changed. -/
lemma left_signInPlace_of_error {e : TxError} (h : tx.satisfactions keys lookup = .error e) :
    (signInPlace keys lookup).left tx = tx := by
  rw [InPlace.left, on_signInPlace_of_error h]

/-- **Signing is decided by keys and locks, and is done for all inputs or for none.**
It fails for the causes in `Refused`, each in its turn, and for no other. It succeeds if
every input spends a known output for whose lock its key signs; a key in the long form
does so for output keys and key hashes only. A failure leaves the transaction as it was
and counts nothing. A success changes only what unlocks the inputs and counts each input
once, under the kind of its lock. Keys for which there is no input make no difference. -/
theorem sign_decided (tx : Transaction) (keys : List PrivateKey) (lookup : Lookup) :
    (∀ e, (tx.sign keys lookup).outcome = .error e ↔ tx.Refused keys lookup e) ∧
      ((∃ t, (tx.sign keys lookup).outcome = .ok t) ↔ tx.Signable keys lookup) ∧
      (tx.Signable keys lookup → ∀ (i : ℕ) prevout key, tx.SpendsAt keys lookup i prevout key →
        key.compressed = false → prevout.script.isP2tr ∨ prevout.script.isP2pkh) ∧
      (∀ e, (tx.sign keys lookup).outcome = .error e →
        (signInPlace keys lookup).left tx = tx ∧ (tx.sign keys lookup).events = []) ∧
      (∀ t, (tx.sign keys lookup).outcome = .ok t →
        (signInPlace keys lookup).left tx = t ∧ t.skeleton = tx.skeleton ∧
        ∃ prevouts : List TxOut,
          tx.inputs.map (fun input => lookup input.previous) = prevouts.map some ∧
          (∀ event ∈ (tx.sign keys lookup).events, ∃ kind, event = .signed kind) ∧
          ∀ kind, (tx.sign keys lookup).events.count (.signed kind) =
            prevouts.countP fun prevout => kind.locks prevout.script) ∧
      tx.sign (keys.take tx.inputs.length) lookup = tx.sign keys lookup := by
  refine ⟨?_, ?_, fun h i _ _ hspends => (h.signsFor hspends).of_long, ?_, ?_, ?_⟩
  · intro e
    rw [← satisfactions_eq_error_iff]
    cases h : tx.satisfactions keys lookup with
    | error _ => simp [sign_of_error h]
    | ok found => simp [sign_of_satisfactions h]
  · rw [← exists_satisfactions_iff]
    cases h : tx.satisfactions keys lookup with
    | error _ => simp [sign_of_error h]
    | ok found => simp [sign_of_satisfactions h]
  · intro e he
    cases h : tx.satisfactions keys lookup with
    | error _ => exact ⟨left_signInPlace_of_error h, congrArg Metered.events (sign_of_error h)⟩
    | ok found =>
        rw [sign_of_satisfactions h] at he
        cases he
  · intro t ht
    obtain ⟨found, hfound, rfl⟩ :=
      trialSigned_eq_ok_iff.mp ((outcome_sign tx keys lookup).symm.trans ht)
    obtain ⟨prevouts, hprevouts, hlocks⟩ := exists_prevouts_of_satisfactions hfound
    refine ⟨left_signInPlace_of_satisfactions hfound, skeleton_of_trialSigned
      (trialSigned_eq_ok_iff.mpr ⟨found, hfound, rfl⟩), prevouts, hprevouts, ?_⟩
    rw [sign_of_satisfactions hfound]
    refine ⟨fun event hevent => ?_, count_events hlocks⟩
    obtain ⟨entry, -, rfl⟩ := List.mem_map.mp hevent
    exact ⟨_, rfl⟩
  · cases h : tx.satisfactions keys lookup with
    | error e => rw [sign_of_error h, sign_of_error (satisfactions_take.trans h)]
    | ok found =>
        rw [sign_of_satisfactions h, sign_of_satisfactions (satisfactions_take.trans h)]

/-- The sample key in the long form. -/
def sampleLongKey : PrivateKey :=
  { sampleKey with compressed := false }

/-- Each lock of the sample is one for which its key signs. -/
lemma signable_sampleSpend : sampleSpend.Signable (List.replicate 5 sampleKey) sampleLookup := by
  intro i input hinput
  match i with
  | 0 =>
      cases hinput
      exact ⟨_, _, rfl, rfl, .keyHash rfl⟩
  | 1 =>
      cases hinput
      exact ⟨_, _, rfl, rfl, .witnessKeyHash rfl rfl⟩
  | 2 =>
      cases hinput
      exact ⟨_, _, rfl, rfl, .scriptHash (PrivateKey.ownsScriptHash_iff.mpr ⟨rfl, rfl⟩)⟩
  | 3 =>
      cases hinput
      exact ⟨_, _, rfl, rfl, .outputKey rfl⟩
  | i + 4 => cases hinput

/-- A key in the long form signs for the first lock of the sample, and not for the
second one. -/
lemma refused_sampleSpend :
    sampleSpend.Refused (List.replicate 4 sampleLongKey) sampleLookup
      (.signing .uncompressedKey) := by
  have hspends : sampleSpend.SpendsAt (List.replicate 4 sampleLongKey) sampleLookup 1
      ⟨50000, Script.p2wpkh (List.replicate 20 2)⟩ sampleLongKey := ⟨_, rfl, rfl, rfl⟩
  refine .lock (by decide) signable_sampleSpend.exists_lookup hspends (.longKey rfl rfl) ?_
  intro j other otherKey hj hother
  obtain rfl : j = 0 := by omega
  obtain ⟨input, hinput, hlookup, hkey⟩ := hother
  cases hinput
  cases hlookup
  exact .keyHash rfl

/-- With a key too many the sample is signed, which counts one input of each kind that
has a template. With keys in the long form it is refused, and stays as it is. -/
theorem sign_decided_sample :
    (∃ t, (sampleSpend.sign (List.replicate 5 sampleKey) sampleLookup).outcome = .ok t ∧
      t.skeleton = sampleSpend.skeleton ∧
      ∀ kind, kind ≠ .taprootScriptPath → (sampleSpend.sign (List.replicate 5 sampleKey)
        sampleLookup).events.count (.signed kind) = 1) ∧
      (sampleSpend.sign (List.replicate 4 sampleLongKey) sampleLookup).outcome =
        .error (.signing .uncompressedKey) ∧
      (signInPlace (List.replicate 4 sampleLongKey) sampleLookup).left sampleSpend =
        sampleSpend ∧
      (sampleSpend.sign (List.replicate 4 sampleLongKey) sampleLookup).events = [] := by
  obtain ⟨-, hsigns, -, -, hsigned, -⟩ :=
    sign_decided sampleSpend (List.replicate 5 sampleKey) sampleLookup
  obtain ⟨hrefuses, -, -, hunchanged, -⟩ :=
    sign_decided sampleSpend (List.replicate 4 sampleLongKey) sampleLookup
  obtain ⟨t, ht⟩ := hsigns.mpr signable_sampleSpend
  obtain ⟨-, hskeleton, prevouts, hprevouts, -, hcounts⟩ := hsigned t ht
  have hspent : prevouts = sampleLocks.map fun script => ⟨50000, script⟩ :=
    List.map_injective_iff.mpr (Option.some_injective _) (hprevouts.symm.trans rfl)
  have herror := (hrefuses _).mpr refused_sampleSpend
  refine ⟨⟨t, ht, hskeleton, fun kind hkind => ?_⟩, herror, hunchanged _ herror⟩
  rw [hcounts, hspent]
  cases kind with
  | taprootScriptPath => exact absurd rfl hkind
  | p2pkh | p2wpkh | p2shP2wpkh | taprootKeyPath => decide +kernel

end Transaction

end CoinSpend
