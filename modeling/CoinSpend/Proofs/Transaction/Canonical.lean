import CoinSpend.Proofs.Transaction.RoundTrip

/-!
Transactions have one written form.

* `Reader.TakesOnly`: a reader accepts nothing but the written form of the value
  that it gives. It is the converse of `Reader.Takes`, and readers in a row are
  opened by `Reader.bind_eq_ok_iff`.
* `CompactSize.takesOnly_read`: a number is only read from its shortest form.
* `Reader.takes_witness`, `Reader.takesOnly_witness`: a witness is read back if and
  only if it fits `maxWitnessBytes`.
* `Transaction.WitnessesFit`: all witnesses of a transaction do.
* `Transaction.decode_encode`, `Transaction.encode_of_decode`: a transaction is read
  from its written form and from nothing else.
* `Transaction.hex_canonical`: so it is with texts, up to the mark and the case of
  the digits.
-/

namespace CoinSpend

variable {α β : Type}

namespace Reader

/-! ### Readers that accept written forms only -/

/-- Two readers in a row succeed if and only if each of them does, the second one
on what the first one leaves. -/
lemma bind_eq_ok_iff {read : Reader α} {next : α → Reader β} {b rest : Bytes} {c : β} :
    (read >>= next) b = .ok (c, rest) ↔
      ∃ a mid, read b = .ok (a, mid) ∧ next a mid = .ok (c, rest) := by
  have hbind : (read >>= next) b = read b >>= fun p => next p.1 p.2 := rfl
  rw [hbind, CoinSpend.bind_eq_ok_iff]
  exact Prod.exists

lemma pure_eq_ok_iff {a c : α} {b rest : Bytes} :
    (pure a : Reader α) b = .ok (c, rest) ↔ a = c ∧ b = rest := by
  have hpure : (pure a : Reader α) b = .ok (a, b) := rfl
  rw [hpure, Except.ok.injEq, Prod.mk.injEq]

/-- A refusal reads nothing. -/
lemma throw_ne_ok {fault : DecodeFault} {b : Bytes} {p : α × Bytes} :
    (throw fault : Reader α) b ≠ .ok p := by
  rintro ⟨⟩

/-- A reader behind a refusal succeeds if and only if nothing is refused and it
succeeds. -/
lemma guard_eq_ok_iff {p : Prop} [Decidable p] {fault : DecodeFault} {f : β → Reader α}
    {read : Reader α} {b rest : Bytes} {a : α} :
    (if p then throw fault >>= f else read) b = .ok (a, rest) ↔ ¬p ∧ read b = .ok (a, rest) := by
  by_cases h : p
  · rw [if_pos h, bind_eq_ok_iff]
    constructor
    · rintro ⟨_, _, hthrow, -⟩
      exact absurd hthrow throw_ne_ok
    · rintro ⟨hp, -⟩
      exact absurd h hp
  · rw [if_neg h]
    simp [h]

/-- A reader behind a refusal takes what it takes if nothing is refused. -/
lemma Takes.guard {p : Prop} [Decidable p] {fault : DecodeFault} {f : β → Reader α}
    {read : Reader α} {b : Bytes} {a : α} (hp : ¬p) (h : Takes read b a) :
    Takes (if p then throw fault >>= f else read) b a := by
  rwa [if_neg hp]

/-- Whatever the reader takes is the written form of the value that it gives, and
the value is one of those meant. -/
def TakesOnly (read : Reader α) (write : α → Bytes) (valid : α → Prop) : Prop :=
  ∀ b a rest, read b = .ok (a, rest) → b = write a ++ rest ∧ valid a

lemma takesOnly_bytes (n : ℕ) : TakesOnly (bytes n) id fun b => b.length = n := by
  intro b a rest h
  rw [bytes] at h
  split_ifs at h with hlength
  cases h
  exact ⟨(List.take_append_drop n b).symm, hlength⟩

lemma takesOnly_nat (n : ℕ) :
    TakesOnly (nat n) (Bytes.ofNatLE n) fun v => v < 256 ^ n := by
  intro b v rest h
  obtain ⟨field, mid, hfield, h⟩ := bind_eq_ok_iff.mp h
  obtain ⟨rfl, rfl⟩ := pure_eq_ok_iff.mp h
  obtain ⟨hb, rfl⟩ := takesOnly_bytes n b field mid hfield
  exact ⟨by rw [hb, id, Bytes.ofNatLE_toNatLE], Bytes.toNatLE_lt field⟩

end Reader

namespace CompactSize

open Reader

/-- A number in a wide form needs its width. -/
lemma takesOnly_readWide (width least : ℕ) :
    TakesOnly (readWide width least) (Bytes.ofNatLE width)
      fun n => least ≤ n ∧ n < 256 ^ width := by
  intro b n rest h
  obtain ⟨v, mid, hv, h⟩ := Reader.bind_eq_ok_iff.mp h
  obtain ⟨hb, hlt⟩ := takesOnly_nat width b v mid hv
  split_ifs at h with hleast
  · exact absurd h throw_ne_ok
  · obtain ⟨rfl, rfl⟩ := Reader.pure_eq_ok_iff.mp h
    exact ⟨hb, Nat.not_lt.mp hleast, hlt⟩

/-- A number is only read from its shortest form. -/
lemma takesOnly_read : TakesOnly read encode fun n => n < UInt64.size := by
  intro b n rest h
  obtain ⟨head, mid, hhead, h⟩ := Reader.bind_eq_ok_iff.mp h
  obtain ⟨hb, hlt⟩ := takesOnly_nat 1 b head mid hhead
  have hb : b = UInt8.ofNat head :: mid := hb
  have hlt : head < 256 := hlt
  split_ifs at h with h₁ h₂ h₃
  · obtain ⟨rfl, rfl⟩ := Reader.pure_eq_ok_iff.mp h
    refine ⟨?_, by rw [UInt64.size]; omega⟩
    rw [hb, encode, if_pos h₁]
    rfl
  · obtain ⟨hmid, hleast, hn⟩ := takesOnly_readWide 2 253 mid n rest h
    have hn : n < 0x10000 := hn
    refine ⟨?_, by rw [UInt64.size]; omega⟩
    rw [hb, hmid, encode, if_neg (by omega), if_pos (by omega), h₂]
    rfl
  · obtain ⟨hmid, hleast, hn⟩ := takesOnly_readWide 4 0x10000 mid n rest h
    have hn : n < 0x100000000 := hn
    refine ⟨?_, by rw [UInt64.size]; omega⟩
    rw [hb, hmid, encode, if_neg (by omega), if_neg (by omega), if_pos (by omega), h₃]
    rfl
  · obtain ⟨hmid, hleast, hn⟩ := takesOnly_readWide 8 0x100000000 mid n rest h
    have hmark : head = 255 := by omega
    refine ⟨?_, hn⟩
    rw [hb, hmid, encode, if_neg (by omega), if_neg (by omega), if_neg (by omega), hmark]
    rfl

end CompactSize

namespace Reader

/-! ### Lists and byte strings -/

lemma takesOnly_times {read : Reader α} {write : α → Bytes} {valid : α → Prop}
    (h : TakesOnly read write valid) (n : ℕ) :
    TakesOnly (times read n) (List.flatMap write) fun as => as.length = n ∧ ∀ a ∈ as, valid a := by
  induction n with
  | zero =>
      intro b as rest has
      obtain ⟨rfl, rfl⟩ := pure_eq_ok_iff.mp has
      exact ⟨rfl, rfl, by simp⟩
  | succ n ih =>
      intro b as rest has
      obtain ⟨a, mid, ha, has⟩ := bind_eq_ok_iff.mp has
      obtain ⟨tail, mid', htail, has⟩ := bind_eq_ok_iff.mp has
      obtain ⟨rfl, rfl⟩ := pure_eq_ok_iff.mp has
      obtain ⟨hb, hvalid⟩ := h b a mid ha
      obtain ⟨hmid, hlength, hall⟩ := ih mid tail mid' htail
      refine ⟨?_, by rw [List.length_cons, hlength], List.forall_mem_cons.mpr ⟨hvalid, hall⟩⟩
      rw [hb, hmid, List.flatMap_cons, List.append_assoc]

/-- A list is only read with its length in front. -/
lemma takesOnly_list {read : Reader α} {write : α → Bytes} {valid : α → Prop}
    (h : TakesOnly read write valid) :
    TakesOnly (list read) (fun as => CompactSize.encode as.length ++ as.flatMap write)
      fun as => as.length < UInt64.size ∧ ∀ a ∈ as, valid a := by
  intro b as rest has
  obtain ⟨n, mid, hn, has⟩ := bind_eq_ok_iff.mp has
  obtain ⟨hb, hlt⟩ := CompactSize.takesOnly_read b n mid hn
  obtain ⟨hmid, rfl, hall⟩ := takesOnly_times h n mid as rest has
  exact ⟨by rw [hb, hmid, List.append_assoc], hlt, hall⟩

/-- A byte string is only read with its length in front. -/
lemma takesOnly_sized :
    TakesOnly sized CoinSpend.sized fun b => b.length < UInt64.size := by
  intro b a rest h
  obtain ⟨n, mid, hn, h⟩ := bind_eq_ok_iff.mp h
  obtain ⟨hb, hlt⟩ := CompactSize.takesOnly_read b n mid hn
  obtain ⟨hmid, rfl⟩ := takesOnly_bytes n mid a rest h
  exact ⟨by rw [hb, hmid, CoinSpend.sized, List.append_assoc, id], hlt⟩

/-! ### Inputs and outputs -/

lemma takesOnly_outPoint : TakesOnly outPoint OutPoint.encode fun _ => True := by
  intro b o rest h
  obtain ⟨field, mid, hfield, h⟩ := bind_eq_ok_iff.mp h
  obtain ⟨vout, mid', hvout, h⟩ := bind_eq_ok_iff.mp h
  obtain ⟨hb, hlength⟩ := takesOnly_bytes 32 b field mid hfield
  obtain ⟨hmid, hlt⟩ := takesOnly_nat 4 mid vout mid' hvout
  have hnat : (UInt32.ofNat vout).toNat = vout := UInt32.toNat_ofNat_of_lt hlt
  simp only [Txid.ofBytes?, hlength, dite_true] at h
  obtain ⟨rfl, rfl⟩ := pure_eq_ok_iff.mp h
  refine ⟨?_, trivial⟩
  rw [hb, hmid, OutPoint.encode, hnat, List.append_assoc, id]

/-- An input is read without a witness. -/
lemma takesOnly_input :
    TakesOnly input TxIn.encode
      fun i => i.scriptSig.length < UInt64.size ∧ i.witness = [] := by
  intro b i rest h
  obtain ⟨previous, mid₁, hprevious, h⟩ := bind_eq_ok_iff.mp h
  obtain ⟨scriptSig, mid₂, hscriptSig, h⟩ := bind_eq_ok_iff.mp h
  obtain ⟨sequence, mid₃, hsequence, h⟩ := bind_eq_ok_iff.mp h
  obtain ⟨rfl, rfl⟩ := pure_eq_ok_iff.mp h
  obtain ⟨hb, -⟩ := takesOnly_outPoint b previous mid₁ hprevious
  obtain ⟨hmid₁, hlength⟩ := takesOnly_sized mid₁ scriptSig mid₂ hscriptSig
  obtain ⟨hmid₂, hlt⟩ := takesOnly_nat 4 mid₂ sequence mid₃ hsequence
  have hnat : (UInt32.ofNat sequence).toNat = sequence := UInt32.toNat_ofNat_of_lt hlt
  refine ⟨?_, hlength, rfl⟩
  rw [hb, hmid₁, hmid₂, TxIn.encode, hnat, List.append_assoc, List.append_assoc]

lemma takesOnly_output :
    TakesOnly output TxOut.encode fun o => o.script.length < UInt64.size := by
  intro b o rest h
  obtain ⟨value, mid, hvalue, h⟩ := bind_eq_ok_iff.mp h
  obtain ⟨script, mid', hscript, h⟩ := bind_eq_ok_iff.mp h
  obtain ⟨rfl, rfl⟩ := pure_eq_ok_iff.mp h
  obtain ⟨hb, hlt⟩ := takesOnly_nat 8 b value mid hvalue
  obtain ⟨hmid, hlength⟩ := takesOnly_sized mid script mid' hscript
  have hnat : (UInt64.ofNat value).toNat = value := UInt64.toNat_ofNat_of_lt hlt
  refine ⟨?_, hlength⟩
  rw [hb, hmid, TxOut.encode, hnat, List.append_assoc]

/-! ### Witnesses -/

/-- The items of a witness are read back as long as the space for a witness is not
used up. -/
lemma takes_witnessItems {count used : ℕ} {items : List Bytes} (hcount : count ≤ maxWitnessBytes)
    (hused : used + sumOf sizedSize items ≤ maxWitnessBytes) :
    Takes (witnessItems count items.length used) (items.flatMap CoinSpend.sized) items := by
  rw [maxWitnessBytes] at hcount hused
  induction items generalizing used with
  | nil => exact Takes.pure []
  | cons item items ih =>
      rw [sumOf, sizedSize] at hused
      have hlength : item.length < UInt64.size := by
        rw [UInt64.size]
        omega
      have hspace : ¬UInt64.size ≤ 4 * count
          + (used + item.length + CompactSize.size item.length) := by
        rw [UInt64.size]
        omega
      have hfits : ¬maxWitnessBytes < used + item.length + CompactSize.size item.length := by
        rw [maxWitnessBytes]
        omega
      have hrest : Takes (witnessItems count items.length
          (used + item.length + CompactSize.size item.length))
          (items.flatMap CoinSpend.sized) items := ih (by omega)
      rw [List.flatMap_cons, CoinSpend.sized, List.append_assoc]
      refine (CompactSize.takes_read hlength).bind ?_
      simp only [if_neg hspace, if_neg hfits]
      exact (takes_bytes rfl).bind (hrest.map (item :: ·))

/-- Items are only read as long as the space for a witness is not used up. -/
lemma takesOnly_witnessItems (count n used : ℕ) :
    TakesOnly (witnessItems count n used) (List.flatMap CoinSpend.sized)
      fun items => items.length = n ∧
        (items ≠ [] → used + sumOf sizedSize items ≤ maxWitnessBytes) := by
  induction n generalizing used with
  | zero =>
      intro b items rest h
      obtain ⟨rfl, rfl⟩ := pure_eq_ok_iff.mp h
      exact ⟨rfl, rfl, by simp⟩
  | succ n ih =>
      intro b items rest h
      obtain ⟨length, mid₁, hlength, h⟩ := bind_eq_ok_iff.mp h
      obtain ⟨hb, -⟩ := CompactSize.takesOnly_read b length mid₁ hlength
      obtain ⟨-, h⟩ := guard_eq_ok_iff.mp h
      obtain ⟨hfits, h⟩ := guard_eq_ok_iff.mp h
      obtain ⟨item, mid₂, hitem, h⟩ := bind_eq_ok_iff.mp h
      obtain ⟨tail, mid₃, htail, h⟩ := bind_eq_ok_iff.mp h
      obtain ⟨rfl, rfl⟩ := pure_eq_ok_iff.mp h
      obtain ⟨hmid₁, rfl⟩ := takesOnly_bytes length mid₁ item mid₂ hitem
      obtain ⟨hmid₂, hcount, hused⟩ := ih _ mid₂ tail mid₃ htail
      refine ⟨?_, by rw [List.length_cons, hcount], fun _ => ?_⟩
      · rw [hb, hmid₁, hmid₂, List.flatMap_cons, CoinSpend.sized, id]
        simp only [List.append_assoc]
      · -- the last item is the one that may use up the space
        rw [sumOf, sizedSize]
        cases tail with
        | nil =>
            rw [sumOf]
            omega
        | cons next tail =>
            have hrest := hused (List.cons_ne_nil next tail)
            omega

/-- There are no more items than bytes. -/
lemma length_le_sumOf_sizedSize (items : List Bytes) :
    items.length ≤ sumOf sizedSize items := by
  induction items with
  | nil => exact Nat.le_refl 0
  | cons item items ih =>
      have hsize : 1 ≤ CompactSize.size item.length := by
        rw [CompactSize.size]
        split_ifs <;> omega
      rw [List.length_cons, sumOf, sizedSize]
      omega

/-- A witness that fits its space is read back. -/
lemma takes_witness {items : List Bytes} (h : sumOf sizedSize items ≤ maxWitnessBytes) :
    Takes witness (encodeWitness items) items := by
  have hle := length_le_sumOf_sizedSize items
  have hcount : ¬maxWitnessBytes < items.length := by omega
  have hlength : items.length < UInt64.size := by
    rw [maxWitnessBytes] at h
    rw [UInt64.size]
    omega
  refine (CompactSize.takes_read hlength).bind ?_
  simp only [if_neg hcount]
  exact takes_witnessItems (by omega) (by omega)

/-- A witness is only read if it fits its space. -/
lemma takesOnly_witness :
    TakesOnly witness encodeWitness fun items => sumOf sizedSize items ≤ maxWitnessBytes := by
  intro b items rest h
  obtain ⟨count, mid, hcount, h⟩ := bind_eq_ok_iff.mp h
  obtain ⟨hb, -⟩ := CompactSize.takesOnly_read b count mid hcount
  obtain ⟨-, h⟩ := guard_eq_ok_iff.mp h
  obtain ⟨hmid, rfl, hfits⟩ := takesOnly_witnessItems count count 0 mid items rest h
  refine ⟨by rw [hb, hmid, encodeWitness, List.append_assoc], ?_⟩
  by_cases hnil : items = []
  · subst hnil
    exact Nat.zero_le _
  · have hsum := hfits hnil
    omega

end Reader

/-- The input without its witness. -/
def TxIn.unwitnessed (input : TxIn) : TxIn :=
  { input with witness := [] }

/-- The witnesses of inputs, one after the other. -/
def encodeWitnesses (inputs : List TxIn) : Bytes :=
  inputs.flatMap fun input => encodeWitness input.witness

namespace Reader

/-- The witnesses of all inputs are read back. -/
lemma takes_witnesses {inputs : List TxIn}
    (h : ∀ input ∈ inputs, sumOf sizedSize input.witness ≤ maxWitnessBytes) :
    Takes (witnesses (inputs.map TxIn.unwitnessed)) (encodeWitnesses inputs) inputs := by
  induction inputs with
  | nil => exact Takes.pure []
  | cons input inputs ih =>
      obtain ⟨hhead, htail⟩ := List.forall_mem_cons.mp h
      exact (takes_witness hhead).bind ((ih htail).map (input :: ·))

/-- Nothing but witnesses is read into inputs. -/
lemma takesOnly_witnesses (inputs : List TxIn) :
    TakesOnly (witnesses inputs) encodeWitnesses fun filled =>
      filled.map TxIn.unwitnessed = inputs.map TxIn.unwitnessed ∧
        ∀ input ∈ filled, sumOf sizedSize input.witness ≤ maxWitnessBytes := by
  induction inputs with
  | nil =>
      intro b filled rest h
      obtain ⟨rfl, rfl⟩ := pure_eq_ok_iff.mp h
      exact ⟨rfl, rfl, by simp⟩
  | cons input inputs ih =>
      intro b filled rest h
      obtain ⟨items, mid, hitems, h⟩ := bind_eq_ok_iff.mp h
      obtain ⟨tail, mid', htail, h⟩ := bind_eq_ok_iff.mp h
      obtain ⟨rfl, rfl⟩ := pure_eq_ok_iff.mp h
      obtain ⟨hb, hfits⟩ := takesOnly_witness b items mid hitems
      obtain ⟨hmid, hmap, hall⟩ := ih mid tail mid' htail
      refine ⟨?_, ?_, List.forall_mem_cons.mpr ⟨hfits, hall⟩⟩
      · rw [hb, hmid, encodeWitnesses, encodeWitnesses, List.flatMap_cons, List.append_assoc]
      · rw [List.map_cons, List.map_cons, hmap]
        rfl

lemma takesOnly_lockTime (version : ℕ) (inputs : List TxIn) (outputs : List TxOut) :
    TakesOnly (lockTime version inputs outputs) Transaction.encodeLockTime fun tx =>
      tx.version = (UInt32.ofNat version).toInt32 ∧ tx.inputs = inputs ∧
        tx.outputs = outputs := by
  intro b tx rest h
  obtain ⟨time, mid, htime, h⟩ := bind_eq_ok_iff.mp h
  obtain ⟨rfl, rfl⟩ := pure_eq_ok_iff.mp h
  obtain ⟨hb, hlt⟩ := takesOnly_nat 4 b time mid htime
  have hnat : (UInt32.ofNat time).toNat = time := UInt32.toNat_ofNat_of_lt hlt
  exact ⟨by rw [hb, Transaction.encodeLockTime, hnat], rfl, rfl, rfl⟩

end Reader

namespace Transaction

/-! ### Transactions -/

/-- Every witness fits the space that reading leaves for one. -/
def WitnessesFit (tx : Transaction) : Prop :=
  ∀ input ∈ tx.inputs, sumOf sizedSize input.witness ≤ maxWitnessBytes

/-- The form with witnesses is used unless there are inputs and none has one. -/
lemma usesWitnessForm_iff {tx : Transaction} :
    tx.usesWitnessForm = true ↔
      ¬(!tx.inputs.isEmpty && tx.inputs.all fun input => input.witness.isEmpty) = true := by
  rw [← Bool.not_eq_false, usesWitnessForm_eq_false_iff]
  simp

/-- The form with witnesses is read back from its flag on. -/
lemma takes_flagged {tx : Transaction} (hfits : tx.Fits) (hwitnesses : tx.WitnessesFit)
    (h : tx.usesWitnessForm = true) :
    Reader.Takes (Reader.flagged tx.version.toUInt32.toNat)
      ([1] ++ (tx.encodeInputs ++ (tx.encodeOutputs ++ (encodeWitnesses tx.inputs
        ++ tx.encodeLockTime)))) tx := by
  have hflag : Reader.Takes (Reader.nat 1) [1] 1 := Reader.takes_nat (by decide)
  have hinputs : Reader.Takes (Reader.list Reader.input) tx.encodeInputs
      (tx.inputs.map TxIn.unwitnessed) :=
    Reader.takes_list hfits.inputs fun input hinput =>
      Reader.takes_input (hfits.scriptSigs input hinput)
  have houtputs := Reader.takes_list hfits.outputs fun output houtput =>
    Reader.takes_output (hfits.scripts output houtput)
  rw [List.map_id'] at houtputs
  refine hflag.bind (.guard (fun hne => hne rfl) ?_)
  refine hinputs.bind (houtputs.bind ((Reader.takes_witnesses hwitnesses).bind ?_))
  exact .guard (usesWitnessForm_iff.mp h) (Reader.takes_lockTime _ _ _ _)

/-- **A transaction is read back from its written form.** -/
theorem decode_encode {tx : Transaction} (hfits : tx.Fits) (hwitnesses : tx.WitnessesFit) :
    decode tx.encode = .ok tx := by
  by_cases h : tx.usesWitnessForm = true
  · have hversion : tx.version.toUInt32.toNat < 256 ^ 4 := tx.version.toUInt32.toNat_lt
    -- the mark is read as a list without inputs
    have hnone : ∀ input ∈ ([] : List TxIn),
        Reader.Takes Reader.input input.encode input.unwitnessed := by
      simp
    have hmark : Reader.Takes (Reader.list Reader.input) [0] [] :=
      Reader.takes_list (by decide) hnone
    have htakes : Reader.Takes Reader.transaction tx.encode tx := by
      rw [encode, if_pos h]
      simp only [List.append_assoc]
      exact (Reader.takes_nat hversion).bind (hmark.bind (takes_flagged hfits hwitnesses h))
    have hall := htakes []
    rw [List.append_nil] at hall
    rw [decode, hall]
  · have hplain : tx.usesWitnessForm = false := by simpa using h
    rw [encode, if_neg h, decode_encodeStripped hfits (usesWitnessForm_eq_false_iff.mp hplain).1,
      stripped_of_plain hplain]

/-- The inputs of two transactions that differ in witnesses alone have one written
form. -/
lemma encodeInputs_congr {inputs others : List TxIn}
    (h : inputs.map TxIn.unwitnessed = others.map TxIn.unwitnessed) :
    inputs.length = others.length ∧ inputs.flatMap TxIn.encode = others.flatMap TxIn.encode := by
  have hencode (xs : List TxIn) :
      xs.flatMap TxIn.encode = (xs.map TxIn.unwitnessed).flatMap TxIn.encode := by
    rw [List.flatMap_map]
    rfl
  refine ⟨?_, by rw [hencode inputs, hencode others, h]⟩
  simpa using congrArg List.length h

/-- A version that was read is written again. -/
lemma encodeVersion_of_eq {tx : Transaction} {version : ℕ} (hlt : version < 256 ^ 4)
    (h : tx.version = (UInt32.ofNat version).toInt32) :
    tx.encodeVersion = Bytes.ofNatLE 4 version := by
  have hnat : (UInt32.ofNat version).toNat = version := UInt32.toNat_ofNat_of_lt hlt
  rw [encodeVersion, h, UInt32.toUInt32_toInt32, hnat]

/-- From the flag on, nothing but the form with witnesses is read. -/
lemma takesOnly_flagged {version : ℕ} (hversion : version < 256 ^ 4) {b rest : Bytes}
    {tx : Transaction} (h : Reader.flagged version b = .ok (tx, rest)) :
    Bytes.ofNatLE 4 version ++ ([0] ++ b) = tx.encode ++ rest ∧ tx.Fits ∧ tx.WitnessesFit := by
  obtain ⟨flag, mid₁, hflag, h⟩ := Reader.bind_eq_ok_iff.mp h
  obtain ⟨hone, h⟩ := Reader.guard_eq_ok_iff.mp h
  obtain ⟨inputs, mid₂, hinputs, h⟩ := Reader.bind_eq_ok_iff.mp h
  obtain ⟨outputs, mid₃, houtputs, h⟩ := Reader.bind_eq_ok_iff.mp h
  obtain ⟨filled, mid₄, hfilled, h⟩ := Reader.bind_eq_ok_iff.mp h
  obtain ⟨hsome, h⟩ := Reader.guard_eq_ok_iff.mp h
  obtain ⟨hb, -⟩ := Reader.takesOnly_nat 1 b flag mid₁ hflag
  obtain ⟨hmid₁, hcount, hvalid⟩ :=
    Reader.takesOnly_list Reader.takesOnly_input mid₁ inputs mid₂ hinputs
  obtain ⟨hmid₂, houtputCount, hscripts⟩ :=
    Reader.takesOnly_list Reader.takesOnly_output mid₂ outputs mid₃ houtputs
  obtain ⟨hmid₃, hmap, hwitnesses⟩ := Reader.takesOnly_witnesses inputs mid₃ filled mid₄ hfilled
  obtain ⟨hmid₄, htxVersion, rfl, rfl⟩ := Reader.takesOnly_lockTime _ _ _ mid₄ tx rest h
  obtain ⟨hlength, hencode⟩ := encodeInputs_congr hmap
  refine ⟨?_, ⟨hlength ▸ hcount, houtputCount, ?_, hscripts⟩, hwitnesses⟩
  · have hflag : flag = 1 := not_not.mp hone
    rw [encode, if_pos (usesWitnessForm_iff.mpr hsome), encodeVersion_of_eq hversion htxVersion,
      encodeInputs, encodeOutputs, hlength, hencode, hb, hmid₁, hmid₂, hmid₃, hmid₄, hflag]
    simp only [List.append_assoc]
    rfl
  · -- a signature script is found among the inputs as they were before their witnesses
    intro input hinput
    have hmem := hmap ▸ List.mem_map_of_mem (f := TxIn.unwitnessed) hinput
    obtain ⟨source, hsource, heq⟩ := List.mem_map.mp hmem
    have hscriptSig : source.unwitnessed.scriptSig = input.unwitnessed.scriptSig := by rw [heq]
    have hlt : source.unwitnessed.scriptSig.length < UInt64.size := (hvalid source hsource).1
    rwa [hscriptSig] at hlt

/-- Nothing but the written form of a transaction that fits is read. -/
lemma takesOnly_transaction :
    Reader.TakesOnly Reader.transaction encode fun tx => tx.Fits ∧ tx.WitnessesFit := by
  intro b tx rest h
  obtain ⟨version, mid₁, hversion, h⟩ := Reader.bind_eq_ok_iff.mp h
  obtain ⟨inputs, mid₂, hinputs, h⟩ := Reader.bind_eq_ok_iff.mp h
  obtain ⟨hb, hlt⟩ := Reader.takesOnly_nat 4 b version mid₁ hversion
  obtain ⟨hmid₁, hcount, hvalid⟩ :=
    Reader.takesOnly_list Reader.takesOnly_input mid₁ inputs mid₂ hinputs
  split_ifs at h with hempty
  · -- no inputs are the mark of the form with witnesses
    obtain rfl := List.isEmpty_iff.mp hempty
    rw [hb, hmid₁]
    exact takesOnly_flagged hlt h
  · obtain ⟨outputs, mid₃, houtputs, h⟩ := Reader.bind_eq_ok_iff.mp h
    obtain ⟨hmid₂, houtputCount, hscripts⟩ :=
      Reader.takesOnly_list Reader.takesOnly_output mid₂ outputs mid₃ houtputs
    obtain ⟨hmid₃, htxVersion, rfl, rfl⟩ := Reader.takesOnly_lockTime _ _ _ mid₃ tx rest h
    have hplain : tx.usesWitnessForm = false :=
      usesWitnessForm_eq_false_iff.mpr
        ⟨mt List.isEmpty_iff.mpr hempty, fun input hinput => (hvalid input hinput).2⟩
    refine ⟨?_, ⟨hcount, houtputCount, fun input hinput => (hvalid input hinput).1, hscripts⟩, ?_⟩
    · rw [encode, hplain, if_neg Bool.false_ne_true, encodeStripped,
        encodeVersion_of_eq hlt htxVersion, encodeInputs, encodeOutputs, hb, hmid₁, hmid₂, hmid₃]
      simp only [List.append_assoc]
    · intro input hinput
      rw [(hvalid input hinput).2, sumOf]
      exact Nat.zero_le _

/-- **A transaction is read from nothing but its written form.** -/
theorem encode_of_decode {b : Bytes} {tx : Transaction} (h : decode b = .ok tx) :
    tx.encode = b ∧ tx.Fits ∧ tx.WitnessesFit := by
  rw [decode] at h
  split at h
  · rename_i hread
    cases h
    obtain ⟨hb, hvalid⟩ := takesOnly_transaction b tx [] hread
    exact ⟨by rw [hb, List.append_nil], hvalid⟩
  · cases h
  · cases h

/-! ### Texts -/

/-- **Transactions have one text.** A transaction is read back from its text, and a
text that is read as a transaction is the text of this transaction, up to the mark
in front and the case of the digits. -/
theorem hex_canonical :
    (∀ tx : Transaction, tx.Fits → tx.WitnessesFit → ofHex tx.toHex = .ok tx) ∧
    ∀ (text : String) (tx : Transaction), ofHex text = .ok tx →
      tx.toHex = (Hex.stripMark text).toLower ∧ tx.Fits ∧ tx.WitnessesFit := by
  constructor
  · intro tx hfits hwitnesses
    rw [ofHex, toHex, Hex.decodeMarked_encode]
    simp only [decode_encode hfits hwitnesses]
  · intro text tx h
    rw [ofHex] at h
    split at h
    · cases h
    · rename_i b hhex
      split at h
      · cases h
      · rename_i hdecode
        cases h
        obtain ⟨hb, hvalid⟩ := encode_of_decode hdecode
        exact ⟨by rw [toHex, hb, Hex.encode_of_decodeMarked hhex], hvalid⟩

/-- One input with a witness of two items, of which one is empty, and no outputs. -/
def sampleWitnessed : Transaction :=
  ⟨2, 0, [⟨⟨.zero, 7⟩, [], 0xfffffffd, [[], [1, 2, 3]]⟩], []⟩

/-- A transaction with a witness is read back, and the text of a transaction with
neither inputs nor outputs is in lower case and without a mark. -/
theorem hex_canonical_sample :
    sampleWitnessed.Fits ∧ sampleWitnessed.WitnessesFit ∧
      ofHex sampleWitnessed.toHex = .ok sampleWitnessed ∧
      ∃ tx, ofHex "0X02000000000100000000AB00" = .ok tx ∧
        tx.toHex = "02000000000100000000ab00" := by
  have hfits : sampleWitnessed.Fits := ⟨by decide, by decide, by decide, by decide⟩
  have hwitnesses : sampleWitnessed.WitnessesFit := by
    intro input hinput
    obtain rfl := List.mem_singleton.mp hinput
    decide
  obtain ⟨tx, htx⟩ : ∃ tx, ofHex "0X02000000000100000000AB00" = .ok tx :=
    exists_eq_ok_of_isSome (by decide +kernel)
  obtain ⟨hread, honly⟩ := hex_canonical
  refine ⟨hfits, hwitnesses, hread _ hfits hwitnesses, tx, htx, ?_⟩
  rw [(honly _ tx htx).1]
  decide +kernel

end Transaction

end CoinSpend
