import CoinSpend.Proofs.Draft.Legacy
import CoinSpend.Proofs.Draft.Request
import CoinSpend.Proofs.Draft.Sign

/-!
Every way of signing keeps what was gathered.

* `Draft.Entry`, `Draft.gather`: a draft that is told one entry after the other.
  `Draft.Holds.add`, `Draft.holds_gather`: what it holds after each of them, and in the
  end.
* `Transaction.Realizes`: a transaction spends what was gathered and pays it, but for
  change below the dust floor.
* `Draft.realizes_of_skeleton`: this depends on the skeleton of the transaction alone.
* `Draft.realizes_of_gather`: hence the three ways of signing keep what was gathered.
-/

namespace CoinSpend

namespace Draft

/-! ### Gathering -/

/-- Something that a draft is told. -/
inductive Entry where
  | spend (spend : Spend)
  | payment (payment : Payment)
  | dustFloor (amount : Amount)

namespace Entry

/-- The spend of an entry. -/
def spend? : Entry → Option Spend
  | spend s => some s
  | payment _ | dustFloor _ => none

/-- The payment of an entry. -/
def payment? : Entry → Option Payment
  | payment p => some p
  | spend _ | dustFloor _ => none

/-- The dust floor that an entry sets. -/
def dustFloor? : Entry → Option Amount
  | dustFloor amount => some amount
  | spend _ | payment _ => none

/-- The dust floor after some entries: the one that was set last. -/
def floorOf (entries : List Entry) : Amount :=
  (entries.filterMap dustFloor?).getLast?.getD defaultValue

lemma floorOf_append (entries : List Entry) (entry : Entry) :
    floorOf (entries ++ [entry]) = entry.dustFloor?.getD (floorOf entries) := by
  rw [floorOf, List.filterMap_append]
  cases h : entry.dustFloor? <;> simp [h, floorOf]

end Entry

/-- The draft with one more entry. -/
def add (draft : Draft) : Entry → Draft
  | .spend spend => draft.addSpend spend
  | .payment payment => draft.addPayment payment
  | .dustFloor amount => draft.setDustFloor amount

/-- The draft that is told some entries, one after the other. -/
def gather (version : Int32) (params : ChainParams) (entries : List Entry) : Draft :=
  entries.foldl add (empty version params)

/-- The draft holds what some entries say, in their order. -/
structure Holds (version : Int32) (params : ChainParams) (entries : List Entry) (draft : Draft) :
    Prop where
  version_eq : draft.version = version
  params_eq : draft.params = params
  dustFloor_eq : draft.dustFloor = Entry.floorOf entries
  spends_eq : draft.spends = entries.filterMap Entry.spend?
  payments_eq : draft.payments = entries.filterMap Entry.payment?

variable {version : Int32} {params : ChainParams} {entries : List Entry} {draft : Draft}

/-- With one more entry it holds what this one says as well. -/
lemma Holds.add (h : Holds version params entries draft) (entry : Entry) :
    Holds version params (entries ++ [entry]) (draft.add entry) := by
  obtain ⟨hversion, hparams, hfloor, hspends, hpayments⟩ := h
  refine ⟨?_, ?_, ?_, ?_, ?_⟩
  · cases entry <;> exact hversion
  · cases entry <;> exact hparams
  · rw [Entry.floorOf_append, ← hfloor]
    cases entry <;> rfl
  · rw [List.filterMap_append, ← hspends]
    cases entry with
    | spend s => rfl
    | payment p | dustFloor amount => exact (List.append_nil _).symm
  · rw [List.filterMap_append, ← hpayments]
    cases entry with
    | payment p => rfl
    | spend s | dustFloor amount => exact (List.append_nil _).symm

/-- In the end it holds what all of them say. -/
lemma holds_gather (version : Int32) (params : ChainParams) (entries : List Entry) :
    Holds version params entries (gather version params entries) := by
  induction entries using List.reverseRecOn with
  | nil => exact ⟨rfl, rfl, rfl, rfl, rfl⟩
  | append_singleton entries entry ih =>
      rw [gather, List.foldl_append]
      exact ih.add entry

end Draft

/-! ### What a transaction keeps -/

/-- A transaction spends what some entries say and pays it, in their order. Change below the
dust floor is left out, and nothing else. -/
structure Transaction.Realizes (t : Transaction) (version : Int32) (params : ChainParams)
    (entries : List Draft.Entry) : Prop where
  version_eq : t.version = version
  lockTime_eq : t.lockTime = 0
  previous_eq : t.inputs.map TxIn.previous
    = (entries.filterMap Draft.Entry.spend?).map Spend.outpoint
  sequence_eq : ∀ input ∈ t.inputs, input.sequence = 0xffffffff
  outputs : List.Forall₂ (fun payment output => output.value = payment.amount ∧
      payment.lock.toScript params = .ok output.script)
    ((entries.filterMap Draft.Entry.payment?).filter fun payment =>
      !(payment.isChange && payment.amount < Draft.Entry.floorOf entries)) t.outputs
  outputs_ne : t.outputs ≠ []
  kept : ∀ payment, .payment payment ∈ entries →
    payment.isChange = false ∨ Draft.Entry.floorOf entries ≤ payment.amount →
    ∃ output ∈ t.outputs, output.value = payment.amount ∧
      payment.lock.toScript params = .ok output.script

namespace Draft

variable {version : Int32} {params : ChainParams} {entries : List Entry} {t : Transaction}
  {outputs : List TxOut}

/-- The output of a payment has its amount and its script. -/
lemma outputOf_eq_ok_iff {draft : Draft} {payment : Payment} {output : TxOut} :
    draft.outputOf payment = .ok output ↔
      output.value = payment.amount ∧ payment.lock.toScript draft.params = .ok output.script := by
  simp only [outputOf, bind_eq_ok_iff, pure_eq_ok_iff]
  constructor
  · rintro ⟨script, hscript, rfl⟩
    exact ⟨rfl, hscript⟩
  · rintro ⟨hvalue, hscript⟩
    exact ⟨output.script, hscript, by rw [← hvalue]⟩

/-- The payments that are made are told apart by their entries alone. -/
lemma filter_keeps_gather (version : Int32) (params : ChainParams) (entries : List Entry) :
    (gather version params entries).payments.filter (gather version params entries).keeps
      = (entries.filterMap Entry.payment?).filter fun payment =>
          !(payment.isChange && payment.amount < Entry.floorOf entries) := by
  have hholds := holds_gather version params entries
  rw [hholds.payments_eq, ← hholds.dustFloor_eq]
  rfl

/-- A transaction realizes what was gathered if its skeleton is the unsigned
transaction. -/
lemma realizes_of_skeleton
    (hskeleton : t.skeleton = (gather version params entries).unsigned outputs)
    (houtputs : (gather version params entries).keptOutputs = .ok outputs) :
    t.Realizes version params entries := by
  have hholds := holds_gather version params entries
  have hunsigned := hskeleton.trans ((gather version params entries).skeleton_unsigned outputs).symm
  obtain rfl : t.outputs = outputs := Transaction.outputs_of_skeleton hunsigned
  obtain ⟨hmade, hne⟩ := keptOutputs_eq_ok_iff.mp houtputs
  simp only [outputOf_eq_ok_iff, hholds.params_eq, filter_keeps_gather] at hmade
  refine
    { version_eq := (congrArg Transaction.version hskeleton).trans hholds.version_eq
      lockTime_eq := congrArg Transaction.lockTime hskeleton
      previous_eq := ?_
      sequence_eq := fun input hinput => ?_
      outputs := hmade
      outputs_ne := hne
      kept := fun payment hpayment hfloor => ?_ }
  · rw [Transaction.map_previous_of_skeleton hunsigned, map_previous_unsigned, hholds.spends_eq]
  · -- the sequence of an input is that of its counterpart without a signature script
    have hbare : input.bare ∈ ((gather version params entries).unsigned t.outputs).inputs :=
      hskeleton ▸ List.mem_map_of_mem hinput
    obtain ⟨spend, -, hspend⟩ := List.mem_map.mp hbare
    exact (congrArg TxIn.sequence hspend).symm
  · have hmem : payment ∈ (entries.filterMap Entry.payment?).filter fun payment =>
        !(payment.isChange && payment.amount < Entry.floorOf entries) := by
      refine List.mem_filter.mpr ⟨List.mem_filterMap.mpr ⟨_, hpayment, rfl⟩, ?_⟩
      simpa using hfloor
    obtain ⟨i, hi⟩ := List.mem_iff_getElem?.mp hmem
    obtain ⟨output, houtput, hmakes⟩ := exists_getElem?_of_forall₂ hmade hi
    exact ⟨output, List.mem_of_getElem? houtput, hmakes⟩

/-! ### The three ways -/

/-- The unsigned transaction with signature scripts for all spends realizes what was
gathered, and can be read back from its text. -/
lemma realizes_of_filled {scriptSigs : List Script}
    (hspends : (gather version params entries).spends ≠ [])
    (houtputs : (gather version params entries).keptOutputs = .ok outputs)
    (hcount : (gather version params entries).spends.length ≤ scriptSigs.length)
    (hshort : ∀ scriptSig ∈ scriptSigs, scriptSig.length < UInt64.size)
    (ht : t = ((gather version params entries).unsigned outputs).withScriptSigs scriptSigs) :
    t.Realizes version params entries ∧
      ((gather version params entries).Addressable → Transaction.ofHex t.toHex = .ok t) := by
  subst ht
  refine ⟨realizes_of_skeleton ?_ houtputs, fun haddr =>
    ofHex_filled haddr hspends houtputs hcount hshort⟩
  rw [skeleton_filled hcount, skeleton_unsigned]

/-- **Every way of signing keeps what was gathered.** However a draft came about, a
transaction that signing by the locks, signing in the signature scripts alone, or the
request for signatures gives spends what was gathered and pays it, in order, but for
change below the dust floor. The first of them gives the transaction, whose outputs are
not worth more than the spends, and neither sum is too large for an amount. The other two
give its text, from which it can be read back. -/
theorem realizes_of_gather (version : Int32) (params : ChainParams) (entries : List Entry) :
    (∀ t, (gather version params entries).sign.outcome = .ok t →
      t.Realizes version params entries ∧
      Amount.total (t.outputs.map TxOut.value)
        ≤ Amount.total ((entries.filterMap Entry.spend?).map Spend.amount) ∧
      Amount.total ((entries.filterMap Entry.spend?).map Spend.amount) < UInt64.size) ∧
    (∀ text, (gather version params entries).signLegacy.outcome = .ok text →
      ∃ t : Transaction, text = t.toHex ∧ t.Realizes version params entries ∧
        ((gather version params entries).Addressable → Transaction.ofHex text = .ok t)) ∧
    ∀ keys request, ((gather version params entries).signingRequest keys).outcome = .ok request →
      ∃ t : Transaction, request.txHex = t.toHex ∧ t.Realizes version params entries ∧
        ((gather version params entries).Addressable →
          Transaction.ofHex request.txHex = .ok t) := by
  have hholds := holds_gather version params entries
  refine ⟨fun t h => ?_, fun text h => ?_, fun keys request h => ?_⟩
  · obtain ⟨-, hcovered, spends, outputs, -, houtputs, hsigned⟩ := sign_eq_ok_iff.mp h
    have hskeleton := (Transaction.skeleton_of_trialSigned hsigned).trans
      ((gather version params entries).skeleton_unsigned outputs)
    have hrealizes := realizes_of_skeleton hskeleton houtputs
    rw [← hholds.spends_eq]
    refine ⟨hrealizes, ?_, hcovered.lt⟩
    calc Amount.total (t.outputs.map TxOut.value)
        = Amount.total (outputs.map TxOut.value) := by
          rw [Transaction.outputs_of_skeleton (Transaction.skeleton_of_trialSigned hsigned)]
          rfl
      _ = Amount.total (((gather version params entries).payments.filter
            (gather version params entries).keeps).map Payment.amount) := by
          rw [map_value_of_keptOutputs houtputs]
      _ ≤ Amount.total ((gather version params entries).spends.map Spend.amount) := hcovered.le
  · obtain ⟨t, ht, rfl⟩ := signLegacy_eq_ok_iff.mp h
    obtain ⟨hspends, outputs, scriptSigs, houtputs, hcount, hshort, hfilled⟩ :=
      exists_filled_of_legacyTransaction ht
    exact ⟨t, rfl, realizes_of_filled hspends houtputs hcount hshort hfilled⟩
  · obtain ⟨parts, hparts, rfl⟩ := signingRequest_eq_ok_iff.mp h
    obtain ⟨⟨hspends, -⟩, publicKeys, outputs, hkeys, houtputs, rfl⟩ :=
      requestParts_eq_ok_iff.mp hparts
    exact ⟨_, rfl, realizes_of_filled hspends houtputs (length_le_of_keyFor hkeys)
      forall_reserved_lt rfl⟩

/-- Two spends of one key and four payments, of which one is change below the dust floor,
one is change of just this amount, and one is smaller but no change. The dust floor is set
twice. -/
def sampleEntries : List Entry :=
  [.dustFloor 100000, .payment ⟨.script "51", 99000, false⟩, .payment ⟨.script "52", 545, true⟩] ++
    sampleDraft.spends.map .spend ++
    [.payment ⟨.script "53", 546, true⟩, .dustFloor 546, .payment ⟨.script "54", 1, false⟩]

/-- The draft that is told these entries. -/
def ofSampleEntries : Draft :=
  gather 2 Chain.bitcoinRegtest.params sampleEntries

/-- It fits the memory of a machine. -/
lemma addressable_ofSampleEntries : ofSampleEntries.Addressable := by
  refine ⟨by decide, by decide, ?_⟩
  intro payment hpayment hex hlock
  have hpayments : ofSampleEntries.payments = [⟨.script "51", 99000, false⟩,
      ⟨.script "52", 545, true⟩, ⟨.script "53", 546, true⟩, ⟨.script "54", 1, false⟩] := rfl
  simp only [hpayments, List.mem_cons, List.not_mem_nil, or_false] at hpayment
  rcases hpayment with rfl | rfl | rfl | rfl <;> cases hlock <;> decide

/-- It is signed in all three ways. -/
theorem realizes_of_gather_sample : ∃ t text request,
    ofSampleEntries.Addressable ∧ ofSampleEntries.sign.outcome = .ok t ∧
    ofSampleEntries.signLegacy.outcome = .ok text ∧
    (ofSampleEntries.signingRequest (.ofValues sampleKeys)).outcome = .ok request ∧
    (t.Realizes 2 Chain.bitcoinRegtest.params sampleEntries ∧
      Amount.total (t.outputs.map TxOut.value)
        ≤ Amount.total ((sampleEntries.filterMap Entry.spend?).map Spend.amount) ∧
      Amount.total ((sampleEntries.filterMap Entry.spend?).map Spend.amount) < UInt64.size) ∧
    (∃ legacy : Transaction, text = legacy.toHex ∧
      legacy.Realizes 2 Chain.bitcoinRegtest.params sampleEntries ∧
      Transaction.ofHex text = .ok legacy) ∧
    ∃ unsigned : Transaction, request.txHex = unsigned.toHex ∧
      unsigned.Realizes 2 Chain.bitcoinRegtest.params sampleEntries ∧
      Transaction.ofHex request.txHex = .ok unsigned := by
  obtain ⟨t, ht⟩ : ∃ t, ofSampleEntries.sign.outcome = .ok t :=
    exists_sign_of_signable (by decide +kernel)
  obtain ⟨outputs, houtputs⟩ : ∃ outputs, ofSampleEntries.keptOutputs = .ok outputs :=
    exists_eq_ok_of_isSome (by decide +kernel)
  obtain ⟨text, htext⟩ : ∃ text, ofSampleEntries.signLegacy.outcome = .ok text :=
    exists_signLegacy rfl (by decide +kernel) houtputs
  obtain ⟨request, hrequest⟩ : ∃ request,
      (ofSampleEntries.signingRequest (.ofValues sampleKeys)).outcome = .ok request :=
    exists_eq_ok_of_isSome (by decide +kernel)
  obtain ⟨hsign, hlegacy, hunsigned⟩ :=
    realizes_of_gather 2 Chain.bitcoinRegtest.params sampleEntries
  obtain ⟨legacy, hlegacyText, hlegacyKept, hlegacyRead⟩ := hlegacy text htext
  obtain ⟨unsigned, hunsignedText, hunsignedKept, hunsignedRead⟩ := hunsigned _ request hrequest
  have haddr := addressable_ofSampleEntries
  exact ⟨t, text, request, haddr, ht, htext, hrequest, hsign t ht,
    ⟨legacy, hlegacyText, hlegacyKept, hlegacyRead haddr⟩,
    unsigned, hunsignedText, hunsignedKept, hunsignedRead haddr⟩

end Draft

end CoinSpend
