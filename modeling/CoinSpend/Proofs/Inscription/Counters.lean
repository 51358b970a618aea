import CoinSpend.Proofs.Inscription.Exit

/-!
What the counters show after an inscription.

* `InscriptionRequest.growth_signed`, `InscriptionRequest.growth_of_ne_signed`: the
  counters of inputs show what a run has signed, and all others how it has ended.
* `InscriptionRequest.CountsOpened`: the counters of inputs once everything is signed.
* `InscriptionRequest.counted_of_inscribe`: what every counter shows at each exit.
  `InscriptionRequest.counted_in_force_of_twiceListed`: an output that is listed under
  two addresses is signed for, and counted, under the second one both times.
-/

namespace CoinSpend

namespace InscriptionRequest

variable {request : InscriptionRequest} {params : ChainParams} {kinds : List LockKind}

/-! ### Locks that are opened -/

/-- One lock is opened for each output that pays and for each inscription. -/
lemma Opens.length_eq (h : request.Opens params kinds) :
    kinds.length = request.funding.length + request.inscriptions.length := by
  obtain ⟨own, hown, rfl⟩ := h
  rw [List.length_append, List.length_replicate, hown.length_eq]

/-- Those of a kind are the outputs that pay from it, and the scripts. -/
lemma Opens.count_eq (h : request.Opens params kinds) (kind : LockKind) :
    kinds.count kind = request.funding.countP (request.paysFrom params kind) +
      if .taprootScriptPath = kind then request.inscriptions.length else 0 := by
  obtain ⟨own, hown, rfl⟩ := h
  have hcount : own.count kind = request.funding.countP (request.paysFrom params kind) :=
    count_eq_countP (p := request.paysFrom params)
      (fun _ _ other hpays => paysFrom_eq hpays other) hown kind
  simp only [List.count_append, hcount, List.count_replicate, beq_iff_eq]

/-- No output pays from a script by itself. -/
lemma countP_paysFrom_scripts (request : InscriptionRequest) (params : ChainParams) :
    request.funding.countP (request.paysFrom params .taprootScriptPath) = 0 := by
  refine List.countP_eq_zero.mpr fun output _ hpays => ?_
  obtain ⟨paying, -, hkind⟩ := (Option.any_eq_true _ _).mp hpays
  obtain ⟨script, -, hlocks⟩ := (Option.any_eq_true _ _).mp hkind
  cases hlocks

/-! ### Counters -/

/-- What the counters of signed inputs show once everything is signed. If entries for one
output differ in their addresses, its inputs are signed for, and counted under, that of the
last. -/
structure CountsOpened (request : InscriptionRequest) (params : ChainParams)
    (run : Metered InscriptionReceipt) : Prop where
  total : sumOf (fun kind => run.growth (.signed kind)) LockKind.all
    = request.funding.length + request.inscriptions.length
  scripts : run.growth (.signed .taprootScriptPath) = request.inscriptions.length
  inForce : ∀ kind, kind ≠ .taprootScriptPath →
    run.growth (.signed kind) = request.funding.countP (request.paysFrom params kind)
  listed : request.OneAddress → ∀ kind, kind ≠ .taprootScriptPath →
    run.growth (.signed kind) = request.funding.countP (FundingOutput.hasKind params kind)

/-- The counters of a run show what it has signed and how it has ended. -/
lemma growth_inscribe
    (h : (inscribeUncounted request params).events = kinds.map .signed) (event : Event) :
    (inscribe request params).growth event = (kinds.map Event.signed).count event +
      if outcomeEvent (inscribe request params).outcome = event then 1 else 0 := by
  have hevents : (inscribe request params).events = kinds.map .signed ++
      [outcomeEvent (inscribe request params).outcome] := by
    rw [← h]
    rfl
  rw [Metered.growth_eq_count, hevents, List.count_append, List.count_singleton]
  simp only [beq_iff_eq]

/-- How a run ends is not counted with what it has signed. -/
lemma growth_signed
    (h : (inscribeUncounted request params).events = kinds.map .signed) (kind : LockKind) :
    (inscribe request params).growth (.signed kind) = kinds.count kind := by
  have hne : outcomeEvent (inscribe request params).outcome ≠ .signed kind := by
    cases (inscribe request params).outcome <;> nofun
  rw [growth_inscribe h, LockKind.count_signed, if_neg hne, Nat.add_zero]

/-- Nor is what it has signed counted with how it ends. -/
lemma growth_of_ne_signed
    (h : (inscribeUncounted request params).events = kinds.map .signed) (event : Event)
    (hevent : ∀ kind, .signed kind ≠ event) :
    (inscribe request params).growth event =
      if outcomeEvent (inscribe request params).outcome = event then 1 else 0 := by
  rw [growth_inscribe h, LockKind.count_signed_eq_zero kinds hevent, Nat.zero_add]

lemma countsOpened_of_opens
    (h : (inscribeUncounted request params).events = kinds.map .signed)
    (hopens : request.Opens params kinds) :
    request.CountsOpened params (inscribe request params) where
  total := by
    simp only [growth_signed h]
    rw [LockKind.sumOf_count, hopens.length_eq]
  scripts := by
    rw [growth_signed h, hopens.count_eq, countP_paysFrom_scripts, if_pos rfl, Nat.zero_add]
  inForce kind hkind := by rw [growth_signed h, hopens.count_eq, if_neg hkind.symm, Nat.add_zero]
  listed haddress kind hkind := by
    rw [growth_signed h, hopens.count_eq, if_neg hkind.symm, Nat.add_zero]
    refine List.countP_congr fun output houtput => ?_
    rw [paysFrom_of_oneAddress haddress houtput]

/-- **The counters of an inscription are exact.** Every run counts its end once: a success
as an inscription, a failure under its own kind. Once the transactions are signed, whether
they are then too heavy or not, every input of them is counted once: a script for each
inscription, and for each output that pays the lock of its address, if it has no other.
Any other failure comes before, when no more is signed than the copies that the fee is
reckoned with, and these are not counted. -/
theorem counted_of_inscribe (request : InscriptionRequest) (params : ChainParams) :
    (∀ receipt, (inscribe request params).outcome = .ok receipt →
        (inscribe request params).growth .inscribed = 1 ∧
        (∀ kind, (inscribe request params).growth (.refused kind) = 0) ∧
        request.CountsOpened params (inscribe request params)) ∧
      (∀ e, (inscribe request params).outcome = .error e →
        (inscribe request params).growth .inscribed = 0 ∧
        (∀ kind, (inscribe request params).growth (.refused kind) =
          if e.failureKind = kind then 1 else 0) ∧
        (e.failureKind = .standardness →
          request.CountsOpened params (inscribe request params)) ∧
        (e.failureKind ≠ .standardness →
          ∀ kind, (inscribe request params).growth (.signed kind) = 0)) ∧
      ∀ route, (inscribe request params).growth (.built route) = 0 := by
  obtain ⟨kinds, hevents, hexit⟩ := exists_exit request params
  have hinscribed := growth_of_ne_signed hevents .inscribed fun _ => nofun
  have hrefused (kind : FailureKind) := growth_of_ne_signed hevents (.refused kind) fun _ => nofun
  have hbuilt (route : BuildRoute) := growth_of_ne_signed hevents (.built route) fun _ => nofun
  cases houtcome : (inscribe request params).outcome with
  | ok receipt =>
      rw [houtcome] at hexit hinscribed hrefused hbuilt
      refine ⟨fun _ _ => ⟨hinscribed, hrefused, ?_⟩, nofun, hbuilt⟩
      cases hexit with
      | finished hopens => exact countsOpened_of_opens hevents hopens
  | error e =>
      rw [houtcome] at hexit hinscribed hrefused hbuilt
      refine ⟨nofun, ?_, hbuilt⟩
      rintro _ ⟨⟩
      refine ⟨hinscribed, fun kind => ?_, fun hheavy => ?_, fun hlight kind => ?_⟩
      · rw [hrefused]
        simp only [outcomeEvent, Event.refused.injEq]
      · cases hexit with
        | unfunded h => exact absurd hheavy h
        | heavy hopens => exact countsOpened_of_opens hevents hopens
      · cases hexit with
        | unfunded h => rw [growth_signed hevents, List.count_nil]
        | heavy hopens => exact absurd rfl hlight

/-- The sample comes to its end. -/
lemma exists_receipt_sampleRequest :
    ∃ receipt, (inscribe sampleRequest Chain.bitcoinRegtest.params).outcome = .ok receipt := by
  obtain ⟨plan, quoted, funded, commit, signed, hplan, hquoted, hfunded, hcommit, hsigned⟩ :=
    exists_run_sampleRequest
  have hfund : sampleRequest.fund Chain.bitcoinRegtest.params = .ok funded := by
    rw [fund, bind_of_eq_ok hplan, bind_of_eq_ok hquoted, hfunded]
  have hquotes := QuotedReveals.quotes_of_ofPlan hquoted
  obtain ⟨change, hfunds⟩ := FundedCommit.funds_of_ofQuoted hfunded
  obtain ⟨receipt, hreceipt⟩ := FundedCommit.exists_receipt_of_finishes hquotes hfunds hcommit
    (SignedReveals.finishes_of_run hquotes hfunds hcommit hsigned)
  refine ⟨receipt, ?_⟩
  calc (inscribe sampleRequest Chain.bitcoinRegtest.params).outcome
      = funded.finish.outcome := by
        rw [outcome_inscribe, inscribeUncounted_eq, Metered.outcome_bind, Metered.outcome_liftM,
          bind_of_eq_ok hfund]
    _ = signed.toReceipt := by
        rw [FundedCommit.finish, Metered.outcome_bind, bind_of_eq_ok hcommit,
          Metered.outcome_bind, bind_of_eq_ok hsigned, Metered.outcome_liftM]
    _ = .ok receipt := hreceipt

/-- It is signed for one output key and for two inscriptions. Without inscriptions it is
refused, and nothing is signed. -/
theorem counted_of_inscribe_sample :
    (∃ receipt, (inscribe sampleRequest Chain.bitcoinRegtest.params).outcome = .ok receipt) ∧
      (inscribe sampleRequest Chain.bitcoinRegtest.params).growth .inscribed = 1 ∧
      (inscribe sampleRequest Chain.bitcoinRegtest.params).growth (.signed .taprootKeyPath) = 1 ∧
      (inscribe sampleRequest Chain.bitcoinRegtest.params).growth (.signed .taprootScriptPath)
        = 2 ∧
      (inscribe { sampleRequest with inscriptions := [] }
        Chain.bitcoinRegtest.params).growth (.refused .other) = 1 ∧
      ∀ kind, (inscribe { sampleRequest with inscriptions := [] }
        Chain.bitcoinRegtest.params).growth (.signed kind) = 0 := by
  obtain ⟨receipt, hreceipt⟩ := exists_receipt_sampleRequest
  obtain ⟨hfinished, -⟩ := counted_of_inscribe sampleRequest Chain.bitcoinRegtest.params
  obtain ⟨hinscribed, -, hopened⟩ := hfinished receipt hreceipt
  have haddress : sampleRequest.OneAddress := by
    intro a ha b hb _
    rw [List.mem_singleton.mp ha, List.mem_singleton.mp hb]
  obtain ⟨-, hrefused, -⟩ :=
    counted_of_inscribe { sampleRequest with inscriptions := [] } Chain.bitcoinRegtest.params
  obtain ⟨-, hother, -, hsigned⟩ := hrefused .emptyInputsOrOutputs rfl
  refine ⟨⟨receipt, hreceipt⟩, hinscribed, ?_, hopened.scripts, hother .other, hsigned nofun⟩
  rw [hopened.listed haddress .taprootKeyPath nofun]
  decide +kernel

/-- The second address of an output that is listed twice, and the receiver. -/
def twiceListedAddress : String :=
  "bcrt1p9fjtrm3nwhemkjek0wxtswz2glmneu33w9lcylrvd7alttk0psmqqf08dg"

/-- A request that lists one output twice: first under the hash of a key, then under an
output key. -/
def twiceListed : InscriptionRequest where
  funding := ["n4XmX91N5FfccY678vaG1ELNtXh6skVES7", twiceListedAddress].map fun address => {
    txid := ⟨List.replicate 32 0xaa, List.length_replicate⟩
    vout := 0
    amount := 100000
    address
    privateKey := "1111111111111111111111111111111111111111111111111111111111111111" }
  commitFeeRate := 1
  revealFeeRate := 1
  inscriptions := [⟨"text/plain", [104, 105], twiceListedAddress⟩]
  revealValue := none
  changeAddress := twiceListedAddress
  minChange := none

/-- The entry for the output key is the one in force. Both inputs are signed for this key,
and counted so; the hash in the first entry is opened by none. -/
theorem counted_in_force_of_twiceListed :
    (∃ receipt, (inscribe twiceListed Chain.bitcoinRegtest.params).outcome = .ok receipt) ∧
      twiceListed.funding.countP
        (FundingOutput.hasKind Chain.bitcoinRegtest.params .p2pkh) = 1 ∧
      (inscribe twiceListed Chain.bitcoinRegtest.params).growth (.signed .p2pkh) = 0 ∧
      (inscribe twiceListed Chain.bitcoinRegtest.params).growth (.signed .taprootKeyPath) = 2 := by
  have hrun : (inscribe twiceListed Chain.bitcoinRegtest.params).outcome.toOption.isSome := by
    decide +kernel
  obtain ⟨receipt, hreceipt⟩ := exists_eq_ok_of_isSome hrun
  obtain ⟨kinds, hevents, hexit⟩ := exists_exit twiceListed Chain.bitcoinRegtest.params
  have hopens : twiceListed.Opens Chain.bitcoinRegtest.params kinds := by
    rw [hreceipt] at hexit
    cases hexit with
    | finished hopens => exact hopens
  refine ⟨⟨receipt, hreceipt⟩, by decide +kernel, ?_, ?_⟩
  · rw [growth_signed hevents, hopens.count_eq]
    decide +kernel
  · rw [growth_signed hevents, hopens.count_eq]
    decide +kernel

end InscriptionRequest

end CoinSpend
