import CoinSpend.Proofs.Draft.Sign
import CoinSpend.Proofs.Signing.Lock
import CoinSpend.Proofs.Signing.Signature

/-!
The cost of the signature checks of a signed draft.

* `TxIn.sigops_scriptSig_satisfy`: what opens a lock checks nothing in the signature
  script, whatever the lock is.
* `TxIn.sigopCost_satisfy`: it costs one check if a witness program of version zero is
  opened, directly or under a script hash, and nothing otherwise.
* `Transaction.sigopCost_of_trialSigned`: hence the cost of a signed transaction is read
  off its outputs and the locks that it opens.
* `Draft.sigopCost_of_sign`: so it is with a signed draft, and the locks are known from
  the draft alone.
-/

namespace CoinSpend

/-! ### What opens a lock -/

/-- The program of a key is pushed at once. -/
lemma SpendPath.reads_push_ownProgram (key : PrivateKey) :
    Script.Reads (Script.push (ownProgram key)) ([ownProgram key].map .push) := by
  rw [← List.append_nil (Script.push (ownProgram key))]
  exact .push (by rw [length_ownProgram]; decide) .nil

namespace TxIn

variable {script : Script} {key : PrivateKey} {index : ℕ} {path : SpendPath} {sig : Bytes}

/-- What opens a lock checks nothing in the signature script. -/
lemma sigops_scriptSig_satisfy (hpath : SpendPath.ofScript script key index = .ok path)
    (hsig : path.Admits sig) (source : TxIn) :
    Script.sigops false (source.satisfy (path.satisfaction key sig)).scriptSig = 0 := by
  rcases SpendPath.cases_of_ofScript hpath with ⟨-, rfl⟩ | ⟨-, rfl⟩ | ⟨-, rfl⟩ | ⟨-, rfl⟩
  · exact Script.sigops_nil false
  · exact sigops_keyHash hsig
  · exact Script.sigops_nil false
  · exact Script.sigops_of_pushes (SpendPath.reads_push_ownProgram key) false

/-- Opening a lock costs one check if this is that of a witness program of version zero,
and nothing otherwise. -/
lemma sigopCost_satisfy (hpath : SpendPath.ofScript script key index = .ok path)
    (source : TxIn) (sig : Bytes) :
    (source.satisfy (path.satisfaction key sig)).sigopCost script
      = if script.isP2wpkh || script.isP2sh then 1 else 0 := by
  have hlock := SpendPath.locks_of_ofScript hpath
  have hwpkh : script.isP2wpkh = decide (path.lockKind = .p2wpkh) := LockKind.locks_eq hlock .p2wpkh
  have hsh : script.isP2sh = decide (path.lockKind = .p2shP2wpkh) :=
    LockKind.locks_eq hlock .p2shP2wpkh
  rw [hwpkh, hsh]
  rcases SpendPath.cases_of_ofScript hpath with
    ⟨htr, rfl⟩ | ⟨hpkh, rfl⟩ | ⟨hwpkh, rfl⟩ | ⟨rfl, rfl⟩
  · exact sigopCost_of_isP2tr htr _
  · exact sigopCost_of_isP2pkh hpkh _
  · exact sigopCost_of_isP2wpkh hwpkh _
  · exact sigopCost_of_reveals (Script.isP2sh_iff.mpr ⟨_, length_hash160 _, rfl⟩)
      (SpendPath.reads_push_ownProgram key) (Script.isP2wpkh_iff.mpr ⟨_, length_hash160 _, rfl⟩)

end TxIn

/-! ### Signed transactions -/

/-- The cost of a signed transaction is four times that of the checks in its outputs, and
one for each witness program of version zero that it opens, directly or under a script
hash. -/
lemma Transaction.sigopCost_of_trialSigned {tx t : Transaction} {keys : List PrivateKey}
    {lookup : Lookup} {view : ScriptView} (h : tx.trialSigned keys lookup = .ok t)
    (hview : ∀ outpoint, view.get? outpoint = (lookup outpoint).map TxOut.script) :
    t.sigopCost view false =
      .ok (4 * sumOf (fun output => Script.sigops false output.script) t.outputs +
        t.inputs.countP fun input => (view.get? input.previous).any fun script =>
          script.isP2wpkh || script.isP2sh) := by
  have hsilent : ∀ input ∈ t.inputs, Script.sigops false input.scriptSig = 0 := by
    intro input hinput
    obtain ⟨i, hi⟩ := List.mem_iff_getElem?.mp hinput
    obtain ⟨source, prevout, key, path, sig, -, -, -, hpath, hsig, rfl⟩ :=
      exists_satisfaction_of_trialSigned h hi
    exact TxIn.sigops_scriptSig_satisfy hpath hsig source
  have hcosts : ∀ input ∈ t.inputs, ∃ script, view.get? input.previous = some script ∧
      input.sigopCost script = if (view.get? input.previous).any (fun script =>
        script.isP2wpkh || script.isP2sh) then 1 else 0 := by
    intro input hinput
    obtain ⟨i, hi⟩ := List.mem_iff_getElem?.mp hinput
    obtain ⟨source, prevout, key, path, sig, -, hlookup, -, hpath, -, rfl⟩ :=
      exists_satisfaction_of_trialSigned h hi
    have hscript : view.get? source.previous = some prevout.script := by
      rw [hview, hlookup, Option.map_some]
    refine ⟨prevout.script, hscript, ?_⟩
    rw [TxIn.sigopCost_satisfy hpath]
    simp only [TxIn.satisfy, hscript, Option.any_some]
  rw [sigopCost_of_inputCosts (inputCosts_eq_ok hcosts), sumOf_indicator,
    legacySigops_of_silent hsilent, witnessScale, Nat.mul_comm]

/-! ### Signed drafts -/

namespace Draft

/-- **What a signed draft pays for is known.** If a draft is signed, then the scripts that
its spends open are known from the draft. By these the checks of signatures in the signed
transaction cost four for each check in its outputs, and one for each input that opens a
witness key hash or a script hash. What is paid for is this cost or the virtual size,
whichever is larger. -/
theorem sigopCost_of_sign {draft : Draft} {t : Transaction} (h : draft.sign.outcome = .ok t) :
    ∃ view cost, draft.scriptView = .ok view ∧
      cost = 4 * sumOf (fun output => Script.sigops false output.script) t.outputs +
        t.inputs.countP (fun input => (view.get? input.previous).any fun script =>
          script.isP2wpkh || script.isP2sh) ∧
      t.sigopCost view false = .ok cost ∧
      t.effectiveSize view = .ok (max t.virtualSize cost) := by
  obtain ⟨hparts, -, spends, outputs, hspends, -, hsigned⟩ := sign_eq_ok_iff.mp h
  have hcost := Transaction.sigopCost_of_trialSigned hsigned (get?_scriptView spends)
  have hview : spends.map (fun s => (s.outpoint, s.output.script)) ≠ [] := by
    have houtpoints := map_outpoint_of_readSpends hspends
    intro hnil
    rw [List.map_eq_nil_iff.mp hnil, List.map_nil, List.map_eq_nil_iff] at houtpoints
    exact (requireParts_eq_ok_iff.mp hparts).1 houtpoints
  exact ⟨_, _, scriptView_of_readSpends hspends, rfl, hcost,
    Transaction.effectiveSize_of_sigopCost hview hcost⟩

/-- Four spends by one key, one of each kind of lock, and a payment to a script with ten
checks of several signatures each. -/
def ofEveryKind : Draft where
  version := 2
  params := Chain.bitcoin.params
  dustFloor := 546
  spends := [(0, "76a914010101010101010101010101010101010101010188ac"),
    (1, "00140202020202020202020202020202020202020202"),
    (2, "a914bcfeb728b584253d5f3f70bcb780e9ef218a68f487"),
    (3, "51200303030303030303030303030303030303030303030303030303030303030303")].map
      fun (vout, hex) => {
        txid := .zero
        vout
        amount := 50000
        lock := .script hex
        privateKey := some "0000000000000000000000000000000000000000000000000000000000000001" }
  payments := [⟨.script "aeaeaeaeaeaeaeaeaeae", 100000, false⟩]

/-- This draft is signed. The checks in its payment cost eighty each, those of two of the
spends one each. -/
theorem sigopCost_of_sign_every_kind :
    ∃ t view cost, ofEveryKind.sign.outcome = .ok t ∧ ofEveryKind.scriptView = .ok view ∧
      cost = 4 * sumOf (fun output => Script.sigops false output.script) t.outputs +
        t.inputs.countP (fun input => (view.get? input.previous).any fun script =>
          script.isP2wpkh || script.isP2sh) ∧
      t.sigopCost view false = .ok cost ∧
      t.effectiveSize view = .ok (max t.virtualSize cost) := by
  obtain ⟨t, ht⟩ : ∃ t, ofEveryKind.sign.outcome = .ok t :=
    exists_sign_of_signable (by decide +kernel)
  obtain ⟨view, cost, hview, hcost⟩ := sigopCost_of_sign ht
  exact ⟨t, view, cost, ht, hview, hcost⟩

end Draft

end CoinSpend
