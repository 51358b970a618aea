import CoinSpend.Proofs.Outcome
import CoinSpend.Signing.Transaction

/-!
What work in place leaves.

* `InPlace.run_bind_of_ok`, `InPlace.run_bind_of_error`: a step goes on from what the one
  before it has left; after a failure what was left stays.
* `Transaction.run_putInto`, `Transaction.run_putAllFrom`: satisfactions are put in one by
  one, each into its own input.
* `Transaction.on_signInPlace_of_ok`, `Transaction.on_signInPlace_of_error`: signing puts
  everything in or, if anything cannot be made, nothing.
-/

namespace CoinSpend

namespace InPlace

variable {α β : Type} {x : InPlace α} {w w' : Workpiece}

/-- After a success the next step goes on with what is left. -/
lemma run_bind_of_ok {a : α} (h : x.run.run w = (.ok a, w')) (f : α → InPlace β) :
    (x >>= f).run.run w = (f a).run.run w' := by
  simp only [ExceptT.run_bind, StateT.run_bind, h]
  rfl

/-- After a failure there is no next step, and what was done is not undone. -/
lemma run_bind_of_error {e : TxError} (h : x.run.run w = (.error e, w')) (f : α → InPlace β) :
    (x >>= f).run.run w = (.error e, w') := by
  simp only [ExceptT.run_bind, StateT.run_bind, h]
  rfl

/-- A step that only computes leaves everything as it is. -/
lemma run_liftM (x : Except TxError α) (w : Workpiece) :
    (liftM x : InPlace α).run.run w = (x, w) := rfl

lemma run_current (w : Workpiece) : current.run.run w = (.ok w.tx, w) := rfl

lemma run_record (event : Event) (w : Workpiece) :
    (record event).run.run w = (.ok (), { w with events := w.events ++ [event] }) := rfl

lemma run_modifyInput (index : ℕ) (change : TxIn → TxIn) (w : Workpiece) :
    (modifyInput index change).run.run w
      = (.ok (), { w with tx := { w.tx with inputs := w.tx.inputs.modify index change } }) := rfl

/-- Events are counted in their order. -/
lemma run_forM_record (entries : List α) (event : α → Event) (w : Workpiece) :
    (entries.forM fun entry => record (event entry)).run.run w
      = (.ok (), { w with events := w.events ++ entries.map event }) := by
  induction entries generalizing w with
  | nil => rw [List.map_nil, List.append_nil]; rfl
  | cons entry rest ih =>
      rw [List.forM, run_bind_of_ok (run_record _ w), ih, List.map_cons, List.append_assoc,
        List.singleton_append]

end InPlace

namespace Transaction

open InPlace

/-- The two parts of a satisfaction are put in one after the other. -/
lemma run_putInto (index : ℕ) (satisfaction : Satisfaction) (w : Workpiece) :
    (putInto index satisfaction).run.run w = (.ok (), { w with
      tx := { w.tx with inputs := w.tx.inputs.modify index (·.satisfy satisfaction) } }) := by
  rw [putInto, run_bind_of_ok (run_modifyInput _ _ w), run_modifyInput, List.modify_modify_eq]
  rfl

/-- If there is one for each input from a position on, each goes into its own. -/
lemma run_putAllFrom {index : ℕ} {satisfactions : List Satisfaction} {w : Workpiece}
    {done pending : List TxIn} (hinputs : w.tx.inputs = done ++ pending)
    (hindex : done.length = index) (hlength : satisfactions.length = pending.length) :
    (putAllFrom index satisfactions).run.run w = (.ok (), { w with
      tx := { w.tx with inputs := done ++ List.zipWith TxIn.satisfy pending satisfactions } }) := by
  induction satisfactions generalizing index w done pending with
  | nil =>
      obtain rfl := List.length_eq_zero_iff.mp hlength.symm
      rw [List.zipWith_nil_left, ← hinputs]
      rfl
  | cons satisfaction rest ih =>
      cases pending with
      | nil => cases hlength
      | cons input pending =>
          have hput : w.tx.inputs.modify index (·.satisfy satisfaction)
              = (done ++ [input.satisfy satisfaction]) ++ pending := by
            rw [hinputs, ← hindex, List.modify_eq_take_cons_drop (by simp)]
            simp
          rw [putAllFrom, run_bind_of_ok (run_putInto _ _ w), ih hput (by simp [hindex])
            (Nat.succ.inj hlength)]
          simp

variable {tx : Transaction} {keys : List PrivateKey} {lookup : Lookup}

/-- If every satisfaction can be made, all are put in, and each is counted. -/
lemma on_signInPlace_of_ok {found : List (SpendPath × Satisfaction)}
    (h : tx.satisfactions keys lookup = .ok found) (hlength : found.length = tx.inputs.length) :
    (signInPlace keys lookup).on tx = (.ok (), ⟨tx.satisfy (found.map Prod.snd),
      found.map fun entry => .signed entry.1.lockKind⟩) := by
  have hput := run_putAllFrom (w := ⟨tx, found.map fun entry => .signed entry.1.lockKind⟩)
    (List.nil_append tx.inputs).symm rfl ((List.length_map Prod.snd).trans hlength)
  rw [InPlace.on, signInPlace, run_bind_of_ok (run_current _), h, run_bind_of_ok (run_liftM _ _),
    run_bind_of_ok (run_forM_record _ _ _)]
  exact hput

/-- If one of them cannot be made, nothing is put in or counted. -/
lemma on_signInPlace_of_error {e : TxError} (h : tx.satisfactions keys lookup = .error e) :
    (signInPlace keys lookup).on tx = (.error e, ⟨tx, []⟩) := by
  rw [InPlace.on, signInPlace, run_bind_of_ok (run_current _), h]
  exact run_bind_of_error (run_liftM _ _) _

end Transaction

end CoinSpend
