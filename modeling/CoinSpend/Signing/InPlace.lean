import CoinSpend.Event

/-!
Work on a transaction in place.

* `InPlace`: steps that change a transaction and count events. What a step has
  done stays done if a later one fails.
* `InPlace.modifyInput`, `InPlace.record`: the two kinds of change.
* `InPlace.left`, `InPlace.metered`: what is left of a transaction once the work
  on it is over, and the outcome with its events.
-/

namespace CoinSpend

/-- A transaction that is worked on, and the events counted since. -/
structure Workpiece where
  tx : Transaction
  events : List Event

/-- Steps on a transaction. A failure ends them and undoes nothing. -/
abbrev InPlace (α : Type) := ExceptT TxError (StateM Workpiece) α

namespace InPlace

/-- The transaction as it is now. -/
def current : InPlace Transaction := do
  return (← get).tx

/-- Changes the input at a position. -/
def modifyInput (index : Nat) (change : TxIn → TxIn) : InPlace Unit :=
  modify fun work =>
    { work with tx := { work.tx with inputs := work.tx.inputs.modify index change } }

/-- Counts an event. -/
def record (event : Event) : InPlace Unit :=
  modify fun work => { work with events := work.events ++ [event] }

/-- How the work on a transaction ends, and what it leaves. -/
def on (work : InPlace Unit) (tx : Transaction) : Except TxError Unit × Workpiece :=
  StateT.run (ExceptT.run work) ⟨tx, []⟩

/-- The transaction that the work leaves, whether it succeeds or fails. -/
def left (work : InPlace Unit) (tx : Transaction) : Transaction :=
  (work.on tx).2.tx

/-- The work on a copy of a transaction that is handed out if it succeeds, with the events
that were counted. -/
def metered (work : InPlace Unit) (tx : Transaction) : Metered Transaction :=
  match work.on tx with
  | (.error e, left) => ⟨.error e, left.events⟩
  | (.ok (), left) => ⟨.ok left.tx, left.events⟩

end InPlace

end CoinSpend
