import CoinSpend.Error

/-!
What is counted while transactions are made.

* `Event`: one thing that counters grow by, with `Event.counter`, the name of
  its counter.
* `Metered`: an outcome together with the events on the way to it. A failure
  keeps the events before it, and steps in a row append theirs.
* `Metered.bind_of_ok`, `Metered.bind_of_error`: how steps in a row go on, and
  the monad laws.
* `counters`: how often each event of a list occurs, under its counter's name.
-/

namespace CoinSpend

/-- The way in which a transaction was made: signed as the locks of its inputs
ask for, signed in its signature scripts, left to be signed elsewhere, or put
together with signatures from elsewhere. -/
inductive BuildRoute where
  | signed
  | legacy
  | requested
  | attached
  deriving Repr, DecidableEq

/-- The kind of lock that a signed input opens. -/
inductive LockKind where
  | p2pkh
  | p2wpkh
  | p2shP2wpkh
  | taprootKeyPath
  | taprootScriptPath
  deriving Repr, DecidableEq

/-- The kind of failure of an inscription. -/
inductive FailureKind where
  | insufficientBalance
  | standardness
  | other
  deriving Repr, DecidableEq

/-- Something that is counted. -/
inductive Event where
  | built (route : BuildRoute)
  | signed (kind : LockKind)
  | inscribed
  | refused (kind : FailureKind)
  deriving Repr, DecidableEq

/-- The name of a route in counters. -/
def BuildRoute.label : BuildRoute → String
  | .signed => "signed"
  | .legacy => "single"
  | .requested => "unsigned"
  | .attached => "spliced"

/-- The name of a kind of lock in counters. -/
def LockKind.label : LockKind → String
  | .p2pkh => "p2pkh"
  | .p2wpkh => "p2wpkh"
  | .p2shP2wpkh => "p2sh_p2wpkh"
  | .taprootKeyPath => "taproot_key_path"
  | .taprootScriptPath => "taproot_script_path"

/-- The name of a failure kind in counters. -/
def FailureKind.label : FailureKind → String
  | .insufficientBalance => "insufficient_balance"
  | .standardness => "standardness"
  | .other => "other"

/-- The name of a counter with one label. -/
def labelled (name key value : String) : String :=
  "utxo_tx_builder_" ++ name ++ "_total\x7b" ++ key ++ "=\"" ++ value ++ "\"\x7d"

/-- The name of the counter of an event. -/
def Event.counter : Event → String
  | .built route => labelled "transactions_built" "path" route.label
  | .signed kind => labelled "inputs_signed" "script_kind" kind.label
  | .inscribed => "utxo_tx_builder_inscriptions_built_total"
  | .refused kind => labelled "inscription_errors" "error_type" kind.label

/-- The counters of a list of events, each with the number of its events. -/
def counters (events : List Event) : List (String × Nat) :=
  events.eraseDups.map fun event => (event.counter, events.count event)

/-- An outcome and the events on the way to it. -/
structure Metered (α : Type) where
  outcome : Except TxError α
  events : List Event

namespace Metered

/-- An outcome without events. -/
def lift {α : Type} (outcome : Except TxError α) : Metered α :=
  ⟨outcome, []⟩

/-- Goes on with the value of a success. -/
def bind {α β : Type} (x : Metered α) (f : α → Metered β) : Metered β :=
  match x.outcome with
  | .error e => ⟨.error e, x.events⟩
  | .ok a => ⟨(f a).outcome, x.events ++ (f a).events⟩

instance : Monad Metered where
  pure a := ⟨.ok a, []⟩
  bind := bind

instance : MonadLift (Except TxError) Metered where
  monadLift := lift

/-- Counts events. -/
def record (events : List Event) : Metered Unit :=
  ⟨.ok (), events⟩

/-! ### How outcomes and events go on -/

@[simp] theorem outcome_pure {α : Type} (a : α) : (pure a : Metered α).outcome = .ok a := rfl

@[simp] theorem events_pure {α : Type} (a : α) : (pure a : Metered α).events = [] := rfl

@[simp] theorem outcome_lift {α : Type} (outcome : Except TxError α) :
    (lift outcome).outcome = outcome := rfl

@[simp] theorem events_lift {α : Type} (outcome : Except TxError α) :
    (lift outcome).events = [] := rfl

/-- After a success the next step decides the outcome and adds its events. -/
theorem bind_of_ok {α β : Type} {x : Metered α} {a : α} (h : x.outcome = .ok a)
    (f : α → Metered β) : x >>= f = ⟨(f a).outcome, x.events ++ (f a).events⟩ := by
  simp only [Bind.bind, bind, h]

/-- After a failure there is no next step. -/
theorem bind_of_error {α β : Type} {x : Metered α} {e : TxError} (h : x.outcome = .error e)
    (f : α → Metered β) : x >>= f = ⟨.error e, x.events⟩ := by
  simp only [Bind.bind, bind, h]

/-- Steps in a row may be grouped in any way. -/
theorem bind_assoc {α β γ : Type} (x : Metered α) (f : α → Metered β) (g : β → Metered γ) :
    x >>= f >>= g = x >>= fun a => f a >>= g := by
  obtain ⟨outcome, events⟩ := x
  cases outcome with
  | error e => rfl
  | ok a =>
    cases h : (f a).outcome with
    | error e => simp only [Bind.bind, bind, h]
    | ok b => simp only [Bind.bind, bind, h, List.append_assoc]

theorem id_map {α : Type} (x : Metered α) : id <$> x = x := by
  obtain ⟨outcome, events⟩ := x
  cases outcome with
  | error e => rfl
  | ok a => exact congrArg (Metered.mk (.ok a)) (List.append_nil events)

theorem pure_bind {α β : Type} (a : α) (f : α → Metered β) : pure a >>= f = f a := rfl

instance : LawfulMonad Metered :=
  LawfulMonad.mk' Metered id_map pure_bind bind_assoc

end Metered

end CoinSpend
