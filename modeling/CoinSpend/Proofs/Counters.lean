import Mathlib.Data.List.Count
import Mathlib.Data.List.Nodup
import CoinSpend.Proofs.Outcome
import CoinSpend.Proofs.Sum

/-!
What counters show.

* `Event.counter_injective`: no two events have one counter.
* `Metered.growth`: by how much a run makes the counter of an event grow;
  `Metered.growth_eq_count` reads it off the events.
* `Metered.events_bind_of_silent`: steps that count nothing leave the events of a run
  as they are.
* `LockKind.count_signed`, `LockKind.sumOf_count`: the inputs signed of each kind, and of
  all kinds together.
-/

namespace CoinSpend

/-! ### Names -/

/-- Every kind of lock. -/
def LockKind.all : List LockKind :=
  [.p2pkh, .p2wpkh, .p2shP2wpkh, .taprootKeyPath, .taprootScriptPath]

/-- Everything that is counted. -/
def Event.all : List Event :=
  [BuildRoute.signed, .legacy, .requested, .attached].map .built ++ LockKind.all.map .signed ++
    [.inscribed] ++ [FailureKind.insufficientBalance, .standardness, .other].map .refused

lemma Event.mem_all (event : Event) : event ∈ all := by
  cases event with
  | built route => cases route <;> decide
  | signed kind => cases kind <;> decide
  | inscribed => decide
  | refused kind => cases kind <;> decide

/-- Every event has a counter of its own. -/
lemma Event.counter_injective : Function.Injective counter := by
  have hnodup : (all.map counter).Nodup := by decide +kernel
  exact fun event other => List.inj_on_of_nodup_map hnodup event.mem_all other.mem_all

/-! ### Growth -/

/-- What is found under the name of a listed key. -/
lemma lookup_map_of_injective {α β : Type} [DecidableEq α] {name : α → String}
    (hname : Function.Injective name) (f : α → β) (xs : List α) (a : α) :
    (xs.map fun x => (name x, f x)).lookup (name a) = if a ∈ xs then some (f a) else none := by
  induction xs with
  | nil => rfl
  | cons x xs ih =>
      rw [List.map_cons, List.lookup_cons, ih]
      by_cases hx : a = x
      · subst hx
        simp
      · have hne : (name a == name x) = false := by simpa using hname.ne hx
        simp [hne, hx]

/-- The counter of an event shows how often the event occurs. -/
lemma lookup_counters (events : List Event) (event : Event) :
    ((counters events).lookup event.counter).getD 0 = events.count event := by
  rw [counters, lookup_map_of_injective Event.counter_injective]
  split_ifs with hmem
  · rfl
  · rw [List.mem_eraseDups] at hmem
    exact (List.count_eq_zero_of_not_mem hmem).symm

namespace Metered

variable {α β : Type}

/-- By how much a run makes the counter of an event grow. -/
def growth (run : Metered α) (event : Event) : ℕ :=
  ((counters run.events).lookup event.counter).getD 0

lemma growth_eq_count (run : Metered α) (event : Event) :
    run.growth event = run.events.count event :=
  lookup_counters run.events event

/-- Steps that count nothing may be taken as one. -/
lemma liftM_bind (x : Except TxError α) (f : α → Except TxError β) :
    (liftM (x >>= f) : Metered β) = liftM x >>= fun a => liftM (f a) := by
  cases x <;> rfl

/-- Steps that count nothing leave the events as they are. -/
lemma events_bind_of_silent {x : Metered α} {f : α → Metered β} (h : ∀ a, (f a).events = []) :
    (x >>= f).events = x.events := by
  cases hx : x.outcome with
  | error e => rw [bind_of_error hx]
  | ok a => rw [bind_of_ok hx, h, List.append_nil]

end Metered

/-! ### Signed inputs -/

namespace LockKind

/-- Inputs are counted under their own kinds. -/
lemma count_signed (kinds : List LockKind) (kind : LockKind) :
    (kinds.map Event.signed).count (.signed kind) = kinds.count kind :=
  List.count_map_of_injective _ _ (fun _ _ => Event.signed.inj) _

/-- Signing counts nothing but inputs. -/
lemma count_signed_eq_zero (kinds : List LockKind) {event : Event}
    (h : ∀ kind, .signed kind ≠ event) : (kinds.map Event.signed).count event = 0 := by
  refine List.count_eq_zero.mpr fun hmem => ?_
  obtain ⟨kind, -, hkind⟩ := List.mem_map.mp hmem
  exact h kind hkind

/-- Every input is counted under one kind. -/
lemma sumOf_count (kinds : List LockKind) :
    sumOf (fun kind => kinds.count kind) all = kinds.length := by
  induction kinds with
  | nil => rfl
  | cons head rest ih =>
      have hone : sumOf (fun kind => if head == kind then 1 else 0) all = 1 := by
        cases head <;> rfl
      simp only [List.count_cons, ← sumOf_add, ih, hone, List.length_cons]

end LockKind

end CoinSpend
