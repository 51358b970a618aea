import Mathlib.Data.List.Forall2
import Mathlib.Tactic.Lemma
import CoinSpend.Event

/-!
When a row of steps succeeds.

* `bind_eq_ok_iff`: two steps succeed if and only if the first one does and
  the second one does with its value; `bind_eq_error_iff` says when they fail.
* `guard_eq_ok_iff`: steps behind a refusal.
* `mapM_eq_ok_iff`: a step for each member of a list succeeds if and only if
  it does for every member, and the values stand in the order of the members;
  `mapM_eq_some_iff` is this for steps that fail without a cause, and
  `numbered_eq_ok_iff` for steps that also depend on the position.
  `numbered_eq_error_iff`: such a row of steps fails with the first step that
  does.
* `exists_getElem?_of_forall₂`: of two lists that agree member by member, what
  stands at a position of the one has its counterpart in the other, the one at
  the same position, `rel_of_forall₂`;
  `exists_forall₂_of_forall`, `exists_forall₂_between` and `forall₂_of_getElem?`
  make such lists.
* `Metered.outcome_bind`: the outcome of steps that are counted is that of the
  same steps without counting.
-/

namespace CoinSpend

variable {ε α β : Type}

/-- Two steps in a row succeed if and only if each of them does. -/
lemma bind_eq_ok_iff {x : Except ε α} {f : α → Except ε β} {b : β} :
    x >>= f = .ok b ↔ ∃ a, x = .ok a ∧ f a = .ok b := by
  cases x with
  | error e => simp [Bind.bind, Except.bind]
  | ok a => simp [Bind.bind, Except.bind]

/-- Two steps in a row fail if and only if the first one does, or it succeeds and
the second one fails. -/
lemma bind_eq_error_iff {x : Except ε α} {f : α → Except ε β} {e : ε} :
    x >>= f = .error e ↔ x = .error e ∨ ∃ a, x = .ok a ∧ f a = .error e := by
  cases x with
  | error e' => simp [Bind.bind, Except.bind]
  | ok a => simp [Bind.bind, Except.bind]

/-- After a step that succeeds the next one goes on with its value. -/
lemma bind_of_eq_ok {x : Except ε α} {a : α} (h : x = .ok a) (f : α → Except ε β) :
    x >>= f = f a := by
  rw [h]
  rfl

/-- The last step of a row is a value. -/
lemma pure_eq_ok_iff {a b : α} : (pure a : Except ε α) = .ok b ↔ a = b := by
  simp [Pure.pure, Except.pure]

/-- A row of steps behind a refusal succeeds if and only if nothing is refused
and the row succeeds. -/
lemma guard_eq_ok_iff {p : Prop} [Decidable p] {e : ε} {f : α → Except ε β} {x : Except ε β}
    {b : β} : (if p then throw e >>= f else x) = .ok b ↔ ¬p ∧ x = .ok b := by
  by_cases h : p
  · rw [if_pos h, bind_eq_ok_iff]
    simp [h, throw, throwThe, MonadExceptOf.throw]
  · rw [if_neg h]
    simp [h]

/-- A step with some value succeeds. -/
lemma exists_eq_ok_of_isSome {x : Except ε α} (h : x.toOption.isSome) : ∃ a, x = .ok a := by
  cases x with
  | error e => cases h
  | ok a => exact ⟨a, rfl⟩

/-- A step with a value that passes a test succeeds with one that does. -/
lemma exists_eq_ok_of_any {x : Except ε α} {p : α → Bool} (h : x.toOption.any p) :
    ∃ a, x = .ok a ∧ p a := by
  cases x with
  | error e => cases h
  | ok a => exact ⟨a, rfl, h⟩

/-- A step for each member succeeds if and only if it does for every member. -/
lemma mapM_eq_ok_iff {f : α → Except ε β} {xs : List α} {ys : List β} :
    xs.mapM f = .ok ys ↔ List.Forall₂ (fun x y => f x = .ok y) xs ys := by
  induction xs generalizing ys with
  | nil => rw [List.mapM_nil, pure_eq_ok_iff, List.forall₂_nil_left_iff, eq_comm]
  | cons x xs ih =>
      simp only [List.mapM_cons, bind_eq_ok_iff, pure_eq_ok_iff, ih]
      constructor
      · rintro ⟨y, hy, ys', hys, rfl⟩
        exact .cons hy hys
      · intro h
        cases h with
        | cons hy hys => exact ⟨_, hy, _, hys, rfl⟩

/-- A value for each member is found if and only if every member has one. -/
lemma mapM_eq_some_iff {f : α → Option β} {xs : List α} {ys : List β} :
    xs.mapM f = some ys ↔ List.Forall₂ (fun x y => f x = some y) xs ys := by
  induction xs generalizing ys with
  | nil => rw [List.mapM_nil, List.forall₂_nil_left_iff, eq_comm]; exact Option.some_inj
  | cons x xs ih =>
      simp only [List.mapM_cons, Option.bind_eq_bind, Option.bind_eq_some_iff, Option.pure_def,
        Option.some.injEq, ih]
      constructor
      · rintro ⟨y, hy, ys', hys, rfl⟩
        exact .cons hy hys
      · intro h
        cases h with
        | cons hy hys => exact ⟨_, hy, _, hys, rfl⟩

/-- A step for each member and its position succeeds if and only if it does for
every member. -/
lemma numbered_eq_ok_iff (f : ℕ → α → Except ε β) (run : ℕ → List α → Except ε (List β))
    (hnil : ∀ index, run index [] = .ok [])
    (hcons : ∀ index x xs, run index (x :: xs) = do
      let y ← f index x
      let ys ← run (index + 1) xs
      return y :: ys)
    {index : ℕ} {xs : List α} {ys : List β} :
    run index xs = .ok ys ↔
      List.Forall₂ (fun entry y => f entry.2 entry.1 = .ok y) (xs.zipIdx index) ys := by
  induction xs generalizing index ys with
  | nil => simp [hnil, eq_comm]
  | cons x xs ih =>
      rw [List.zipIdx_cons, List.forall₂_cons_left_iff]
      simp only [hcons, bind_eq_ok_iff, pure_eq_ok_iff, ih]
      constructor
      · rintro ⟨y, hy, ys', hys, rfl⟩
        exact ⟨y, ys', hy, hys, rfl⟩
      · rintro ⟨y, ys', hy, hys, rfl⟩
        exact ⟨y, hy, ys', hys, rfl⟩

/-- A step for each member and its position fails if and only if it fails for some
member and succeeds for all earlier ones. -/
lemma numbered_eq_error_iff (f : ℕ → α → Except ε β) (run : ℕ → List α → Except ε (List β))
    (hnil : ∀ index, run index [] = .ok [])
    (hcons : ∀ index x xs, run index (x :: xs) = do
      let y ← f index x
      let ys ← run (index + 1) xs
      return y :: ys)
    {index : ℕ} {xs : List α} {e : ε} :
    run index xs = .error e ↔
      ∃ (i : ℕ) (x : α), xs[i]? = some x ∧ f (index + i) x = .error e ∧
        ∀ (j : ℕ) (earlier : α), j < i → xs[j]? = some earlier →
          ∃ y, f (index + j) earlier = .ok y := by
  induction xs generalizing index with
  | nil => simp [hnil]
  | cons x xs ih =>
      have hrest := @ih (index + 1)
      simp only [Nat.add_assoc, Nat.add_comm 1] at hrest
      rw [hcons, bind_eq_error_iff]
      constructor
      · rintro (hx | ⟨y, hy, h⟩)
        · exact ⟨0, x, rfl, hx, fun j _ hj => absurd hj (Nat.not_lt_zero j)⟩
        · obtain h | ⟨_, -, h⟩ := bind_eq_error_iff.mp h
          · obtain ⟨i, z, hz, hfails, hfirst⟩ := hrest.mp h
            refine ⟨i + 1, z, hz, hfails, fun j earlier hj hearlier => ?_⟩
            cases j with
            | zero =>
                obtain rfl : x = earlier := Option.some.inj hearlier
                exact ⟨y, hy⟩
            | succ j => exact hfirst j earlier (by omega) hearlier
          · cases h
      · rintro ⟨i, z, hz, hfails, hfirst⟩
        cases i with
        | zero =>
            obtain rfl : x = z := Option.some.inj hz
            exact .inl hfails
        | succ i =>
            obtain ⟨y, hy⟩ := hfirst 0 x (Nat.succ_pos i) rfl
            have hfails := hrest.mpr ⟨i, z, hz, hfails, fun j earlier hj hearlier =>
              hfirst (j + 1) earlier (by omega) hearlier⟩
            exact .inr ⟨y, hy, bind_eq_error_iff.mpr (.inl hfails)⟩

/-- A member of the one list has its counterpart at the same position of the
other. -/
lemma exists_getElem?_of_forall₂ {R : α → β → Prop} {xs : List α} {ys : List β}
    (h : List.Forall₂ R xs ys) {i : ℕ} {x : α} (hx : xs[i]? = some x) :
    ∃ y, ys[i]? = some y ∧ R x y := by
  induction h generalizing i with
  | nil => simp at hx
  | cons hxy _ ih =>
      cases i with
      | zero =>
          obtain rfl : _ = x := by simpa using hx
          exact ⟨_, rfl, hxy⟩
      | succ i => exact ih (by simpa using hx)

/-- What stands at one position of two lists that agree are counterparts. -/
lemma rel_of_forall₂ {R : α → β → Prop} {xs : List α} {ys : List β}
    (h : List.Forall₂ R xs ys) {i : ℕ} {x : α} {y : β} (hx : xs[i]? = some x)
    (hy : ys[i]? = some y) : R x y := by
  obtain ⟨_, hy', hxy⟩ := exists_getElem?_of_forall₂ h hx
  obtain rfl := Option.some.inj (hy.symm.trans hy')
  exact hxy

/-- Counterparts have one image if and only if the lists of images are one. -/
lemma forall₂_image_iff {γ : Type} {f : α → γ} {g : β → γ} {xs : List α} {ys : List β} :
    List.Forall₂ (fun x y => f x = g y) xs ys ↔ xs.map f = ys.map g := by
  rw [← List.forall₂_eq_eq_eq, List.forall₂_map_left_iff, List.forall₂_map_right_iff]

/-- Counterparts in two ways are counterparts in each of them. -/
lemma forall₂_and_iff {R S : α → β → Prop} {xs : List α} {ys : List β} :
    List.Forall₂ (fun x y => R x y ∧ S x y) xs ys ↔
      List.Forall₂ R xs ys ∧ List.Forall₂ S xs ys := by
  constructor
  · exact fun h => ⟨h.imp fun _ _ => And.left, h.imp fun _ _ => And.right⟩
  · rintro ⟨hR, hS⟩
    induction hR with
    | nil => exact .nil
    | cons hxy _ ih =>
        cases hS with
        | cons hxy' hS => exact .cons ⟨hxy, hxy'⟩ (ih hS)

/-- The lists of members and partners, if every member has a partner. -/
lemma exists_forall₂_of_forall {R : α → β → Prop} {xs : List α}
    (h : ∀ x ∈ xs, ∃ y, R x y) : ∃ ys, List.Forall₂ R xs ys := by
  induction xs with
  | nil => exact ⟨[], .nil⟩
  | cons x xs ih =>
      obtain ⟨y, hy⟩ := h x List.mem_cons_self
      obtain ⟨ys, hys⟩ := ih fun z hz => h z (List.mem_cons_of_mem _ hz)
      exact ⟨y :: ys, .cons hy hys⟩

/-- The list between two lists, if every pair of counterparts has something in
between. -/
lemma exists_forall₂_between {γ : Type} {R : α → β → Prop} {S : β → γ → Prop} {xs : List α}
    {zs : List γ} (h : List.Forall₂ (fun x z => ∃ y, R x y ∧ S y z) xs zs) :
    ∃ ys, List.Forall₂ R xs ys ∧ List.Forall₂ S ys zs := by
  induction h with
  | nil => exact ⟨[], .nil, .nil⟩
  | cons hxz _ ih =>
      obtain ⟨y, hR, hS⟩ := hxz
      obtain ⟨ys, hRs, hSs⟩ := ih
      exact ⟨y :: ys, .cons hR hRs, .cons hS hSs⟩

/-- What is made of the members of a list and their positions, made of pairs. -/
lemma map_zipIdx_eq_zip {γ : Type} {xs : List α} {ys : List β} (h : xs.length = ys.length)
    (f : β × ℕ → γ) :
    ys.zipIdx.map f = (xs.zip ys).zipIdx.map fun entry => f (entry.1.2, entry.2) := by
  have hsnd : (xs.zip ys).map Prod.snd = ys := List.map_snd_zip (Nat.le_of_eq h.symm)
  conv_lhs => rw [← hsnd, List.zipIdx_map, List.map_map]
  rfl

/-- Two lists of one length agree member by member if they do at every
position. -/
lemma forall₂_of_getElem? {R : α → β → Prop} {xs : List α} {ys : List β}
    (hlength : xs.length = ys.length)
    (h : ∀ (i : ℕ) x y, xs[i]? = some x → ys[i]? = some y → R x y) : List.Forall₂ R xs ys := by
  refine List.forall₂_of_length_eq_of_get hlength fun i hx hy => ?_
  exact h i _ _ (List.getElem?_eq_getElem hx) (List.getElem?_eq_getElem hy)

namespace Metered

/-- The outcome of steps in a row does not depend on what is counted. -/
@[simp] lemma outcome_bind (x : Metered α) (f : α → Metered β) :
    (x >>= f).outcome = x.outcome >>= fun a => (f a).outcome := by
  cases h : x.outcome with
  | error e => rw [bind_of_error h]; rfl
  | ok a => rw [bind_of_ok h]; rfl

/-- Counting always succeeds. -/
@[simp] lemma outcome_record (events : List Event) : (record events).outcome = .ok () := rfl

/-- A step that counts nothing has its own outcome. -/
@[simp] lemma outcome_liftM (x : Except TxError α) :
    (liftM x : Metered α).outcome = x := rfl

end Metered

end CoinSpend
