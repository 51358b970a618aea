import CoinSpend.Json.Printer
import CoinSpend.Proofs.Json.Number
import CoinSpend.Proofs.Json.Text

/-!
Documents are read back from their text.

* `Json.WellWritten`: the numbers and strings of a document are literals.
* `Json.Taken`: a document is taken off the front of whatever may follow, by calls
  no deeper than three times its length. `Json.takeItems?_chars`,
  `Json.takeFields?_chars`: so are the parts of one, if each of them is.
* `Json.parse?_render`: hence a document is read back from its text.
-/

namespace CoinSpend

namespace Json

/-- A document whose numbers and strings, names included, are literals. -/
inductive WellWritten : Json → Prop where
  | null : WellWritten .null
  | bool (value : Bool) : WellWritten (.bool value)
  | num {literal : List Char} (h : IsNumber literal) : WellWritten (.num literal)
  | str {literal : List Char} (h : IsLiteral literal) : WellWritten (.str literal)
  | arr {items : List Json} (h : ∀ item ∈ items, WellWritten item) : WellWritten (.arr items)
  | obj {fields : List (List Char × Json)} (names : ∀ field ∈ fields, IsLiteral field.1)
      (values : ∀ field ∈ fields, WellWritten field.2) : WellWritten (.obj fields)

/-! ### The text of a document -/

lemma chars_arr (items : List Json) :
    (arr items).chars = '[' :: commaSeparated (items.map chars) ++ [']'] := by
  rw [chars, ← List.attach_map_val (f := chars)]

/-- The characters of a field. -/
def fieldChars (field : List Char × Json) : List Char :=
  '"' :: field.1 ++ ('"' :: ':' :: field.2.chars)

lemma chars_obj (fields : List (List Char × Json)) :
    (obj fields).chars = '\x7b' :: commaSeparated (fields.map fieldChars) ++ ['\x7d'] := by
  rw [chars, ← List.attach_map_val (f := fieldChars)]
  rfl

/-- A number starts with no blank. -/
lemma isSpace_of_startsNumber {c : Char} (h : startsNumber c = true) : isSpace c = false := by
  have hne (d : Char) (hd : startsNumber d = false) : ¬c = d := ne_of_startsNumber h hd
  simp (disch := decide) [isSpace, hne]

/-- A document starts with no blank, and with no bracket or brace that closes
anything. -/
lemma WellWritten.exists_cons {json : Json} (h : WellWritten json) :
    ∃ c rest, json.chars = c :: rest ∧ isSpace c = false ∧ c ≠ ']' ∧ c ≠ '\x7d' := by
  cases h with
  | null => exact ⟨_, _, by rw [chars], by decide, by decide, by decide⟩
  | bool value =>
      cases value with
      | false => exact ⟨_, _, by rw [chars], by decide, by decide, by decide⟩
      | true => exact ⟨_, _, by rw [chars], by decide, by decide, by decide⟩
  | @num literal h =>
      cases literal with
      | nil => exact absurd rfl h.ne_nil
      | cons c rest =>
          have hc := h.head c rfl
          exact ⟨c, rest, by rw [chars], isSpace_of_startsNumber hc,
            ne_of_startsNumber hc (by decide), ne_of_startsNumber hc (by decide)⟩
  | str => exact ⟨_, _, by rw [chars]; rfl, by decide, by decide, by decide⟩
  | arr => exact ⟨_, _, by rw [chars]; rfl, by decide, by decide, by decide⟩
  | obj => exact ⟨_, _, by rw [chars]; rfl, by decide, by decide, by decide⟩

/-- A row of texts starts with the first of them. -/
lemma exists_commaSeparated_cons (text : List Char) (texts : List (List Char)) :
    ∃ tail, commaSeparated (text :: texts) = text ++ tail := by
  cases texts with
  | nil => exact ⟨[], (List.append_nil text).symm⟩
  | cons next texts => exact ⟨_, rfl⟩

/-! ### What may follow a part of a document -/

variable {rest : List Char}

lemma skipSpace_cons {c : Char} (h : isSpace c = false) : skipSpace (c :: rest) = c :: rest :=
  List.dropWhile_cons_of_neg (by simp [h])

lemma endsNumber_nil : EndsNumber [] := by
  intro c hc
  cases hc

lemma endsNumber_comma : EndsNumber (',' :: rest) := by
  rintro _ ⟨⟩
  decide

lemma endsNumber_bracket : EndsNumber (']' :: rest) := by
  rintro _ ⟨⟩
  decide

lemma endsNumber_brace : EndsNumber ('\x7d' :: rest) := by
  rintro _ ⟨⟩
  decide

/-! ### Parts with commas between them -/

/-- What is written for a value is taken off the front of whatever may follow, by
calls no deeper than three times its length. -/
def TakenBy {α : Type} (take? : ℕ → List Char → Option (α × List Char)) (write : α → List Char)
    (a : α) : Prop :=
  ∀ n rest, 3 * (write a).length ≤ n → EndsNumber rest → take? n (write a ++ rest) = some (a, rest)

/-- A row of values with commas between them is taken up to the character that
closes it, if each of them is taken. -/
lemma takeAll?_commaSeparated {α : Type} {take? : ℕ → List Char → Option (α × List Char)}
    {takeAll? : ℕ → List Char → Option (List α × List Char)} {close : Char}
    (hclose : ∀ rest, EndsNumber (close :: rest))
    (hlast : ∀ n text a rest, take? n text = some (a, close :: rest) →
      takeAll? (n + 1) text = some ([a], rest))
    (hnext : ∀ n text a others rest tail, take? n text = some (a, ',' :: rest) →
      takeAll? n rest = some (others, tail) → takeAll? (n + 1) text = some (a :: others, tail))
    {write : α → List Char} {as : List α} (hne : as ≠ [])
    (htaken : ∀ a ∈ as, TakenBy take? write a) {n : ℕ}
    (hn : 3 * (commaSeparated (as.map write)).length + 1 ≤ n) (rest : List Char) :
    takeAll? n (commaSeparated (as.map write) ++ close :: rest) = some (as, rest) := by
  induction as generalizing n with
  | nil => exact absurd rfl hne
  | cons a as ih =>
      have ha := htaken a List.mem_cons_self
      cases n with
      | zero => omega
      | succ n =>
          cases as with
          | nil =>
              rw [List.map_singleton, commaSeparated] at hn ⊢
              exact hlast n _ a rest (ha n _ (by omega) (hclose rest))
          | cons b as =>
              have hsplit : commaSeparated ((a :: b :: as).map write)
                  = write a ++ ',' :: commaSeparated ((b :: as).map write) := rfl
              rw [hsplit, List.length_append, List.length_cons] at hn
              rw [hsplit, List.append_assoc, List.cons_append]
              exact hnext n _ a _ _ rest (ha n _ (by omega) endsNumber_comma)
                (ih (List.cons_ne_nil b as)
                  (fun other hother => htaken other (List.mem_cons_of_mem a hother)) (by omega))

/-! ### Arrays and objects -/

/-- The document is taken off the front of whatever may follow it. -/
def Taken (json : Json) : Prop :=
  TakenBy takeValue? chars json

/-- Items are taken up to the bracket that closes them. -/
lemma takeItems?_chars {items : List Json} (hne : items ≠ [])
    (h : ∀ item ∈ items, Taken item) {n : ℕ}
    (hn : 3 * (commaSeparated (items.map chars)).length + 1 ≤ n) (rest : List Char) :
    takeItems? n (commaSeparated (items.map chars) ++ ']' :: rest) = some (items, rest) := by
  refine takeAll?_commaSeparated (fun _ => endsNumber_bracket) ?_ ?_ hne h hn rest
  · intro n text item rest hitem
    simp (disch := decide) only [takeItems?, hitem, Option.bind_eq_bind, Option.bind_some,
      skipSpace_cons]
  · intro n text item others rest tail hitem hothers
    simp (disch := decide) only [takeItems?, hitem, Option.bind_eq_bind, Option.bind_some,
      skipSpace_cons, hothers, Option.map_some]

/-- A field is taken off the front of whatever may follow its value. -/
lemma takenBy_takeField? {field : List Char × Json} (hname : IsLiteral field.1)
    (hvalue : Taken field.2) : TakenBy takeField? fieldChars field := by
  intro n rest hn hrest
  simp only [fieldChars, List.length_append, List.length_cons] at hn
  cases n with
  | zero => omega
  | succ n =>
      have htaken := hvalue n rest (by omega) hrest
      have hliteral := hname (':' :: (field.2.chars ++ rest))
      simp (disch := decide) only [fieldChars, List.cons_append, List.append_assoc, takeField?,
        skipSpace_cons, hliteral, Option.bind_eq_bind, Option.bind_some, htaken,
        Option.map_some]

/-- Fields are taken up to the brace that closes them. -/
lemma takeFields?_chars {fields : List (List Char × Json)} (hne : fields ≠ [])
    (hnames : ∀ field ∈ fields, IsLiteral field.1) (hvalues : ∀ field ∈ fields, Taken field.2)
    {n : ℕ} (hn : 3 * (commaSeparated (fields.map fieldChars)).length + 1 ≤ n)
    (rest : List Char) :
    takeFields? n (commaSeparated (fields.map fieldChars) ++ '\x7d' :: rest)
      = some (fields, rest) := by
  refine takeAll?_commaSeparated (fun _ => endsNumber_brace) ?_ ?_ hne
    (fun field hfield => takenBy_takeField? (hnames field hfield) (hvalues field hfield)) hn rest
  · intro n text field rest hfield
    simp (disch := decide) only [takeFields?, hfield, Option.bind_eq_bind, Option.bind_some,
      skipSpace_cons]
  · intro n text field others rest tail hfield hothers
    simp (disch := decide) only [takeFields?, hfield, Option.bind_eq_bind, Option.bind_some,
      skipSpace_cons, hothers, Option.map_some]

/-! ### Documents -/

/-- A text that starts like a number is taken for one. -/
lemma takeValue?_num {c : Char} (hc : startsNumber c = true) (n : ℕ) (text : List Char) :
    takeValue? (n + 1) (c :: text)
      = (takeNumber? (c :: text)).map fun (literal, rest) => (.num literal, rest) := by
  rw [takeValue?, skipSpace_cons (isSpace_of_startsNumber hc)]
  split
  -- the other kinds of documents start with characters of their own
  all_goals first
    | exact absurd (List.cons.inj ‹_›).1 (ne_of_startsNumber hc (by decide))
    | rfl

/-- An array whose text goes on with an item. -/
lemma takeValue?_arr {c : Char} (hspace : isSpace c = false) (hc : c ≠ ']') (n : ℕ)
    (text : List Char) :
    takeValue? (n + 1) ('[' :: c :: text)
      = (takeItems? n (c :: text)).map fun (items, rest) => (.arr items, rest) := by
  rw [takeValue?, skipSpace_cons (by decide)]
  simp only [skipSpace_cons hspace]
  split
  · exact absurd (List.cons.inj ‹_›).1 hc
  · rfl

/-- An object whose text goes on with a name. -/
lemma takeValue?_obj (n : ℕ) (text : List Char) :
    takeValue? (n + 1) ('\x7b' :: '"' :: text)
      = (takeFields? n ('"' :: text)).map fun (fields, rest) => (.obj fields, rest) := by
  rw [takeValue?, skipSpace_cons (by decide)]
  simp (disch := decide) only [skipSpace_cons]
  rfl

/-- A document with literals in it is taken off the front of whatever may follow. -/
theorem WellWritten.taken {json : Json} (h : WellWritten json) : Taken json := by
  induction h with
  | null =>
      intro n rest hn _
      cases n with
      | zero => simp [chars] at hn
      | succ n => rw [chars]; rfl
  | bool value =>
      intro n rest hn _
      cases n with
      | zero => cases value <;> simp [chars] at hn
      | succ n => cases value <;> rw [chars] <;> rfl
  | @num literal h =>
      intro n rest hn hrest
      rw [chars] at hn ⊢
      have htakes := h.takes rest hrest
      cases literal with
      | nil => exact absurd rfl h.ne_nil
      | cons c digits =>
          cases n with
          | zero => simp at hn
          | succ n =>
              rw [List.cons_append] at htakes ⊢
              rw [takeValue?_num (h.head c rfl), htakes, Option.map_some]
  | @str literal h =>
      intro n rest hn _
      rw [chars] at hn ⊢
      cases n with
      | zero => simp at hn
      | succ n =>
          have htakes := h rest
          simp (disch := decide) only [List.cons_append, List.append_assoc, List.nil_append, takeValue?,
            skipSpace_cons, htakes, Option.map_some]
  | @arr items h ih =>
      intro n rest hn _
      rw [chars_arr, List.cons_append, List.length_cons, List.length_append,
        List.length_singleton] at hn
      rw [chars_arr, List.cons_append, List.cons_append, List.append_assoc, List.singleton_append]
      cases n with
      | zero => omega
      | succ n =>
          cases items with
          | nil => rfl
          | cons item items =>
              have htaken := takeItems?_chars (List.cons_ne_nil item items) ih (n := n)
                (by omega) rest
              obtain ⟨tail, htail⟩ := exists_commaSeparated_cons item.chars (items.map chars)
              obtain ⟨c, text, htext, hspace, hc, -⟩ := (h item List.mem_cons_self).exists_cons
              rw [List.map_cons, htail, htext, List.cons_append, List.cons_append] at htaken ⊢
              rw [takeValue?_arr hspace hc, htaken, Option.map_some]
  | @obj fields names values ih =>
      intro n rest hn _
      rw [chars_obj, List.cons_append, List.length_cons, List.length_append,
        List.length_singleton] at hn
      rw [chars_obj, List.cons_append, List.cons_append, List.append_assoc, List.singleton_append]
      cases n with
      | zero => omega
      | succ n =>
          cases fields with
          | nil => rfl
          | cons field fields =>
              have htaken := takeFields?_chars (List.cons_ne_nil field fields) names ih (n := n)
                (by omega) rest
              obtain ⟨tail, htail⟩ :=
                exists_commaSeparated_cons (fieldChars field) (fields.map fieldChars)
              rw [List.map_cons, htail, fieldChars, List.cons_append, List.cons_append,
                List.cons_append] at htaken ⊢
              rw [takeValue?_obj, htaken, Option.map_some]

/-- **Documents are read back.** A document whose numbers and strings are literals is
read back from its text. -/
theorem parse?_render {json : Json} (h : WellWritten json) : parse? json.render = some json := by
  have htaken := h.taken (3 * json.chars.length + 3) [] (by omega) endsNumber_nil
  rw [List.append_nil] at htaken
  rw [parse?, render, String.length_ofList, String.toList_ofList, htaken]
  rfl

end Json

end CoinSpend
