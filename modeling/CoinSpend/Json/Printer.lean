import CoinSpend.Json.Basic

/-!
Writing JSON documents.

* `Json.render`: the text of a document, without blanks.
-/

namespace CoinSpend

namespace Json

/-- The texts with commas between them. -/
def commaSeparated : List (List Char) → List Char
  | [] => []
  | [text] => text
  | text :: rest => text ++ ',' :: commaSeparated rest

/-- The characters of a document. -/
def chars : Json → List Char
  | .null => ['n', 'u', 'l', 'l']
  | .bool true => ['t', 'r', 'u', 'e']
  | .bool false => ['f', 'a', 'l', 's', 'e']
  | .num literal => literal
  | .str literal => '"' :: literal ++ ['"']
  | .arr items => '[' :: commaSeparated (items.attach.map fun ⟨item, _⟩ => item.chars) ++ [']']
  | .obj fields =>
    '\x7b' ::
      commaSeparated (fields.attach.map fun ⟨(name, value), _⟩ =>
        '"' :: name ++ ('"' :: ':' :: value.chars)) ++ ['\x7d']
decreasing_by
  · simp_wf
    have := List.sizeOf_lt_of_mem ‹_›
    omega
  · simp_wf
    have := List.sizeOf_lt_of_mem ‹_›
    simp only [Prod.mk.sizeOf_spec] at this
    omega

/-- The text of a document. -/
def render (json : Json) : String :=
  String.ofList json.chars

end Json

end CoinSpend
