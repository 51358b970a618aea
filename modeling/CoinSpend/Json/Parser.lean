import CoinSpend.Json.Basic

/-!
Reading JSON documents.

* `Json.parse?`: the document that a text is, with blanks allowed between its
  parts.
* `Json.takeNumber?`, `Json.takeString?`: the literals, each as it is written.
  A number has no zeros in front, and a string no control characters.
-/

namespace CoinSpend

namespace Json

/-- A character that may stand between the parts of a document. -/
def isSpace (c : Char) : Bool :=
  c == ' ' || c == '\n' || c == '\r' || c == '\t'

/-- The text without blanks in front. -/
def skipSpace (text : List Char) : List Char :=
  text.dropWhile isSpace

/-- The digits in front of a text, of which there has to be one. -/
def takeDigits? (text : List Char) : Option (List Char × List Char) :=
  match text.takeWhile isDigit with
  | [] => none
  | digits => some (digits, text.dropWhile isDigit)

/-- The digits of a whole number, without zeros in front. -/
def takeWhole? : List Char → Option (List Char × List Char)
  | '0' :: rest => some (['0'], rest)
  | text => takeDigits? text

/-- The point and the digits after it, if there is a point. -/
def takeFraction? : List Char → Option (List Char × List Char)
  | '.' :: rest => (takeDigits? rest).map fun (digits, rest) => ('.' :: digits, rest)
  | text => some ([], text)

/-- The sign of an exponent, if there is one. -/
def takeSign : List Char → List Char × List Char
  | '+' :: rest => (['+'], rest)
  | '-' :: rest => (['-'], rest)
  | text => ([], text)

/-- The mark and the digits of an exponent, if there is a mark. -/
def takeExponent? : List Char → Option (List Char × List Char)
  | c :: rest =>
    if c = 'e' ∨ c = 'E' then
      let (sign, rest) := takeSign rest
      (takeDigits? rest).map fun (digits, rest) => (c :: sign ++ digits, rest)
    else some ([], c :: rest)
  | [] => some ([], [])

/-- The minus sign, if there is one. -/
def takeMinus : List Char → List Char × List Char
  | '-' :: rest => (['-'], rest)
  | text => ([], text)

/-- The number literal in front of a text, and the rest. -/
def takeNumber? (text : List Char) : Option (List Char × List Char) := do
  let (minus, text) := takeMinus text
  let (whole, text) ← takeWhole? text
  let (fraction, text) ← takeFraction? text
  let (exponent, text) ← takeExponent? text
  return (minus ++ whole ++ fraction ++ exponent, text)

/-- The string literal in front of a text up to its closing quote, and the
rest. -/
def takeString? : List Char → Option (List Char × List Char)
  | [] => none
  | '"' :: rest => some ([], rest)
  | '\\' :: 'u' :: a :: b :: c :: d :: rest =>
    if (hexUnit? a b c d).isSome then
      (takeString? rest).map fun (literal, rest) => ('\\' :: 'u' :: a :: b :: c :: d :: literal, rest)
    else none
  | '\\' :: e :: rest =>
    if (escaped? e).isSome then
      (takeString? rest).map fun (literal, rest) => ('\\' :: e :: literal, rest)
    else none
  | c :: rest =>
    if c.toNat < 0x20 ∨ c = '\\' then none
    else (takeString? rest).map fun (literal, rest) => (c :: literal, rest)

mutual

/-- The document in front of a text, and the rest. The number bounds the depth
of the calls. -/
def takeValue? : Nat → List Char → Option (Json × List Char)
  | 0, _ => none
  | n + 1, text =>
    match skipSpace text with
    | 'n' :: 'u' :: 'l' :: 'l' :: rest => some (.null, rest)
    | 't' :: 'r' :: 'u' :: 'e' :: rest => some (.bool true, rest)
    | 'f' :: 'a' :: 'l' :: 's' :: 'e' :: rest => some (.bool false, rest)
    | '"' :: rest => (takeString? rest).map fun (literal, rest) => (.str literal, rest)
    | '[' :: rest =>
      match skipSpace rest with
      | ']' :: rest => some (.arr [], rest)
      | rest => (takeItems? n rest).map fun (items, rest) => (.arr items, rest)
    | '\x7b' :: rest =>
      match skipSpace rest with
      | '\x7d' :: rest => some (.obj [], rest)
      | rest => (takeFields? n rest).map fun (fields, rest) => (.obj fields, rest)
    | text => (takeNumber? text).map fun (literal, rest) => (.num literal, rest)

/-- The items of an array up to its closing bracket, and the rest. -/
def takeItems? : Nat → List Char → Option (List Json × List Char)
  | 0, _ => none
  | n + 1, text => do
    let (item, rest) ← takeValue? n text
    match skipSpace rest with
    | ']' :: rest => some ([item], rest)
    | ',' :: rest => (takeItems? n rest).map fun (items, rest) => (item :: items, rest)
    | _ => none

/-- The fields of an object up to its closing brace, and the rest. -/
def takeFields? : Nat → List Char → Option (List (List Char × Json) × List Char)
  | 0, _ => none
  | n + 1, text => do
    let (field, rest) ← takeField? n text
    match skipSpace rest with
    | '\x7d' :: rest => some ([field], rest)
    | ',' :: rest => (takeFields? n rest).map fun (fields, rest) => (field :: fields, rest)
    | _ => none

/-- A field of an object, and the rest. -/
def takeField? : Nat → List Char → Option ((List Char × Json) × List Char)
  | 0, _ => none
  | n + 1, text =>
    match skipSpace text with
    | '"' :: rest => do
      let (name, rest) ← takeString? rest
      match skipSpace rest with
      | ':' :: rest => (takeValue? n rest).map fun (value, rest) => ((name, value), rest)
      | _ => none
    | _ => none

end

/-- The document that a text is. -/
def parse? (text : String) : Option Json :=
  match takeValue? (3 * text.length + 3) text.toList with
  | some (json, rest) => if (skipSpace rest).isEmpty then some json else none
  | none => none

end Json

end CoinSpend
