/-!
JSON documents.

* `Json`: a document with its literals as they are written, numbers with all
  their digits and strings with their escapes.
* `Json.text?` reads a string literal, and `Json.ofText` writes one. An escape
  that names half of a surrogate pair is valid in a document but has no text.
* `Json.int?` reads a number literal without fraction and exponent.
-/

namespace CoinSpend

/-- A document. The literals of numbers and strings, the latter without their
quotes, are kept as they are written. Fields keep their order, and may repeat. -/
inductive Json where
  | null
  | bool (value : Bool)
  | num (literal : List Char)
  | str (literal : List Char)
  | arr (items : List Json)
  | obj (fields : List (List Char × Json))

namespace Json

/-! ### Numbers -/

/-- A decimal digit. -/
def isDigit (c : Char) : Bool :=
  '0' ≤ c && c ≤ '9'

/-- The number with these decimal digits. -/
def natOfDigits (digits : List Char) : Nat :=
  digits.foldl (fun n c => 10 * n + (c.toNat - 48)) 0

/-- The whole number that a literal stands for. Zero has no sign. -/
def int? : List Char → Option Int
  | [] => none
  | '-' :: digits =>
    if digits ≠ [] ∧ digits.all isDigit ∧ natOfDigits digits ≠ 0 then
      some (-(natOfDigits digits : Int))
    else none
  | c :: digits =>
    if (c :: digits).all isDigit then some (natOfDigits (c :: digits)) else none

/-- The literal of a natural number. -/
def ofNat (n : Nat) : Json :=
  .num (toString n).toList

/-- The literal of a whole number. -/
def ofInt (n : Int) : Json :=
  .num (toString n).toList

/-! ### Strings -/

/-- The value of a hexadecimal digit of either case. -/
def hexValue? (c : Char) : Option Nat :=
  if '0' ≤ c ∧ c ≤ '9' then some (c.toNat - 48)
  else if 'a' ≤ c ∧ c ≤ 'f' then some (c.toNat - 87)
  else if 'A' ≤ c ∧ c ≤ 'F' then some (c.toNat - 55)
  else none

/-- The value of four hexadecimal digits. -/
def hexUnit? (a b c d : Char) : Option Nat := do
  let a ← hexValue? a
  let b ← hexValue? b
  let c ← hexValue? c
  let d ← hexValue? d
  return ((a * 16 + b) * 16 + c) * 16 + d

/-- The character that a letter after a backslash stands for. -/
def escaped? : Char → Option Char
  | '"' => some '"'
  | '\\' => some '\\'
  | '/' => some '/'
  | 'b' => some '\x08'
  | 'f' => some '\x0c'
  | 'n' => some '\n'
  | 'r' => some '\r'
  | 't' => some '\t'
  | _ => none

/-- A unit that is the first half of a pair. -/
def isHighHalf (unit : Nat) : Bool :=
  0xd800 ≤ unit && unit ≤ 0xdbff

/-- A unit that is the second half of a pair. -/
def isLowHalf (unit : Nat) : Bool :=
  0xdc00 ≤ unit && unit ≤ 0xdfff

/-- The character that two halves make. -/
def joinHalves (high low : Nat) : Char :=
  Char.ofNat (0x10000 + (high - 0xd800) * 0x400 + (low - 0xdc00))

/-- The characters that a string literal stands for, unless it has half of a
pair. -/
def chars? : List Char → Option (List Char)
  | [] => some []
  | '\\' :: 'u' :: a :: b :: c :: d :: rest => do
    let unit ← hexUnit? a b c d
    if isHighHalf unit then
      match rest with
      | '\\' :: 'u' :: a :: b :: c :: d :: rest => do
        let low ← hexUnit? a b c d
        if isLowHalf low then (chars? rest).map (joinHalves unit low :: ·) else none
      | _ => none
    else if isLowHalf unit then none
    else (chars? rest).map (Char.ofNat unit :: ·)
  | '\\' :: e :: rest => do
    let c ← escaped? e
    (chars? rest).map (c :: ·)
  | '\\' :: [] => none
  | c :: rest => (chars? rest).map (c :: ·)

/-- The text that a string literal stands for. -/
def literalText? (literal : List Char) : Option String :=
  (chars? literal).map String.ofList

/-- The digit for a value below sixteen. -/
def hexChar (n : Nat) : Char :=
  if n < 10 then Char.ofNat (48 + n) else Char.ofNat (87 + n)

/-- The form of a character in a string literal. Quotes, backslashes and
control characters are escaped. -/
def escape : Char → List Char
  | '"' => ['\\', '"']
  | '\\' => ['\\', '\\']
  | '\x08' => ['\\', 'b']
  | '\x0c' => ['\\', 'f']
  | '\n' => ['\\', 'n']
  | '\r' => ['\\', 'r']
  | '\t' => ['\\', 't']
  | c =>
    if c.toNat < 0x20 then ['\\', 'u', '0', '0', hexChar (c.toNat / 16), hexChar (c.toNat % 16)]
    else [c]

/-- The string literal of a text. -/
def literal (text : String) : List Char :=
  text.toList.flatMap escape

/-- The document that is a text. -/
def ofText (text : String) : Json :=
  .str (literal text)

/-- A field of an object. -/
def field (name : String) (value : Json) : List Char × Json :=
  (literal name, value)

end Json

end CoinSpend
