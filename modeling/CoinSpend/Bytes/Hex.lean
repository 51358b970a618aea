import CoinSpend.Bytes

/-!
Hexadecimal text.

* `Hex.encode` writes two lower-case digits for each byte, and `Hex.decode`
  reads digits of either case.
* A text that is no hexadecimal is refused for a cause, `Hex.Fault`. An odd
  number of bytes comes before a character that is no digit.
* `Hex.stripMark` takes one leading `0x` or `0X` away, `Hex.decodeMarked` reads
  the text that remains.
-/

namespace CoinSpend

namespace Hex

/-- Why a text is not hexadecimal. The offending byte belongs to the UTF-8
form of the text, and `index` counts bytes of that form. -/
inductive Fault where
  | oddLength
  | badByte (byte : UInt8) (index : Nat)
  deriving Repr, DecidableEq

/-- The digit for a value below sixteen. -/
def digit (n : Nat) : Char :=
  if n < 10 then Char.ofNat (48 + n) else Char.ofNat (87 + n)

/-- The value of a digit of either case. -/
def value? (c : Char) : Option Nat :=
  if '0' ≤ c ∧ c ≤ '9' then some (c.toNat - 48)
  else if 'a' ≤ c ∧ c ≤ 'f' then some (c.toNat - 87)
  else if 'A' ≤ c ∧ c ≤ 'F' then some (c.toNat - 55)
  else none

/-- The two digits of a byte, the high one first. -/
def digits (b : UInt8) : List Char :=
  [digit (b.toNat / 16), digit (b.toNat % 16)]

/-- The lower-case hexadecimal text of a byte string. -/
def encode (b : Bytes) : String :=
  String.ofList (b.flatMap digits)

/-- The first byte of the UTF-8 form of a character. -/
def leadByte (c : Char) : UInt8 :=
  (String.utf8EncodeChar c).headD 0

/-- Reads digits in pairs. Every character before `index` was a digit and so
one byte long, which makes `index` a byte position too. -/
def decodeFrom (index : Nat) : List Char → Except Fault Bytes
  | [] => .ok []
  | [c] => if (value? c).isSome then .error .oddLength else .error (.badByte (leadByte c) index)
  | a :: b :: rest =>
    match value? a, value? b with
    | none, _ => .error (.badByte (leadByte a) index)
    | some _, none => .error (.badByte (leadByte b) (index + 1))
    | some x, some y => do
      let tail ← decodeFrom (index + 2) rest
      return UInt8.ofNat (16 * x + y) :: tail

/-- The bytes a hexadecimal text stands for. -/
def decode (text : String) : Except Fault Bytes :=
  if text.utf8ByteSize % 2 = 1 then .error .oddLength else decodeFrom 0 text.toList

/-- The text without one leading `0x` or `0X`. -/
def stripMark (text : String) : String :=
  match text.toList with
  | '0' :: 'x' :: rest => String.ofList rest
  | '0' :: 'X' :: rest => String.ofList rest
  | _ => text

/-- Reads hexadecimal text that may carry the `0x` mark. -/
def decodeMarked (text : String) : Except Fault Bytes :=
  decode (stripMark text)

/-- The number of a byte without leading zeros, in hexadecimal. -/
def shortest (b : UInt8) : String :=
  if b < 16 then (digit b.toNat).toString else String.ofList (digits b)

/-- A byte shown as a quoted character: control and invisible ones escaped. -/
def quoteByte (b : UInt8) : String :=
  let inside :=
    if b = 0 then "\\0"
    else if b = 9 then "\\t"
    else if b = 10 then "\\n"
    else if b = 13 then "\\r"
    else if b = 39 then "\\'"
    else if b = 92 then "\\\\"
    else if b < 32 || (127 ≤ b && b ≤ 160) || b = 173 then "\\u\x7b" ++ shortest b ++ "\x7d"
    else (Char.ofNat b.toNat).toString
  "'" ++ inside ++ "'"

/-- The wording of a fault. -/
def Fault.message : Fault → String
  | .oddLength => "Odd number of digits"
  | .badByte byte index => s!"Invalid character {quoteByte byte} at position {index}"

end Hex

end CoinSpend
