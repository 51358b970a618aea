import CoinSpend.Error
import CoinSpend.Hash.Sha256

/-!
Base-58 text with a checksum.

* `Base58.encode` and `Base58.decode?`: a byte string is written as a number
  in base 58, with a `1` for every zero byte in front.
* `Base58.encodeCheck` and `Base58.decodeCheck`: the same with the first four
  bytes of the double digest at the end.
-/

namespace CoinSpend

namespace Base58

/-- The digits, by value. -/
def alphabet : List Char :=
  "123456789ABCDEFGHJKLMNPQRSTUVWXYZabcdefghijkmnopqrstuvwxyz".toList

/-- The digits of a number in a base, the least significant one first. -/
def digitsLE (base n : Nat) : List Nat :=
  if h : 2 ≤ base ∧ 0 < n then
    have := Nat.div_lt_self h.2 h.1
    n % base :: digitsLE base (n / base)
  else []
termination_by n

/-- The number with these digits, the most significant one first. -/
def ofDigits (base : Nat) (digits : List Nat) : Nat :=
  digits.foldl (fun n d => n * base + d) 0

/-- The digit of a value below 58. -/
def digit (d : Nat) : Char :=
  alphabet.getD d '1'

/-- The value of a digit. -/
def value? (c : Char) : Option Nat :=
  alphabet.idxOf? c

/-- The text of a byte string. -/
def encode (b : Bytes) : String :=
  let zeros := b.takeWhile (· == 0)
  let digits := (digitsLE 58 (Bytes.toNatBE b)).reverse
  String.ofList (zeros.map (fun _ => '1') ++ digits.map digit)

/-- The byte string of a text, unless it has a character that is no digit. -/
def decode? (text : String) : Option Bytes := do
  let values ← text.toList.mapM value?
  let zeros := values.takeWhile (· == 0)
  let bytes := (digitsLE 256 (ofDigits 58 values)).reverse
  return zeros.map (fun _ => 0) ++ bytes.map UInt8.ofNat

/-- The four bytes that guard a payload. -/
def checksum (payload : Bytes) : Bytes :=
  (doubleSha256 payload).take 4

/-- The text of a payload with its checksum. -/
def encodeCheck (payload : Bytes) : String :=
  encode (payload ++ checksum payload)

/-- The payload of a text whose checksum is right. -/
def decodeCheck (text : String) : Except Base58Fault Bytes :=
  match decode? text with
  | none => .error .badCharacter
  | some b =>
    if b.length < 4 then .error .tooShort
    else
      let payload := b.take (b.length - 4)
      if b.drop (b.length - 4) = checksum payload then .ok payload else .error .badChecksum

end Base58

end CoinSpend
