import CoinSpend.Bytes

/-!
Checksummed base-32 text of witness programs.

* `Bits`: numbers as bits, the highest one first, and the regrouping of bytes
  in symbols of five bits.
* `Bech32.checksum` and `Bech32.isValid`: the six symbols that make the
  residue of prefix and symbols the constant of the form.
* `Bech32.encode?` and `Bech32.decode?`: a prefix, a version and a program as
  text and back. Version zero and later versions use two different constants.
-/

namespace CoinSpend

namespace Bits

/-- The `n` low bits of a number, the highest one first. -/
def ofNat : Nat → Nat → List Bool
  | 0, _ => []
  | n + 1, v => v.testBit n :: ofNat n v

/-- The number with these bits. -/
def toNat (bits : List Bool) : Nat :=
  bits.foldl (fun n b => 2 * n + b.toNat) 0

/-- The bits in groups of `n`, the last group as short as it comes. -/
def groups (n : Nat) (bits : List Bool) : List (List Bool) :=
  if h : 0 < n ∧ bits ≠ [] then
    have : (bits.drop n).length < bits.length := by
      have := List.length_pos_iff.mpr h.2
      simp only [List.length_drop]; omega
    bits.take n :: groups n (bits.drop n)
  else []
termination_by bits.length

/-- The bits with zeros at the end up to a length of `n`. -/
def fill (n : Nat) (bits : List Bool) : List Bool :=
  bits ++ List.replicate (n - bits.length) false

end Bits

namespace Bech32

/-- The symbols, by value. -/
def alphabet : List Char :=
  "qpzry9x8gf2tvdw0s3jn54khce6mua7l".toList

/-- The symbol of a value below 32. -/
def symbol (d : Nat) : Char :=
  alphabet.getD d 'q'

/-- The value of a symbol in lower case. -/
def value? (c : Char) : Option Nat :=
  alphabet.idxOf? c

/-- The feedback of each of the five bits that leave the register. -/
def generators : List (BitVec 30) :=
  [0x3b6a57b2, 0x26508e6d, 0x1ea119fa, 0x3d4233dd, 0x2a1462b3]

/-- The feedback of the five bits on top of the register. -/
def feedback (register : BitVec 30) : BitVec 30 :=
  generators.zipIdx.foldl
    (fun acc (g, i) => if register.getLsbD (25 + i) then acc ^^^ g else acc) 0

/-- Takes one symbol into the register. -/
def step (register : BitVec 30) (value : Nat) : BitVec 30 :=
  (register <<< 5) ^^^ BitVec.ofNat 30 value ^^^ feedback register

/-- The residue of a sequence of symbols. -/
def residue (values : List Nat) : BitVec 30 :=
  values.foldl step 1

/-- The symbols that a prefix contributes to the residue. -/
def prefixValues (hrp : List Char) : List Nat :=
  hrp.map (fun c => c.toNat / 32) ++ 0 :: hrp.map fun c => c.toNat % 32

/-- The constant of the form that is used for a version. -/
def constant (version : Nat) : BitVec 30 :=
  if version = 0 then 1 else 0x2bc830a3

/-- The six symbols at the end of the text. -/
def checksum (hrp : List Char) (version : Nat) (values : List Nat) : List Nat :=
  let register := residue (prefixValues hrp ++ values ++ List.replicate 6 0) ^^^ constant version
  [25, 20, 15, 10, 5, 0].map fun shift => (register >>> shift).toNat % 32

/-- The checksum at the end of the symbols is right. -/
def isValid (hrp : List Char) (version : Nat) (values : List Nat) : Bool :=
  residue (prefixValues hrp ++ values) == constant version

/-- The bytes in symbols of five bits, filled up with zeros. -/
def toSymbols (program : Bytes) : List Nat :=
  (Bits.groups 5 (program.flatMap fun b => Bits.ofNat 8 b.toNat)).map fun g =>
    Bits.toNat (Bits.fill 5 g)

/-- The bytes that the symbols hold; what is left has to be at most four
zeros. -/
def ofSymbols? (values : List Nat) : Option Bytes :=
  let bits := values.flatMap (Bits.ofNat 5)
  let rest := bits.drop (bits.length / 8 * 8)
  if rest.length ≤ 4 ∧ rest.all (!·) then
    some ((Bits.groups 8 (bits.take (bits.length / 8 * 8))).map fun g => UInt8.ofNat (Bits.toNat g))
  else none

/-- Programs have 2 to 40 bytes, and 20 or 32 for version zero. -/
def lengthFits (version length : Nat) : Bool :=
  2 ≤ length && length ≤ 40 && (version != 0 || length == 20 || length == 32)

/-- The text of a program, if its length fits the version. -/
def encode? (hrp : String) (version : Nat) (program : Bytes) : Option String :=
  if lengthFits version program.length then
    let values := version :: toSymbols program
    let all := values ++ checksum hrp.toList version values
    some (String.ofList (hrp.toList ++ '1' :: all.map symbol))
  else none

/-- A witness program and the prefix of its text. -/
structure Decoded where
  hrp : List Char
  version : Nat
  program : Bytes

/-- The characters before and after the last separator. -/
def splitLast? (chars : List Char) : Option (List Char × List Char) :=
  let tail := chars.reverse.takeWhile (· != '1')
  match chars.reverse.dropWhile (· != '1') with
  | [] => none
  | _ :: front => some (front.reverse, tail.reverse)

/-- Reads the symbols after the separator. -/
def decodeValues? (hrp : List Char) : List Nat → Option Decoded
  | [] => none
  | version :: values => do
    if 16 < version ∨ values.length < 6 ∨ !isValid hrp version (version :: values) then none
    else
      let program ← ofSymbols? (values.take (values.length - 6))
      if lengthFits version program.length then some ⟨hrp, version, program⟩ else none

/-- Reads a text in lower case. -/
def decodeLower? (chars : List Char) : Option Decoded := do
  let (hrp, data) ← splitLast? chars
  if hrp.isEmpty || !hrp.all (fun c => 33 ≤ c.toNat && c.toNat ≤ 126) then none
  else
    let values ← data.mapM value?
    decodeValues? hrp values

/-- The program of a text in one case of at most 90 bytes. The prefix is given
back in lower case. -/
def decode? (text : String) : Option Decoded :=
  if 90 < text.utf8ByteSize then none
  else if text = text.toLower ∨ text = text.toUpper then decodeLower? text.toLower.toList
  else none

end Bech32

end CoinSpend
