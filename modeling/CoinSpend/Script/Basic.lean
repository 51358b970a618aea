import CoinSpend.Hash.Ripemd160
import CoinSpend.Transaction.Basic

/-!
Locking scripts by template, and data pushes.

* `Script.push`: the written form of a data push, with the shortest length
  field that holds the length.
* `Script.p2pkh`, `Script.p2sh`, `Script.p2wpkh`, `Script.p2tr`: the templates,
  and `Script.isP2pkh` to `Script.isP2tr` recognise them.
* `Script.witnessVersion?`: the version of a witness program.
-/

namespace CoinSpend

/-! ### Codes of the operations that the library names -/

namespace Op

/-- Pushes a copy of the top item. -/
def dup : UInt8 := 0x76

/-- Replaces the top item by its 20-byte hash. -/
def hash160 : UInt8 := 0xa9

/-- Tells whether the two top items are equal. -/
def equal : UInt8 := 0x87

/-- Fails unless the two top items are equal. -/
def equalVerify : UInt8 := 0x88

/-- Tells whether a signature is valid. -/
def checkSig : UInt8 := 0xac

/-- Fails unless a signature is valid. -/
def checkSigVerify : UInt8 := 0xad

/-- Tells whether several signatures are valid. -/
def checkMultiSig : UInt8 := 0xae

/-- Fails unless several signatures are valid. -/
def checkMultiSigVerify : UInt8 := 0xaf

/-- Opens a branch. -/
def ifTrue : UInt8 := 0x63

/-- Closes a branch. -/
def endIf : UInt8 := 0x68

/-- The operation that pushes the number one; its successors push two to
sixteen. -/
def one : UInt8 := 0x51

end Op

/-! ### Pushes and templates -/

namespace Script

/-- The most bytes that one push can hold. -/
def maxPush : Nat :=
  4294967295

/-- The code and the length field in front of pushed data. -/
def pushHead (length : Nat) : Bytes :=
  if length < 76 then [UInt8.ofNat length]
  else if length < 256 then 0x4c :: Bytes.ofNatLE 1 length
  else if length < 65536 then 0x4d :: Bytes.ofNatLE 2 length
  else 0x4e :: Bytes.ofNatLE 4 length

/-- A push of data of at most `maxPush` bytes. -/
def push (data : Bytes) : Script :=
  pushHead data.length ++ data

/-- Pays to the holder of the key with this hash. -/
def p2pkh (keyHash : Bytes) : Script :=
  [Op.dup, Op.hash160] ++ push keyHash ++ [Op.equalVerify, Op.checkSig]

/-- Pays to whoever satisfies the script with this hash. -/
def p2sh (scriptHash : Bytes) : Script :=
  Op.hash160 :: push scriptHash ++ [Op.equal]

/-- The code that pushes the version of a witness program. -/
def versionCode (version : Nat) : UInt8 :=
  if version = 0 then 0 else UInt8.ofNat (0x50 + version)

/-- Pays to a witness program. -/
def witnessProgram (version : Nat) (program : Bytes) : Script :=
  versionCode version :: push program

/-- Pays to the holder of the key with this hash, by witness. -/
def p2wpkh (keyHash : Bytes) : Script :=
  witnessProgram 0 keyHash

/-- Pays to an output key, given by its `x` coordinate. -/
def p2tr (outputKey : Bytes) : Script :=
  witnessProgram 1 outputKey

/-- The template `p2pkh`. -/
def isP2pkh (script : Script) : Bool :=
  script.length == 25 && script.take 3 == [Op.dup, Op.hash160, 20] &&
    script.drop 23 == [Op.equalVerify, Op.checkSig]

/-- The template `p2sh`. -/
def isP2sh (script : Script) : Bool :=
  script.length == 23 && script.take 2 == [Op.hash160, 20] && script.drop 22 == [Op.equal]

/-- The template `p2wpkh`. -/
def isP2wpkh (script : Script) : Bool :=
  script.length == 22 && script.take 2 == [0, 20]

/-- The template `p2tr`. -/
def isP2tr (script : Script) : Bool :=
  script.length == 34 && script.take 2 == [Op.one, 32]

/-- The version of a witness program: a version code and one push of all
the rest, which has 2 to 40 bytes. -/
def witnessVersion? : Script → Option Nat
  | code :: size :: program =>
    if program.length = size.toNat ∧ 2 ≤ size ∧ size ≤ 40 then
      if code = 0 then some 0
      else if Op.one ≤ code ∧ code ≤ 0x60 then some (code.toNat - 0x50)
      else none
    else none
  | _ => none

/-- The script is a witness program of some version. -/
def isWitnessProgram (script : Script) : Bool :=
  script.witnessVersion?.isSome

end Script

end CoinSpend
