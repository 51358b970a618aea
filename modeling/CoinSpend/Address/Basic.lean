import CoinSpend.Address.Base58
import CoinSpend.Address.Bech32
import CoinSpend.Script.Instruction
import CoinSpend.Key

/-!
Addresses and the locking scripts they stand for.

* `Address.toScript`: the script of an address of a chain. A text that looks
  like a witness address is tried as one first; if it is none, it may still be
  a base-58 address, and otherwise the first fault is reported.
* `Address.ofWitnessProgram`: the address of a witness program, and
  `Address.ofPublicKey`: the address of the hash of a key.
-/

namespace CoinSpend

namespace Address

/-- The script of a checked base-58 text. -/
def scriptOfBase58 (text : String) (params : ChainParams) : Except TxError Script :=
  match Base58.decodeCheck text with
  | .error fault => .error (.address text (.base58 fault))
  | .ok [] => .error (.address text .payloadLength)
  | .ok (version :: hash) =>
    if hash.length ≠ 20 then .error (.address text .payloadLength)
    else if version = params.keyHashVersion then .ok (Script.p2pkh hash)
    else if version = params.scriptHashVersion then .ok (Script.p2sh hash)
    else .error (.address text (.foreignVersion version params.chain))

/-- The text is in one case and starts with the prefix and the separator. -/
def hasSegwitShape (text hrp : String) : Bool :=
  (text = text.toLower ∨ text = text.toUpper) &&
    (hrp.toList ++ ['1']).isPrefixOf text.toLower.toList

/-- The script of a witness address. -/
def scriptOfSegwit (text hrp : String) : Except TxError Script :=
  match Bech32.decode? text with
  | none => .error (.address text .notSegwit)
  | some decoded =>
    if decoded.hrp ≠ hrp.toList then .error (.address text .foreignPrefix)
    else .ok (Script.witnessProgram decoded.version decoded.program)

/-- The locking script that an address stands for on a chain. -/
def toScript (text : String) (params : ChainParams) : Except TxError Script :=
  match params.hrp with
  | none => scriptOfBase58 text params
  | some hrp =>
    if hasSegwitShape text hrp then
      match scriptOfSegwit text hrp with
      | .ok script => .ok script
      | .error fault =>
        match scriptOfBase58 text params with
        | .ok script => .ok script
        | .error _ => .error fault
    else scriptOfBase58 text params

/-- The address of a witness program. -/
def ofWitnessProgram (script : Script) (params : ChainParams) : Except TxError String :=
  match params.hrp with
  | none => .error (.address (Hex.encode script) (.chainWithoutSegwit params.chain))
  | some hrp =>
    match script.witnessVersion? with
    | none => .error (.address (Hex.encode script) .notWitnessProgram)
    | some version =>
      match Bech32.encode? hrp version (script.drop 2) with
      | none => .error (.address hrp .programLength)
      | some text => .ok text

/-- The address that pays to the hash of a key. -/
def ofPublicKey (key : PublicKey) (params : ChainParams) : String :=
  Base58.encodeCheck (params.keyHashVersion :: key.hash)

end Address

end CoinSpend
