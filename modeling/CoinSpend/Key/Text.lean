import CoinSpend.Address.Base58
import CoinSpend.Key

/-!
Private keys as text.

* `PrivateKey.ofText`: a secret in 64 hexadecimal digits, whose public key has
  the short form, or a checked base-58 text with the version of the chain, the
  secret, and a final one if the public key has the short form. Blanks around
  the text and one `0x` mark are dropped.
* `PrivateKey.toText`: the base-58 text of a key.
-/

namespace CoinSpend

/-- A character that counts as blank, in any script. -/
def isBlank (c : Char) : Bool :=
  let n := c.toNat
  (9 ≤ n && n ≤ 13) || n == 0x20 || n == 0x85 || n == 0xa0 || n == 0x1680 ||
    (0x2000 ≤ n && n ≤ 0x200a) || n == 0x2028 || n == 0x2029 || n == 0x202f || n == 0x205f ||
    n == 0x3000

/-- The text without blanks at both ends. -/
def trimBlanks (text : String) : String :=
  String.ofList ((text.toList.dropWhile isBlank).reverse.dropWhile isBlank).reverse

namespace PrivateKey

/-- The key of a secret in bytes. -/
def ofSecretBytes (b : Bytes) (compressed : Bool) (params : ChainParams) :
    Except TxError PrivateKey :=
  match SecretKey.ofBytes? b with
  | none => .error (.invalidPrivateKey .outOfRange)
  | some secret => .ok ⟨secret, compressed, params.networkKind⟩

/-- The form of the public key that a payload announces: 33 bytes for the long
one, 34 bytes with a final one for the short one. -/
def payloadForm? (payload : Bytes) : Option Bool :=
  if payload.length = 33 then some false
  else if payload.length = 34 ∧ payload.getLast? = some 1 then some true
  else none

/-- The key of the payload of a base-58 text. -/
def ofPayload (payload : Bytes) (params : ChainParams) : Except TxError PrivateKey :=
  match payloadForm? payload with
  | none => .error (.invalidPrivateKey (.payloadLength payload.length))
  | some compressed =>
    let version := payload.headD 0
    if version ≠ params.privateKeyVersion then
      .error (.invalidPrivateKey (.foreignVersion version params.chain))
    else ofSecretBytes ((payload.drop 1).take 32) compressed params

/-- The text has the shape of a secret in hexadecimal. -/
def isSecretHex (text : String) : Bool :=
  text.toList.length == 64 && text.toList.all fun c => (Hex.value? c).isSome

/-- The key that a text stands for on a chain. -/
def ofText (text : String) (params : ChainParams) : Except TxError PrivateKey :=
  let text := Hex.stripMark (trimBlanks text)
  if isSecretHex text then
    match Hex.decode text with
    | .ok b => ofSecretBytes b true params
    | .error _ => .error (.invalidPrivateKey .outOfRange)
  else
    match Base58.decodeCheck text with
    | .error fault => .error (.invalidPrivateKey (.base58 fault))
    | .ok payload => ofPayload payload params

/-- The payload of the base-58 text of a key. -/
def payload (key : PrivateKey) (params : ChainParams) : Bytes :=
  params.privateKeyVersion :: key.secret.bytes ++ if key.compressed then [1] else []

/-- The base-58 text of a key on a chain. -/
def toText (key : PrivateKey) (params : ChainParams) : String :=
  Base58.encodeCheck (key.payload params)

end PrivateKey

end CoinSpend
