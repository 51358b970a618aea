import CoinSpend.Chain
import CoinSpend.Transaction.Basic

/-!
The ways in which making a transaction can fail.

* One type for each thing that can be refused, whose constructors are the
  causes: `AddressFault`, `ScriptFault`, `PrivateKeyFault`, `PublicKeyFault`,
  `DecodeFault`, `SigningFault`, `InscriptionFault`.
* `TxError`: the failures, and `TxError.message`: their wording.
* `Amount.checked`, `Amount.checkedTotal`: a number and a sum of amounts, which
  fail if they do not fit an amount.
-/

namespace CoinSpend

/-- Why a text is no checked base-58 text. -/
inductive Base58Fault where
  | badCharacter
  | tooShort
  | badChecksum
  deriving Repr, DecidableEq

/-- The wording of a base-58 fault. -/
def Base58Fault.message : Base58Fault → String
  | .badCharacter => "decode"
  | .tooShort => "too short"
  | .badChecksum => "incorrect checksum"

/-- The number of a byte as two digits with the mark `0x`. -/
def byteText (b : UInt8) : String :=
  "0x" ++ String.ofList (Hex.digits b)

/-- Why an address and a script do not stand for each other. -/
inductive AddressFault where
  | base58 (fault : Base58Fault)
  | payloadLength
  | foreignVersion (version : UInt8) (chain : Chain)
  | notSegwit
  | foreignPrefix
  | chainWithoutSegwit (chain : Chain)
  | notWitnessProgram
  | programLength
  deriving Repr, DecidableEq

/-- The wording of an address fault. -/
def AddressFault.message : AddressFault → String
  | .base58 fault => fault.message
  | .payloadLength => "payload is not a 20-byte hash"
  | .foreignVersion version chain =>
    s!"version byte {byteText version} does not belong to {chain.label}"
  | .notSegwit => "decoding segwit address failed"
  | .foreignPrefix => "wrong network prefix"
  | .chainWithoutSegwit chain => s!"{chain.label} has no segwit"
  | .notWitnessProgram => "not a witness program"
  | .programLength => "witness length"

/-- Why a script is refused. -/
inductive ScriptFault where
  | hex (fault : Hex.Fault)
  | truncatedPush
  | pushTooLong (length : Nat)
  deriving Repr, DecidableEq

/-- The wording for data too long for one push. -/
def pushTooLongMessage (length : Nat) : String :=
  s!"attempt to push {length} bytes, the limit is 4294967295"

/-- The wording of a script fault. -/
def ScriptFault.message : ScriptFault → String
  | .hex fault => fault.message
  | .truncatedPush => "unexpected end of script"
  | .pushTooLong length => pushTooLongMessage length

/-- Why a private key is refused. -/
inductive PrivateKeyFault where
  | missing (input : Nat)
  | base58 (fault : Base58Fault)
  | payloadLength (length : Nat)
  | foreignVersion (version : UInt8) (chain : Chain)
  | outOfRange
  deriving Repr, DecidableEq

/-- The wording of a private-key fault. -/
def PrivateKeyFault.message : PrivateKeyFault → String
  | .missing input => s!"input {input} has no private key"
  | .base58 fault => fault.message
  | .payloadLength length => s!"unexpected WIF payload length {length}"
  | .foreignVersion version chain =>
    s!"WIF version byte {byteText version} does not belong to {chain.label}"
  | .outOfRange => "malformed or out-of-range secret key"

/-- Why a public key is refused. -/
inductive PublicKeyFault where
  | hex (fault : Hex.Fault)
  | badLength (length : Nat)
  | mark (byte : UInt8)
  | notAPoint
  | pushTooLong (length : Nat)
  deriving Repr, DecidableEq

/-- The wording of a public-key fault. -/
def PublicKeyFault.message : PublicKeyFault → String
  | .hex fault => fault.message
  | .badLength length => s!"slice length should be 33 or 65 bytes, got: {length}"
  | .mark byte => s!"key prefix invalid: {byte.toNat}"
  | .notAPoint => "secp256k1"
  | .pushTooLong length => pushTooLongMessage length

/-- Why a byte string is no transaction. -/
inductive DecodeFault where
  | hex (fault : Hex.Fault)
  | endOfData
  | longCount
  | unknownFlag (flag : UInt8)
  | emptyWitnesses
  | trailingData
  | oversized (requested : Nat)
  deriving Repr, DecidableEq

/-- The most bytes that the items of one witness may take. -/
def maxWitnessBytes : Nat :=
  4000000

/-- The wording of a decoding fault. -/
def DecodeFault.message : DecodeFault → String
  | .hex fault => fault.message
  | .endOfData => "IO error"
  | .longCount => "non-minimal varint"
  | .unknownFlag flag => s!"unsupported segwit version: {flag.toNat}"
  | .emptyWitnesses => "parse failed: witness flag set but no witnesses present"
  | .trailingData => "parse failed: data not consumed entirely when explicitly deserializing"
  | .oversized requested =>
    s!"allocation of oversized vector: requested {requested}, maximum {maxWitnessBytes}"

/-- Why an input cannot be signed, or a signature not used. -/
inductive SigningFault where
  | noPreviousOutput (input : Nat)
  | inputOutOfRange (input : Nat)
  | noLegacySpend
  | noSegwitInput
  | previousOutputCount
  | uncompressedKey
  | hex (fault : Hex.Fault)
  | malformedSignature
  | badDigest (text : String)
  | pushTooLong (length : Nat)
  deriving Repr, DecidableEq

/-- The wording of a signing fault. -/
def SigningFault.message : SigningFault → String
  | .noPreviousOutput input => s!"no previous output for input {input}"
  | .inputOutOfRange input => s!"input {input} out of range"
  | .noLegacySpend => "invalid input index"
  | .noSegwitInput => "error encoding segwit v0 signing data"
  | .previousOutputCount => "prevouts size"
  | .uncompressedKey => "segwit public keys must always be compressed"
  | .hex fault => fault.message
  | .malformedSignature => "malformed signature"
  | .badDigest text => s!"bad digest {text}"
  | .pushTooLong length => pushTooLongMessage length

/-- Why an inscription cannot be made. -/
inductive InscriptionFault where
  | pushTooLong (length : Nat)
  | tooMany (index : Nat)
  | missingOutput (index : Nat)
  deriving Repr, DecidableEq

/-- The wording of an inscription fault. -/
def InscriptionFault.message : InscriptionFault → String
  | .pushTooLong length => pushTooLongMessage length
  | .tooMany index => s!"too many inscriptions: {index}"
  | .missingOutput index => s!"commit output {index} is missing"

/-- A failure to make a transaction. -/
inductive TxError where
  | address (text : String) (fault : AddressFault)
  | scriptDecode (fault : ScriptFault)
  | missingPrevOut (outpoint : OutPoint) (input : Nat)
  | unknownPrevOut (outpoint : OutPoint) (input : Nat)
  | keyCountMismatch (keys inputs : Nat)
  | signatureCountMismatch (signatures inputs : Nat)
  | emptyInputsOrOutputs
  | insufficientBalance (available required requiredFee : Amount)
  | standardnessViolation (index weight max : Nat)
  | signing (fault : SigningFault)
  | unsupportedScriptType (input : Nat) (script : Script)
  | invalidPrivateKey (fault : PrivateKeyFault)
  | invalidPublicKey (fault : PublicKeyFault)
  | invalidTransaction (fault : DecodeFault)
  | invalidInscription (fault : InscriptionFault)
  | unknownNetwork (name : String)
  | amountOverflow
  deriving DecidableEq

namespace TxError

/-- The wording of a failure. -/
def message : TxError → String
  | .address text fault => s!"Invalid address {text}: {fault.message}"
  | .scriptDecode fault => s!"Script decode error: {fault.message}"
  | .missingPrevOut outpoint input =>
    s!"Output {outpoint.text} referenced by input {input} is missing from the view"
  | .unknownPrevOut outpoint input =>
    s!"Output {outpoint.text} referenced by input {input} is unknown to the lookup"
  | .keyCountMismatch keys inputs => s!"Got {keys} keys for {inputs} inputs"
  | .signatureCountMismatch signatures inputs => s!"Got {signatures} signatures for {inputs} inputs"
  | .emptyInputsOrOutputs => "Transaction needs at least one input and one output"
  | .insufficientBalance available required requiredFee =>
    s!"Insufficient balance: available {Amount.text available}, " ++
      s!"required {Amount.text required} (fee {Amount.text requiredFee})"
  | .standardnessViolation index weight max =>
    s!"Reveal transaction {index} weight {weight} is greater than {max} (MAX_STANDARD_TX_WEIGHT)"
  | .signing fault => s!"Signing error: {fault.message}"
  | .unsupportedScriptType input script =>
    s!"Unsupported script type for input {input}: {Hex.encode script}"
  | .invalidPrivateKey fault => s!"Invalid private key: {fault.message}"
  | .invalidPublicKey fault => s!"Invalid public key: {fault.message}"
  | .invalidTransaction fault => s!"Invalid transaction: {fault.message}"
  | .invalidInscription fault => s!"Invalid inscription: {fault.message}"
  | .unknownNetwork name => s!"Unknown network: {name}"
  | .amountOverflow => "Amount overflow"

end TxError

namespace Amount

/-- The amount of this many units, which has to fit. -/
def checked (n : Nat) : Except TxError Amount :=
  match ofNat? n with
  | some a => .ok a
  | none => .error .amountOverflow

theorem checked_eq_ok_iff {n : Nat} {a : Amount} : checked n = .ok a ↔ a.toNat = n := by
  constructor
  · intro h
    unfold checked at h
    split at h
    · rename_i b hb
      cases h
      exact toNat_of_ofNat? hb
    · simp at h
  · rintro rfl
    rw [checked, ofNat?, dif_pos a.toNat_lt]
    simp

theorem checked_eq_error_iff {n : Nat} {e : TxError} :
    checked n = .error e ↔ UInt64.size ≤ n ∧ e = .amountOverflow := by
  rw [← ofNat?_eq_none_iff, checked]
  split
  · rename_i h
    simp [h]
  · rename_i h
    simp [h, eq_comm]

/-- A number that fits is an amount. -/
theorem exists_checked {n : Nat} (h : n < UInt64.size) : ∃ a, checked n = .ok a ∧ a.toNat = n :=
  ⟨.ofNatLT n h, checked_eq_ok_iff.mpr UInt64.toNat_ofNatLT, UInt64.toNat_ofNatLT⟩

/-- The sum of a list of amounts, which has to fit. -/
def checkedTotal (amounts : List Amount) : Except TxError Amount :=
  checked (total amounts)

/-- The sum of a list of amounts is checked by its exact value. -/
theorem checkedTotal_eq_ok_iff {amounts : List Amount} {sum : Amount} :
    checkedTotal amounts = .ok sum ↔ sum.toNat = total amounts :=
  checked_eq_ok_iff

end Amount

end CoinSpend
