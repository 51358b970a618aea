import CoinSpend.Address.Basic
import CoinSpend.Taproot

/-!
The script that carries an inscription, and the output that commits to it.

* `Inscription`: content type, body, and who receives it.
* `Envelope.script`: a check of the key, and the content in a branch that is
  never taken; the body in pieces of at most 520 bytes.
* `EnvelopeOutput.ofInscription`: the envelope with the script whose output key
  commits to it, the proof that it does, and the address of that output.
-/

namespace CoinSpend

/-- What is inscribed, and the address that receives it. -/
structure Inscription where
  contentType : String
  body : Bytes
  receiver : String
  deriving DecidableEq

namespace Envelope

/-- The most bytes that scripts may push at once. -/
def maxElementSize : Nat :=
  520

/-- The mark of the protocol, in every envelope. -/
def protocolMark : Bytes :=
  "ord".toUTF8.data.toList

/-- The mark of the field that holds the content type. -/
def contentTypeTag : Bytes :=
  [1]

/-- A byte string in `count` pieces of at most 520 bytes. -/
def pieces : Nat → Bytes → List Bytes
  | 0, _ => []
  | count + 1, body => body.take maxElementSize :: pieces count (body.drop maxElementSize)

/-- A body in pieces of 520 bytes, the last one as short as it comes. -/
def chunks (body : Bytes) : List Bytes :=
  pieces ((body.length + maxElementSize - 1) / maxElementSize) body

/-- What stands between the check of the key and the end of the branch. -/
def content (inscription : Inscription) : Script :=
  Script.push protocolMark ++ Script.push contentTypeTag ++
    Script.push inscription.contentType.toUTF8.data.toList ++ Script.push [] ++
    (chunks inscription.body).flatMap Script.push

/-- The envelope of an inscription, for the holder of a key. -/
def script (inscription : Inscription) (key : XOnlyKey) : Script :=
  Script.push key.bytes ++ [Op.checkSig] ++ Script.push [] ++ [Op.ifTrue] ++
    content inscription ++ [Op.endIf]

end Envelope

/-- An envelope and the output that commits to it. -/
structure EnvelopeOutput where
  envelope : Script
  lockScript : Script
  controlBlock : ControlBlock
  address : String

namespace EnvelopeOutput

/-- The size of the envelope. -/
def size (output : EnvelopeOutput) : Nat :=
  output.envelope.length

/-- The envelope of an inscription for the holder of a key, in an output of
its own. The chain has to have witness addresses. -/
def ofInscription (inscription : Inscription) (key : XOnlyKey) (params : ChainParams) :
    Except TxError EnvelopeOutput :=
  let typeLength := inscription.contentType.utf8ByteSize
  if Script.maxPush < typeLength then .error (.invalidInscription (.pushTooLong typeLength))
  else do
    let envelope := Envelope.script inscription key
    let output := key.commit (some (Taproot.leafHash envelope))
    let lockScript := Script.p2tr output.key.bytes
    let address ← Address.ofWitnessProgram lockScript params
    return ⟨envelope, lockScript, .single key output, address⟩

end EnvelopeOutput

end CoinSpend
