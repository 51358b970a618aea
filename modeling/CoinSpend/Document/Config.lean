import CoinSpend.Config
import CoinSpend.Json.Record

/-!
Chains and settings in documents.

* A chain is its name, or an object with its name and nothing in it.
* Settings are a record in which everything may be left out of an object.
-/

namespace CoinSpend

open JsonForm (toJson ofJson?)

/-- The chain with this name in documents. -/
def Chain.ofKey? (key : String) : Option Chain :=
  all.find? fun chain => chain.key = key

instance : JsonForm Chain where
  toJson chain := Json.ofText chain.key
  ofJson?
    | .str literal => (Json.literalText? literal).bind Chain.ofKey?
    | .obj [(name, .null)] => (Json.literalText? name).bind Chain.ofKey?
    | _ => none

namespace Config

/-- The fields of settings. -/
def spec : List (String × Presence) :=
  [("network", .defaulted), ("tx_version", .optional), ("dust_floor", .optional),
   ("reveal_out_value", .optional), ("min_change_value", .optional)]

/-- Settings from the values of their fields. -/
def ofValues? : List (Option Json) → Option Config
  | [network, txVersion, dustFloor, revealOutValue, minChangeValue] => do
    let network ← Json.withDefault? defaultNetwork network
    let txVersion ← Json.withDefault? none txVersion
    let dustFloor ← Json.withDefault? none dustFloor
    let revealOutValue ← Json.withDefault? none revealOutValue
    let minChangeValue ← Json.withDefault? none minChangeValue
    return ⟨network, txVersion, dustFloor, revealOutValue, minChangeValue⟩
  | _ => none

instance : JsonForm Config where
  toJson config := Json.ofFields
    [("network", toJson config.network), ("tx_version", toJson config.txVersion),
     ("dust_floor", toJson config.dustFloor), ("reveal_out_value", toJson config.revealOutValue),
     ("min_change_value", toJson config.minChangeValue)]
  ofJson? json := (Json.record? spec json).bind ofValues?

end Config

end CoinSpend
