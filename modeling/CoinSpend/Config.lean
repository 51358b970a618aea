import CoinSpend.Error

/-!
Settings of the program.

* `Config`: the name of a chain and what may be set beside it; `Config.version`,
  `Config.dust`, `Config.revealValue` and `Config.minChange` are the values in
  force.
* `ChainParams.ofName` and `Config.params`: the parameters of a chain by name.
-/

namespace CoinSpend

/-- The dust floor, the value of reveal outputs and the least change where
nothing else is set. -/
def defaultValue : Amount :=
  546

/-- The transaction version where nothing else is set. -/
def defaultVersion : Int32 :=
  2

/-- The parameters of the chain with this name. -/
def ChainParams.ofName (name : String) : Except TxError ChainParams :=
  match Chain.ofName? name with
  | some chain => .ok chain.params
  | none => .error (.unknownNetwork name.toLower)

/-- An amount, unless it is zero. -/
def nonzero? : Option Amount → Option Amount
  | some a => if a = 0 then none else some a
  | none => none

/-- Settings. -/
structure Config where
  network : String
  txVersion : Option Int32
  dustFloor : Option Amount
  revealOutValue : Option Amount
  minChangeValue : Option Amount
  deriving DecidableEq

namespace Config

/-- The chain where none is named. -/
def defaultNetwork : String :=
  "regtest"

/-- Settings that name everything. -/
def complete : Config where
  network := defaultNetwork
  txVersion := some defaultVersion
  dustFloor := some defaultValue
  revealOutValue := some defaultValue
  minChangeValue := some defaultValue

/-- The version of transactions. -/
def version (config : Config) : Int32 :=
  config.txVersion.getD defaultVersion

/-- The amount below which change is left out. Zero is kept. -/
def dust (config : Config) : Amount :=
  config.dustFloor.getD defaultValue

/-- The value of reveal outputs. Zero counts as not set. -/
def revealValue (config : Config) : Amount :=
  (nonzero? config.revealOutValue).getD defaultValue

/-- The least change. Zero counts as not set. -/
def minChange (config : Config) : Amount :=
  (nonzero? config.minChangeValue).getD defaultValue

/-- The parameters of the chain. -/
def params (config : Config) : Except TxError ChainParams :=
  ChainParams.ofName config.network

end Config

end CoinSpend
