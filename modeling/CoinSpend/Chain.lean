import CoinSpend.Bytes

/-!
The chains that transactions are made for, and their fixed parameters.

* `Chain`: the six chains, with the names they are read from (`Chain.ofName?`),
  shown by (`Chain.label`) and written as in documents (`Chain.key`).
* `Chain.params`: the version bytes of keys and addresses, the extended-key
  versions, the coin type, and the prefix of witness addresses where the
  chain has any.
-/

namespace CoinSpend

/-- A chain. -/
inductive Chain where
  | bitcoin
  | bitcoinTestnet
  | bitcoinRegtest
  | litecoin
  | dogecoin
  | ravencoin
  deriving Repr, DecidableEq

/-- Whether keys belong to a main or to a test chain. -/
inductive NetworkKind where
  | main
  | test
  deriving Repr, DecidableEq

/-- The fixed parameters of one chain. -/
structure ChainParams where
  chain : Chain
  keyHashVersion : UInt8
  scriptHashVersion : UInt8
  privateKeyVersion : UInt8
  extendedPrivateVersion : Bytes
  extendedPublicVersion : Bytes
  coinType : Nat
  /-- The human-readable part of witness addresses, if the chain has them. -/
  hrp : Option String
  deriving DecidableEq

namespace Chain

/-- Every chain once. -/
def all : List Chain :=
  [bitcoin, bitcoinTestnet, bitcoinRegtest, litecoin, dogecoin, ravencoin]

/-- The chain named by a text in lower case. -/
def ofLowerName? : String → Option Chain
  | "bitcoin" | "btc" | "mainnet" => some bitcoin
  | "testnet" | "btc_testnet" | "bitcoin_testnet" => some bitcoinTestnet
  | "regtest" | "btc_regtest" | "bitcoin_regtest" => some bitcoinRegtest
  | "litecoin" | "ltc" => some litecoin
  | "dogecoin" | "doge" => some dogecoin
  | "ravencoin" | "rvn" => some ravencoin
  | _ => none

/-- The chain named by a text, in which ASCII case does not matter. -/
def ofName? (name : String) : Option Chain :=
  ofLowerName? name.toLower

/-- The name of a chain in messages. -/
def label : Chain → String
  | bitcoin => "bitcoin"
  | bitcoinTestnet => "testnet"
  | bitcoinRegtest => "regtest"
  | litecoin => "litecoin"
  | dogecoin => "dogecoin"
  | ravencoin => "ravencoin"

/-- The name of a chain in documents. -/
def key : Chain → String
  | bitcoin => "bitcoin"
  | bitcoinTestnet => "bitcoin_testnet"
  | bitcoinRegtest => "bitcoin_regtest"
  | litecoin => "litecoin"
  | dogecoin => "dogecoin"
  | ravencoin => "ravencoin"

/-- A chain whose coins have value. -/
def isMain : Chain → Bool
  | bitcoinTestnet | bitcoinRegtest => false
  | _ => true

/-- The parameters of a chain. -/
def params : Chain → ChainParams
  | bitcoin =>
    ⟨bitcoin, 0x00, 0x05, 0x80, [0x04, 0x88, 0xad, 0xe4], [0x04, 0x88, 0xb2, 0x1e], 0, some "bc"⟩
  | bitcoinTestnet =>
    ⟨bitcoinTestnet, 0x6f, 0xc4, 0xef, [0x04, 0x35, 0x83, 0x94], [0x04, 0x35, 0x87, 0xcf], 1,
      some "tb"⟩
  | bitcoinRegtest =>
    ⟨bitcoinRegtest, 0x6f, 0xc4, 0xef, [0x04, 0x35, 0x83, 0x94], [0x04, 0x35, 0x87, 0xcf], 1,
      some "bcrt"⟩
  | litecoin =>
    ⟨litecoin, 0x30, 0x32, 0xb0, [0x04, 0x88, 0xad, 0xe4], [0x04, 0x88, 0xb2, 0x1e], 2,
      some "ltc"⟩
  | dogecoin =>
    ⟨dogecoin, 0x1e, 0x16, 0x9e, [0x02, 0xfa, 0xc3, 0x98], [0x02, 0xfa, 0xca, 0xfd], 3, none⟩
  | ravencoin =>
    ⟨ravencoin, 0x3c, 0x7a, 0x80, [0x04, 0x88, 0xad, 0xe4], [0x04, 0x88, 0xb2, 0x1e], 175,
      some "rc"⟩

end Chain

/-- The kind of network that keys of the chain are marked with. -/
def ChainParams.networkKind (params : ChainParams) : NetworkKind :=
  if params.chain.isMain then .main else .test

end CoinSpend
