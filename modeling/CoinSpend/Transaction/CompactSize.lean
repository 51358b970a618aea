import CoinSpend.Bytes
import CoinSpend.Error

/-!
The variable-width numbers that stand in front of lists and byte strings.

* `CompactSize.encode`: one byte below 253, else a marker and two, four or
  eight bytes; `CompactSize.size` tells the width, and `length_encode` that it
  does.
* `Reader`: takes a value off the front of a byte string and leaves the rest.
  `CompactSize.read` refuses a number in a wider form than it needs.
-/

namespace CoinSpend

namespace CompactSize

/-- The written form of a number below `2 ^ 64`. -/
def encode (n : Nat) : Bytes :=
  if n < 253 then [UInt8.ofNat n]
  else if n < 0x10000 then 0xfd :: Bytes.ofNatLE 2 n
  else if n < 0x100000000 then 0xfe :: Bytes.ofNatLE 4 n
  else 0xff :: Bytes.ofNatLE 8 n

/-- The number of bytes of the written form. -/
def size (n : Nat) : Nat :=
  if n < 253 then 1 else if n < 0x10000 then 3 else if n < 0x100000000 then 5 else 9

@[simp] theorem length_encode (n : Nat) : (encode n).length = size n := by
  unfold encode size
  split
  · rfl
  · split
    · simp
    · split <;> simp

end CompactSize

/-- Takes a value off the front of a byte string and leaves the rest. -/
abbrev Reader := StateT Bytes (Except DecodeFault)

namespace Reader

/-- The next `n` bytes. -/
def bytes (n : Nat) : Reader Bytes := fun b =>
  if (b.take n).length = n then .ok (b.take n, b.drop n) else .error .endOfData

/-- The number in the next `n` bytes, the least significant one first. -/
def nat (n : Nat) : Reader Nat := do
  let field ← bytes n
  return Bytes.toNatLE field

/-- The next `n` values. -/
def times {α : Type} (read : Reader α) : Nat → Reader (List α)
  | 0 => pure []
  | n + 1 => do
    let a ← read
    let rest ← times read n
    return a :: rest

end Reader

namespace CompactSize

/-- A number of `width` bytes that is at least `least`. -/
def readWide (width least : Nat) : Reader Nat := do
  let n ← Reader.nat width
  if n < least then throw .longCount else return n

/-- The next number, which has to be in its shortest form. -/
def read : Reader Nat := do
  let head ← Reader.nat 1
  if head < 253 then return head
  else if head = 253 then readWide 2 253
  else if head = 254 then readWide 4 0x10000
  else readWide 8 0x100000000

end CompactSize

namespace Reader

/-- A list with its length in front. -/
def list {α : Type} (read : Reader α) : Reader (List α) := do
  let n ← CompactSize.read
  times read n

/-- A byte string with its length in front. -/
def sized : Reader Bytes := do
  let n ← CompactSize.read
  bytes n

end Reader

end CoinSpend
