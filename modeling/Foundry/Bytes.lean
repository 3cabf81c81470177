/-! Byte strings, and the numbers of a fixed width that stand in them. -/
namespace Foundry

/-- A string of bytes, first byte first. -/
abbrev Bytes := List UInt8

namespace Bytes

/-- The number whose base-256 digits are `bytes`, most significant first. -/
def natBE (bytes : Bytes) : Nat :=
  bytes.foldl (fun value byte => value * 256 + byte.toNat) 0

/-- The number whose base-256 digits are `bytes`, least significant first. -/
def natLE (bytes : Bytes) : Nat := natBE bytes.reverse

/-- The `width` lowest base-256 digits of `n`, least significant first. -/
def littleEndian : Nat → Nat → Bytes
  | 0, _ => []
  | width + 1, n => UInt8.ofNat (n % 256) :: littleEndian width (n / 256)

/-- The `width` lowest base-256 digits of `n`, most significant first. -/
def bigEndian (width n : Nat) : Bytes := (littleEndian width n).reverse

/-- The number that `bytes` hold in two's complement, most significant byte first. -/
def intBE (bytes : Bytes) : Int :=
  let n := natBE bytes
  let limit := Nat.pow 256 bytes.length
  if 2 * n < limit then n else n - (limit : Int)

/-- `n` in two's complement in `width` bytes, most significant byte first. -/
def ofIntBE (width : Nat) (n : Int) : Bytes := bigEndian width (n % (Nat.pow 256 width : Int)).toNat

/-- The first `n` bytes and the rest, if there are that many. -/
def split? (n : Nat) (bytes : Bytes) : Option (Bytes × Bytes) :=
  let first := bytes.take n
  if first.length = n then some (first, bytes.drop n) else none

/-- Cut into pieces of `size + 1` bytes, the last one possibly shorter. -/
def chunks (size : Nat) (bytes : Bytes) : List Bytes :=
  go [] bytes.length bytes
where
  go (done : List Bytes) : Nat → Bytes → List Bytes
    | 0, _ => done.reverse
    | _ + 1, [] => done.reverse
    | fuel + 1, rest => go (rest.take (size + 1) :: done) fuel (rest.drop (size + 1))

end Bytes

end Foundry
