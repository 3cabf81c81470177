import Foundry.Archive.Checksum
import Foundry.Archive.Inflate
import Foundry.Number.Power
import Foundry.Text.Quoted

/-! Compressed files in the gzip format: a row of members, each with a header, a deflate stream,
and its checksum and length. -/
namespace Foundry

/-- How a compressed file ends behind the data that it gives. -/
inductive StreamEnd where
  | complete
  /-- The file ends too early. -/
  | cut
  /-- The compressed data are not well formed. -/
  | corrupt
  /-- What stands there does not belong there. -/
  | damaged (reason : String)
deriving DecidableEq, Repr

/-- The data of a compressed file, and what comes of reading on behind them. -/
structure DataStream where
  data : Bytes
  ending : StreamEnd
deriving DecidableEq, Repr

namespace Gzip

/-- The two bytes with which a member starts. -/
def magic : Bytes := [0x1F, 0x8B]

/-- Skip bytes up to a zero and the zero itself. -/
def skipText (bytes : Bytes) : Bytes := (bytes.dropWhile (· ≠ 0)).drop 1

def hasFlag (flags : UInt8) (bit : Nat) : Bool := flags.toNat.testBit bit

def skip (count : Nat) (bytes : Bytes) : Except StreamEnd Bytes :=
  match Bytes.split? count bytes with
  | some (_, rest) => .ok rest
  | none => .error .cut

/-- Skip the header of a member. No bytes at all are a complete end. -/
def skipHeader (bytes : Bytes) : Except StreamEnd Bytes := do
  let found := bytes.take 2
  if found.isEmpty then throw .complete
  if found ≠ magic then throw (.damaged s!"Not a gzipped file ({Text.quotedBytes found})")
  let (fields, rest) ← match Bytes.split? 8 (bytes.drop 2) with
    | some split => pure split
    | none => throw .cut
  let method := fields.getD 0 0
  let flags := fields.getD 1 0
  if method ≠ 8 then throw (.damaged "Unknown compression method")
  let rest ←
    if hasFlag flags 2 then
      match Bytes.split? 2 rest with
      | some (size, rest) => skip (Bytes.natLE size) rest
      | none => throw .cut
    else pure rest
  let rest := if hasFlag flags 3 then skipText rest else rest
  let rest := if hasFlag flags 4 then skipText rest else rest
  if hasFlag flags 1 then skip 2 rest else pure rest

def hex (n : Nat) : String := "0x" ++ String.ofList (Nat.toDigits 16 n)

/-- Check the checksum and the length behind the data of a member, and skip zeros after them. -/
def checkTrailer (data rest : Bytes) : Except StreamEnd Bytes := do
  let (fields, rest) ← match Bytes.split? 8 rest with
    | some split => pure split
    | none => throw .cut
  let given := Bytes.natLE (fields.take 4)
  let found := (Checksum.crc32 data).toNat
  if given ≠ found then throw (.damaged s!"CRC check failed {hex given} != {hex found}")
  if Bytes.natLE (fields.drop 4) ≠ data.length % twoTo 32 then
    throw (.damaged "Incorrect length of data produced")
  pure (rest.dropWhile (· = 0))

/-- How many bytes are decompressed at a time; of corrupt data only whole such pieces are given. -/
def pieceSize : Nat := 8192

/-- Read members, at most as many as given; the data of the earlier ones are `done`. -/
def readMembers (done : Bytes) : Nat → Bytes → DataStream
  | 0, _ => ⟨done, .cut⟩
  | fuel + 1, bytes =>
    match skipHeader bytes with
    | .error ending => ⟨done, ending⟩
    | .ok body =>
      match Inflate.inflate body with
      | (data, .error .cut) => ⟨done ++ data, .cut⟩
      | (data, .error .corrupt) =>
        ⟨done ++ data.take (data.length / pieceSize * pieceSize), .corrupt⟩
      | (data, .ok rest) =>
        match checkTrailer data rest with
        | .error ending => ⟨done ++ data, ending⟩
        | .ok rest => readMembers (done ++ data) fuel rest

def read (bytes : Bytes) : DataStream := readMembers [] (bytes.length + 1) bytes

/-- The most bytes that a stored block holds, less one. -/
def blockLimit : Nat := 65534

def storedBlock (isLast : Bool) (content : Bytes) : Bytes :=
  (if isLast then 1 else 0) :: (Bytes.littleEndian 2 content.length ++
    Bytes.littleEndian 2 (0xFFFF - content.length) ++ content)

/-- Stored blocks with these contents, ended by an empty one. -/
def storedBlocks : List Bytes → Bytes
  | [] => storedBlock true []
  | content :: rest => storedBlock false content ++ storedBlocks rest

/-- The header of a member without a name and without a date. -/
def header : Bytes := magic ++ [8, 0, 0, 0, 0, 0, 0, 0xFF]

/-- A compressed file with these data, in stored blocks. -/
def write (data : Bytes) : Bytes :=
  header ++ storedBlocks (Bytes.chunks blockLimit data) ++
    (Bytes.littleEndian 4 (Checksum.crc32 data).toNat ++ Bytes.littleEndian 4 data.length)

end Gzip

end Foundry
