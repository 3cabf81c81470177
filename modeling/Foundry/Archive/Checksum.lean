import Foundry.Bytes

/-! The cyclic checksum of 32 bits that compressed files carry. -/
namespace Foundry.Checksum

/-- The reversed generator polynomial. -/
def polynomial : UInt32 := 0xEDB88320

def shift (register : UInt32) : UInt32 :=
  if register &&& 1 = 1 then polynomial ^^^ (register >>> 1) else register >>> 1

def step (register : UInt32) (byte : UInt8) : UInt32 :=
  shift <| shift <| shift <| shift <| shift <| shift <| shift <| shift <|
    register ^^^ byte.toUInt32

def crc32 (bytes : Bytes) : UInt32 := bytes.foldl step 0xFFFFFFFF ^^^ 0xFFFFFFFF

end Foundry.Checksum
