import Foundry.Document.Value
import Foundry.Text.Utf8

/-! Writing values in the MessagePack format, each number and length in the fewest bytes that hold
it, and the entries of a table in their order. -/
namespace Foundry

inductive PackError where
  /-- The format has no such values. -/
  | unpackable
  /-- An integer does not fit into 64 bits. -/
  | integerTooLarge
  /-- A value is nested too deeply, or it has more parts than the format can count. -/
  | nestedTooDeep
deriving DecidableEq, Repr

namespace MessagePack

def marked (mark : UInt8) (width n : Nat) : Bytes := mark :: Bytes.bigEndian width n

def packInt (n : Int) : Except PackError Bytes :=
  if 0 ≤ n then
    let m := n.toNat
    if m < 0x80 then pure [UInt8.ofNat m]
    else if m < 0x100 then pure (marked 0xCC 1 m)
    else if m < 0x10000 then pure (marked 0xCD 2 m)
    else if m < 0x100000000 then pure (marked 0xCE 4 m)
    else if m < 0x10000000000000000 then pure (marked 0xCF 8 m)
    else throw .integerTooLarge
  else if -0x20 ≤ n then pure (Bytes.ofIntBE 1 n)
  else if -0x80 ≤ n then pure (0xD0 :: Bytes.ofIntBE 1 n)
  else if -0x8000 ≤ n then pure (0xD1 :: Bytes.ofIntBE 2 n)
  else if -0x80000000 ≤ n then pure (0xD2 :: Bytes.ofIntBE 4 n)
  else if -0x8000000000000000 ≤ n then pure (0xD3 :: Bytes.ofIntBE 8 n)
  else throw .integerTooLarge

def textHead (size : Nat) : Except PackError Bytes :=
  if size < 32 then pure [UInt8.ofNat (0xA0 + size)]
  else if size < 0x100 then pure (marked 0xD9 1 size)
  else if size < 0x10000 then pure (marked 0xDA 2 size)
  else if size < 0x100000000 then pure (marked 0xDB 4 size)
  else throw .nestedTooDeep

def packText (text : String) : Except PackError Bytes := do
  let bytes := Utf8.encode text
  return (← textHead bytes.length) ++ bytes

def bytesHead (size : Nat) : Except PackError Bytes :=
  if size < 0x100 then pure (marked 0xC4 1 size)
  else if size < 0x10000 then pure (marked 0xC5 2 size)
  else if size < 0x100000000 then pure (marked 0xC6 4 size)
  else throw .nestedTooDeep

def packBytes (bytes : Bytes) : Except PackError Bytes := do
  return (← bytesHead bytes.length) ++ bytes

def packExtension (code : Int) (data : Bytes) : Bytes :=
  let size := data.length
  (match size with
    | 1 => [0xD4]
    | 2 => [0xD5]
    | 4 => [0xD6]
    | 8 => [0xD7]
    | 16 => [0xD8]
    | _ =>
      if size < 0x100 then marked 0xC7 1 size
      else if size < 0x10000 then marked 0xC8 2 size
      else marked 0xC9 4 size) ++
    Bytes.ofIntBE 1 code ++ data

/-- A time stamp, in the shortest of its three forms. -/
def packTimestamp (seconds : Int) (nanoseconds : Nat) : Bytes :=
  packExtension (-1) <|
    if 0 ≤ seconds ∧ seconds < 0x400000000 then
      let n := nanoseconds * 0x400000000 + seconds.toNat
      if n < 0x100000000 then Bytes.bigEndian 4 n else Bytes.bigEndian 8 n
    else Bytes.bigEndian 4 nanoseconds ++ Bytes.ofIntBE 8 seconds

def arrayHead (count : Nat) : Except PackError Bytes :=
  if count < 16 then pure [UInt8.ofNat (0x90 + count)]
  else if count < 0x10000 then pure (marked 0xDC 2 count)
  else if count < 0x100000000 then pure (marked 0xDD 4 count)
  else throw .nestedTooDeep

def tableHead (count : Nat) : Except PackError Bytes :=
  if count < 16 then pure [UInt8.ofNat (0x80 + count)]
  else if count < 0x10000 then pure (marked 0xDE 2 count)
  else if count < 0x100000000 then pure (marked 0xDF 4 count)
  else throw .nestedTooDeep

/-- Go one level down, of which `room` are left. -/
def descend (room : Nat) : Except PackError Nat :=
  match room with
  | 0 => throw .nestedTooDeep
  | room + 1 => pure room

mutual

/-- Pack a value in which values may be nested `room` levels deep. -/
def packValue (room : Nat) : Value → Except PackError Bytes
  | .null => pure [0xC0]
  | .bool b => pure [if b then 0xC3 else 0xC2]
  | .int n => packInt n
  | .float x => pure (marked 0xCB 8 x.bits.toNat)
  | .text s => packText s
  | .bytes b => packBytes b
  | .moment _ => throw .unpackable
  | .timestamp seconds nanoseconds => pure (packTimestamp seconds nanoseconds)
  | .extension code data => pure (packExtension code data)
  | .array items => do return (← arrayHead items.length) ++ (← packItems room items)
  | .table entries => do return (← tableHead entries.length) ++ (← packEntries room entries)
  | .mapping entries => do return (← tableHead entries.length) ++ (← packPairs room entries)

def packItems (room : Nat) : List Value → Except PackError Bytes
  | [] => pure []
  | item :: rest => do
    let first ← packValue (← descend room) item
    return first ++ (← packItems room rest)

def packEntries (room : Nat) : List (String × Value) → Except PackError Bytes
  | [] => pure []
  | (key, value) :: rest => do
    let below ← descend room
    let name ← packText key
    let first ← packValue below value
    return name ++ first ++ (← packEntries room rest)

def packPairs (room : Nat) : List (Value × Value) → Except PackError Bytes
  | [] => pure []
  | (key, value) :: rest => do
    let below ← descend room
    let first ← packValue below key
    let second ← packValue below value
    return first ++ second ++ (← packPairs room rest)

end

/-- How many levels deep values may be nested in a packed value. -/
def writeDepth : Nat := 511

def pack (value : Value) : Except PackError Bytes := packValue writeDepth value

end MessagePack

end Foundry
