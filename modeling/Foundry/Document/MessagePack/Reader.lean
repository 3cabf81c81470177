import Foundry.Document.Value
import Foundry.Text.Utf8

/-! Reading values in the MessagePack format.

A reader takes the bytes from which it is to read and gives what it read with the rest. The keys of
a table are texts or byte strings; a key that comes twice keeps its first place and its last
value. -/
namespace Foundry.MessagePack

/-- What a reader found, with the bytes after it. -/
abbrev Found (α : Type) := α × Bytes

def readNat (width : Nat) (bytes : Bytes) : Option (Found Nat) :=
  (Bytes.split? width bytes).map fun (first, rest) => (Bytes.natBE first, rest)

/-- Read an integer of `width` bytes in two's complement. -/
def readInt (width : Nat) (bytes : Bytes) : Option (Found Int) :=
  (Bytes.split? width bytes).map fun (first, rest) => (Bytes.intBE first, rest)

def readText (size : Nat) (bytes : Bytes) : Option (Found Value) := do
  let (first, rest) ← Bytes.split? size bytes
  let text ← Utf8.decode? first
  some (.text text, rest)

def readBytes (size : Nat) (bytes : Bytes) : Option (Found Value) :=
  (Bytes.split? size bytes).map fun (first, rest) => (.bytes first, rest)

/-- The time stamp that an extension holds: seconds alone, or with nanoseconds. -/
def timestamp (data : Bytes) : Option Value :=
  let stamp (seconds : Int) (nanoseconds : Nat) : Option Value :=
    if nanoseconds < 1000000000 then some (.timestamp seconds nanoseconds) else none
  match data.length with
  | 4 => stamp (Bytes.natBE data) 0
  | 8 =>
    let n := Bytes.natBE data
    stamp (n % 0x400000000 : Nat) (n / 0x400000000)
  | 12 => stamp (Bytes.intBE (data.drop 4)) (Bytes.natBE (data.take 4))
  | _ => none

/-- Read an extension with `size` bytes of data. Of the codes below zero only that of time stamps is
in use. -/
def readExtension (size : Nat) (bytes : Bytes) : Option (Found Value) := do
  let (code, rest) ← readInt 1 bytes
  let (data, rest) ← Bytes.split? size rest
  let value ←
    if code = -1 then timestamp data else if 0 ≤ code then some (.extension code data) else none
  some (value, rest)

/-- Whether a value may be the key of an entry. -/
def isKey : Value → Bool
  | .text _ | .bytes _ => true
  | _ => false

def sameKey : Value → Value → Bool
  | .text a, .text b => a = b
  | .bytes a, .bytes b => a = b
  | _, _ => false

def setKey (key value : Value) : List (Value × Value) → List (Value × Value)
  | [] => [(key, value)]
  | entry :: rest =>
    if sameKey entry.1 key then (entry.1, value) :: rest else entry :: setKey key value rest

def tableOf (entries : List (Value × Value)) : Value :=
  let named : Option Table := entries.mapM fun (key, value) =>
    match key with
    | .text name => some (name, value)
    | _ => none
  match named with
  | some entries => .table entries
  | none => .mapping entries

inductive Head where
  | value (v : Value)
  | text (size : Nat)
  | bytes (size : Nat)
  | extension (size : Nat)
  | array (count : Nat)
  | table (count : Nat)
deriving Repr

/-- Read the head of a value: its first byte, and the number that may follow it. -/
def readHead : Bytes → Option (Found Head)
  | [] => none
  | byte :: rest =>
    let n := byte.toNat
    let sized (make : Nat → Head) (width : Nat) : Option (Found Head) :=
      (readNat width rest).map fun (size, rest) => (make size, rest)
    let unsigned := sized fun m => .value (.int m)
    let signed (width : Nat) : Option (Found Head) :=
      (readInt width rest).map fun (m, rest) => (.value (.int m), rest)
    if n < 0x80 then some (.value (.int n), rest)
    else if n < 0x90 then some (.table (n - 0x80), rest)
    else if n < 0xA0 then some (.array (n - 0x90), rest)
    else if n < 0xC0 then some (.text (n - 0xA0), rest)
    else if 0xE0 ≤ n then some (.value (.int (n - 0x100)), rest)
    else match byte with
      | 0xC0 => some (.value .null, rest)
      | 0xC2 => some (.value (.bool false), rest)
      | 0xC3 => some (.value (.bool true), rest)
      | 0xC4 => sized .bytes 1
      | 0xC5 => sized .bytes 2
      | 0xC6 => sized .bytes 4
      | 0xC7 => sized .extension 1
      | 0xC8 => sized .extension 2
      | 0xC9 => sized .extension 4
      | 0xCA => sized (fun bits => .value (.float (.ofBinary32 bits))) 4
      | 0xCB => sized (fun bits => .value (.float ⟨UInt64.ofNat bits⟩)) 8
      | 0xCC => unsigned 1
      | 0xCD => unsigned 2
      | 0xCE => unsigned 4
      | 0xCF => unsigned 8
      | 0xD0 => signed 1
      | 0xD1 => signed 2
      | 0xD2 => signed 4
      | 0xD3 => signed 8
      | 0xD4 => some (.extension 1, rest)
      | 0xD5 => some (.extension 2, rest)
      | 0xD6 => some (.extension 4, rest)
      | 0xD7 => some (.extension 8, rest)
      | 0xD8 => some (.extension 16, rest)
      | 0xD9 => sized .text 1
      | 0xDA => sized .text 2
      | 0xDB => sized .text 4
      | 0xDC => sized .array 2
      | 0xDD => sized .array 4
      | 0xDE => sized .table 2
      | 0xDF => sized .table 4
      | _ => none

mutual

/-- Read a value with at most `fuel` steps; containers that hold something may be nested `room`
levels deep. -/
def readValue (room : Nat) : Nat → Bytes → Option (Found Value)
  | 0, _ => none
  | fuel + 1, bytes =>
    match readHead bytes with
    | none => none
    | some (.value v, rest) => some (v, rest)
    | some (.text size, rest) => readText size rest
    | some (.bytes size, rest) => readBytes size rest
    | some (.extension size, rest) => readExtension size rest
    | some (.array 0, rest) => some (.array [], rest)
    | some (.table 0, rest) => some (.table [], rest)
    | some (.array (count + 1), rest) =>
      if room = 0 then none else readItems (room - 1) [] (count + 1) fuel rest
    | some (.table (count + 1), rest) =>
      if room = 0 then none else readEntries (room - 1) [] (count + 1) fuel rest

def readItems (room : Nat) (done : List Value) (missing fuel : Nat) (bytes : Bytes) :
    Option (Found Value) :=
  match fuel with
  | 0 => none
  | fuel + 1 =>
    if missing = 0 then some (.array done.reverse, bytes)
    else match readValue room fuel bytes with
      | none => none
      | some (item, rest) => readItems room (item :: done) (missing - 1) fuel rest

def readEntries (room : Nat) (done : List (Value × Value)) (missing fuel : Nat) (bytes : Bytes) :
    Option (Found Value) :=
  match fuel with
  | 0 => none
  | fuel + 1 =>
    if missing = 0 then some (tableOf done, bytes)
    else match readValue room fuel bytes with
      | none => none
      | some (key, rest) =>
        if !isKey key then none
        else match readValue room fuel rest with
          | none => none
          | some (value, rest) => readEntries room (setKey key value done) (missing - 1) fuel rest

end

/-- How many levels deep containers may be nested when they are read. -/
def readDepth : Nat := 1024

/-- The one value that bytes hold. -/
def unpack? (bytes : Bytes) : Option Value :=
  match readValue readDepth (2 * bytes.length + 2) bytes with
  | some (value, []) => some value
  | _ => none

end Foundry.MessagePack
