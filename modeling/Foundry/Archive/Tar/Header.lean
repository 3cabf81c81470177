import Foundry.Bytes
import Foundry.Text.Blank
import Foundry.Text.Utf8

/-! Header blocks of tar archives.

An archive is a row of blocks of 512 bytes. A member has a header block and then the blocks that
hold its content, the last one filled up with zeros. -/
namespace Foundry.Tar

def blockSize : Nat := 512

/-- The size of the blocks that hold `size` bytes. -/
def padded (size : Nat) : Nat := (size + (blockSize - 1)) / blockSize * blockSize

inductive Kind where
  | file
  | hardLink
  | symbolicLink
  | directory
  /-- A device or a pipe. -/
  | special
  /-- The content is the name of the next member. -/
  | longName
  /-- The content is the link target of the next member. -/
  | longLink
  /-- The content are fields of the next member. -/
  | extended
  /-- The content are fields of all later members. -/
  | global
  /-- A kind that is read as a file. -/
  | unknown
deriving DecidableEq, Repr

namespace Kind

/-- The kind that a type byte stands for. -/
def ofByte (byte : UInt8) : Kind :=
  if byte = 0x30 ∨ byte = 0 ∨ byte = 0x37 ∨ byte = 0x53 then file
  else if byte = 0x31 then hardLink
  else if byte = 0x32 then symbolicLink
  else if byte = 0x35 then directory
  else if byte = 0x33 ∨ byte = 0x34 ∨ byte = 0x36 then special
  else if byte = 0x4C then longName
  else if byte = 0x4B then longLink
  else if byte = 0x78 ∨ byte = 0x58 then extended
  else if byte = 0x67 then global
  else unknown

/-- Whether content follows the header. -/
def hasContent : Kind → Bool
  | file | unknown => true
  | _ => false

end Kind

/-- A member as its header describes it. Names are byte strings, since they need not be UTF-8. -/
structure Header where
  name : Bytes
  kind : Kind
  size : Nat
  linkName : Bytes
deriving DecidableEq, Repr

def slash : UInt8 := 0x2F

/-- The bytes without slashes at their end. -/
def dropSlashes (name : Bytes) : Bytes := (name.reverse.dropWhile (· = slash)).reverse

def field (block : Bytes) (start size : Nat) : Bytes := (block.drop start).take size

/-- A field up to its first zero. -/
def textField (block : Bytes) (start size : Nat) : Bytes :=
  (field block start size).takeWhile (· ≠ 0)

/-- The number that octal digits stand for; single underscores may stand between digits. -/
def octal (n : Nat) (afterDigit : Bool) : List Char → Option Nat
  | [] => if afterDigit then some n else none
  | c :: rest =>
    if '0' ≤ c ∧ c ≤ '7' then octal (8 * n + (c.toNat - '0'.toNat)) true rest
    else if c = '_' ∧ afterDigit then octal n false rest
    else none

/-- An octal number, perhaps with a sign and a mark of its base. -/
def readOctal (chars : List Char) : Option Int :=
  let (negative, rest) := match chars with
    | '-' :: rest => (true, rest)
    | '+' :: rest => (false, rest)
    | rest => (false, rest)
  let digits := match rest with
    | '0' :: 'o' :: '_' :: rest | '0' :: 'O' :: '_' :: rest => rest
    | '0' :: 'o' :: rest | '0' :: 'O' :: rest => rest
    | rest => rest
  (octal 0 false digits).map fun n => if negative then -(n : Int) else n

/-- The number in a field: octal digits, or base-256 digits behind a mark. -/
def numberField (bytes : Bytes) : Option Int :=
  match bytes with
  | 0x80 :: rest => some (Bytes.natBE rest)
  | 0xFF :: rest => some ((Bytes.natBE rest : Int) - (Nat.pow 256 rest.length : Int))
  | _ =>
    let text := bytes.takeWhile (· ≠ 0)
    if text.any (0x80 ≤ ·) then none
    else
      let chars := (text.map fun b => Char.ofNat b.toNat)
      let stripped := ((chars.dropWhile Text.isBlank).reverse.dropWhile Text.isBlank).reverse
      if stripped.isEmpty then some 0 else readOctal stripped

/-- The sum of a block's bytes, those of the checksum counted as blanks. -/
def checksum (block : Bytes) : Nat :=
  let sum (bytes : Bytes) : Nat := bytes.foldl (fun n b => n + b.toNat) 0
  256 + sum (block.take 148) + sum (block.drop 156)

/-- The same sum with bytes from 128 on counted as negative, as some writers do. -/
def signedChecksum (block : Bytes) : Int :=
  let high := (block.take 148 ++ block.drop 156).countP (0x80 ≤ ·)
  (checksum block : Int) - 256 * high

/-- The fields that must hold numbers, with their sizes. -/
def numberFields : List (Nat × Nat) :=
  [(100, 8), (108, 8), (116, 8), (124, 12), (136, 12), (329, 8), (337, 8)]

/-- Read a header block; nothing if it is none. -/
def readHeader (block : Bytes) : Option Header := do
  let sum ← numberField (field block 148 8)
  if sum ≠ checksum block ∧ sum ≠ signedChecksum block then none
  if numberFields.any fun (start, size) => (numberField (field block start size)).isNone then none
  let size ← numberField (field block 124 12)
  let name := textField block 0 100
  let type := (block.drop 156).headD 0
  let kind := if type = 0 ∧ name.getLast? = some slash then .directory else Kind.ofByte type
  let name := if kind = .directory then dropSlashes name else name
  let lead := textField block 345 155
  let isLong := type = 0x4C ∨ type = 0x4B ∨ type = 0x53
  let name := if lead.isEmpty ∨ isLong then name else lead ++ slash :: name
  some { name, kind, size := size.toNat, linkName := textField block 157 100 }

def fillTo (size : Nat) (bytes : Bytes) : Bytes :=
  (bytes ++ List.replicate (size - bytes.length) 0).take size

/-- A number in octal digits, with a zero byte at its end. -/
def octalField (size n : Nat) : Bytes :=
  let digits := Nat.toDigits 8 n
  let filled := List.replicate (size - 1 - digits.length) '0' ++ digits
  filled.map (fun c => UInt8.ofNat c.toNat) ++ [0]

def typeByte : Kind → UInt8
  | .directory => 0x35
  | .extended => 0x78
  | _ => 0x30

def permissions (kind : Kind) : Nat := if kind = .directory then 0o755 else 0o644

def headerWith (header : Header) (sum : Bytes) : Bytes :=
  fillTo 100 header.name ++ octalField 8 (permissions header.kind) ++ octalField 8 0 ++
    octalField 8 0 ++ octalField 12 header.size ++ octalField 12 0 ++ sum ++
    [typeByte header.kind] ++ fillTo 100 header.linkName ++
    (Utf8.encode "ustar" ++ [0, 0x30, 0x30]) ++ List.replicate 247 0

def writeHeader (header : Header) : Bytes :=
  let draft := headerWith header (List.replicate 8 0x20)
  headerWith header (octalField 7 (checksum draft) ++ [0x20])

end Foundry.Tar
