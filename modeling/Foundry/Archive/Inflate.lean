import Foundry.Bytes

/-! Decompressing a deflate stream.

The stream is a row of blocks: stored bytes, or literals and copies in a Huffman code that is fixed
or given with the block. What can be decompressed of a stream that is cut or corrupt is given with
the way in which it ended. -/
namespace Foundry.Inflate

/-- The input: the bits that are left of the byte begun, next one first, and the bytes after it. -/
structure Source where
  bits : List Bool
  bytes : Bytes

/-- Why a stream ends before its end mark. -/
inductive Broken where
  /-- The input ends. -/
  | cut
  | corrupt
deriving DecidableEq, Repr

/-- The bits of a byte, lowest first. -/
def bitsOf (byte : UInt8) : List Bool := (List.range 8).map fun i => byte.toNat.testBit i

def nextBit (s : Source) : Except Broken (Bool × Source) :=
  match s.bits with
  | bit :: bits => .ok (bit, { s with bits })
  | [] =>
    match s.bytes with
    | [] => .error .cut
    | byte :: bytes =>
      match bitsOf byte with
      | bit :: bits => .ok (bit, { bits, bytes })
      | [] => .error .cut

/-- The number in the next `count` bits, lowest first. -/
def nextNumber : Nat → Source → Except Broken (Nat × Source)
  | 0, s => .ok (0, s)
  | count + 1, s => do
    let (bit, s) ← nextBit s
    let (n, s) ← nextNumber count s
    .ok ((if bit then 1 else 0) + 2 * n, s)

/-- A canonical Huffman code: how many code words there are of each length from 1 on, and the
symbols in the order of their code words. -/
structure Code where
  counts : List Nat
  symbols : Array Nat

def longest : Nat := 15

/-- The code in which symbol `i` has a code word of the `i`-th length, or none if that is 0. -/
def Code.ofLengths (lengths : List Nat) : Code where
  counts := (List.range longest).map fun i => lengths.count (i + 1)
  symbols := ((List.range longest).flatMap fun i =>
    lengths.zipIdx.filterMap fun (length, symbol) =>
      if length = i + 1 then some symbol else none).toArray

/-- How many code words of the longest length could be added; nothing if there are too many
already. -/
def Code.room (code : Code) : Option Nat :=
  code.counts.foldl
    (fun left count => left.bind fun left =>
      if count ≤ 2 * left then some (2 * left - count) else none)
    (some 1)

/-- Whether code words fill the code, but for a code of one word of length 1. -/
def Code.isFull (code : Code) (lengths : List Nat) : Bool :=
  match code.room with
  | none => false
  | some 0 => true
  | some _ => lengths.all (· ≤ 1)

/-- Read a code word bit by bit. `first` is the first code word of the length reached and `index`
its place among the symbols. -/
def Code.walk (symbols : Array Nat) (word first index : Nat) :
    List Nat → Source → Except Broken (Nat × Source)
  | [], _ => .error .corrupt
  | count :: counts, s =>
    match nextBit s with
    | .error e => .error e
    | .ok (bit, s) =>
      let word := 2 * word + if bit then 1 else 0
      if word < first + count then
        match symbols[index + (word - first)]? with
        | some symbol => .ok (symbol, s)
        | none => .error .corrupt
      else walk symbols word (2 * (first + count)) (index + count) counts s

def Code.next (code : Code) (s : Source) : Except Broken (Nat × Source) :=
  if code.symbols.isEmpty then .error .corrupt else walk code.symbols 0 0 0 code.counts s

/-- The smallest lengths of the length symbols, each with its number of extra bits. -/
def lengthBases : Array (Nat × Nat) := #[
  (3, 0), (4, 0), (5, 0), (6, 0), (7, 0), (8, 0), (9, 0), (10, 0), (11, 1), (13, 1), (15, 1),
  (17, 1), (19, 2), (23, 2), (27, 2), (31, 2), (35, 3), (43, 3), (51, 3), (59, 3), (67, 4),
  (83, 4), (99, 4), (115, 4), (131, 5), (163, 5), (195, 5), (227, 5), (258, 0)]

/-- The smallest distances of the distance symbols, each with its number of extra bits. -/
def distanceBases : Array (Nat × Nat) := #[
  (1, 0), (2, 0), (3, 0), (4, 0), (5, 1), (7, 1), (9, 2), (13, 2), (17, 3), (25, 3), (33, 4),
  (49, 4), (65, 5), (97, 5), (129, 6), (193, 6), (257, 7), (385, 7), (513, 8), (769, 8),
  (1025, 9), (1537, 9), (2049, 10), (3073, 10), (4097, 11), (6145, 11), (8193, 12), (12289, 12),
  (16385, 13), (24577, 13)]

/-- A base with the extra bits that follow. -/
def nextExtended (bases : Array (Nat × Nat)) (symbol : Nat) (s : Source) :
    Except Broken (Nat × Source) :=
  match bases[symbol]? with
  | none => .error .corrupt
  | some (base, extra) => do
    let (more, s) ← nextNumber extra s
    .ok (base + more, s)

/-- Append `length` bytes that stand `distance` back. -/
def copyBack (output : Array UInt8) (distance : Nat) : Nat → Array UInt8
  | 0 => output
  | length + 1 => copyBack (output.push (output.getD (output.size - distance) 0)) distance length

/-- The output so far, and the input after it or why there is no more. -/
abbrev Progress := Array UInt8 × Except Broken Source

/-- Read the symbols of a block up to its end mark, at most as many as given. -/
def readSymbols (literals distances : Code) (output : Array UInt8) : Nat → Source → Progress
  | 0, _ => (output, .error .cut)
  | fuel + 1, s =>
    match literals.next s with
    | .error e => (output, .error e)
    | .ok (symbol, s) =>
      if symbol < 256 then readSymbols literals distances (output.push (UInt8.ofNat symbol)) fuel s
      else if symbol = 256 then (output, .ok s)
      else
        let copied : Except Broken (Nat × Nat × Source) := do
          let (length, s) ← nextExtended lengthBases (symbol - 257) s
          let (symbol, s) ← distances.next s
          let (distance, s) ← nextExtended distanceBases symbol s
          if output.size < distance then .error .corrupt else .ok (length, distance, s)
        match copied with
        | .error e => (output, .error e)
        | .ok (length, distance, s) =>
          readSymbols literals distances (copyBack output distance length) fuel s

def readStored (output : Array UInt8) (s : Source) : Progress :=
  match s.bytes with
  | a :: b :: c :: d :: rest =>
    let size := Bytes.natLE [a, b]
    if size + Bytes.natLE [c, d] ≠ 0xFFFF then (output, .error .corrupt)
    else
      let body := rest.take size
      let output := output ++ body
      if body.length < size then (output, .error .cut)
      else (output, .ok { bits := [], bytes := rest.drop size })
  | _ => (output, .error .cut)

/-- The code words' lengths of the fixed literal code. -/
def fixedLiterals : List Nat :=
  List.replicate 144 8 ++ List.replicate 112 9 ++ List.replicate 24 7 ++ List.replicate 8 8

def fixedDistances : List Nat := List.replicate 30 5

/-- The order in which the lengths of the code for lengths are given. -/
def lengthOrder : List Nat := [16, 17, 18, 0, 8, 7, 9, 6, 10, 5, 11, 4, 12, 3, 13, 2, 14, 1, 15]

/-- Read the lengths of the code for lengths. -/
def readShortLengths (done : List Nat) : Nat → Source → Except Broken (List Nat × Source)
  | 0, s => .ok (done.reverse, s)
  | count + 1, s => do
    let (n, s) ← nextNumber 3 s
    readShortLengths (n :: done) count s

/-- Read `count` code word lengths, which may be given by repeating earlier ones; `done` are read,
last one first. -/
def readLengths (code : Code) (count : Nat) (done : List Nat) :
    Nat → Source → Except Broken (List Nat × Source)
  | 0, _ => .error .cut
  | fuel + 1, s =>
    if done.length = count then .ok (done.reverse, s)
    else match code.next s with
      | .error e => .error e
      | .ok (symbol, s) =>
        if symbol < 16 then readLengths code count (symbol :: done) fuel s
        else
          let (repeated, bits, base) : Option Nat × Nat × Nat :=
            if symbol = 16 then (done.head?, 2, 3)
            else if symbol = 17 then (some 0, 3, 3)
            else (some 0, 7, 11)
          match nextNumber bits s with
          | .error e => .error e
          | .ok (more, s) =>
            match repeated with
            | none => .error .corrupt
            | some length =>
              if count < done.length + base + more then .error .corrupt
              else readLengths code count (List.replicate (base + more) length ++ done) fuel s

/-- Read the two codes that are given with a block. -/
def readCodes (s : Source) : Except Broken (Code × Code × Source) := do
  let (a, s) ← nextNumber 5 s
  let (b, s) ← nextNumber 5 s
  let (c, s) ← nextNumber 4 s
  let literalCount := a + 257
  let distanceCount := b + 1
  if 286 < literalCount ∨ 30 < distanceCount then throw .corrupt
  let (short, s) ← readShortLengths [] (c + 4) s
  let given := lengthOrder.zip short
  let lengths := (List.range 19).map fun i => (given.lookup i).getD 0
  let code := Code.ofLengths lengths
  if code.room ≠ some 0 then throw .corrupt
  let total := literalCount + distanceCount
  let (lengths, s) ← readLengths code total [] (total + 1) s
  let literalLengths := lengths.take literalCount
  let distanceLengths := lengths.drop literalCount
  if literalLengths.getD 256 0 = 0 then throw .corrupt
  let literals := Code.ofLengths literalLengths
  let distances := Code.ofLengths distanceLengths
  if !literals.isFull literalLengths || !distances.isFull distanceLengths then throw .corrupt
  pure (literals, distances, s)

/-- Read a block behind the bit that tells whether it is the last one. -/
def readBlock (output : Array UInt8) (fuel : Nat) (s : Source) : Progress :=
  match nextNumber 2 s with
  | .error e => (output, .error e)
  | .ok (0, s) => readStored output s
  | .ok (1, s) =>
    readSymbols (.ofLengths fixedLiterals) (.ofLengths fixedDistances) output fuel s
  | .ok (2, s) =>
    match readCodes s with
    | .error e => (output, .error e)
    | .ok (literals, distances, s) => readSymbols literals distances output fuel s
  | .ok _ => (output, .error .corrupt)

/-- Read blocks up to the last one, at most as many as given. -/
def readBlocks (output : Array UInt8) : Nat → Source → Progress
  | 0, _ => (output, .error .cut)
  | fuel + 1, s =>
    match nextBit s with
    | .error e => (output, .error e)
    | .ok (isLast, s) =>
      match readBlock output (8 * s.bytes.length + 9) s with
      | (output, .error e) => (output, .error e)
      | (output, .ok s) => if isLast then (output, .ok s) else readBlocks output fuel s

/-- Decompress a stream: its content as far as it goes, and the bytes after it or why it ends
early. -/
def inflate (bytes : Bytes) : Bytes × Except Broken Bytes :=
  match readBlocks #[] (8 * bytes.length + 1) { bits := [], bytes } with
  | (output, .ok s) => (output.toList, .ok s.bytes)
  | (output, .error e) => (output.toList, .error e)

end Foundry.Inflate
