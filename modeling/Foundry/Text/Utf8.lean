import Foundry.Bytes

/-! UTF-8, read byte by byte.

The reader is a machine whose state is what a started character still needs. A byte that cannot
go on with the started character closes it as ill formed and is read again as a first byte, so
each maximal ill-formed part of the input counts once. -/
namespace Foundry.Utf8

/-- What a decoder finds: a character, or one maximal ill-formed part (`none`). -/
abbrev Item := Option Char

/-- A character that lacks bytes: its bits so far, how many bytes are missing, and the range in
which the next one must lie. -/
structure Pending where
  value : Nat
  missing : Nat
  low : UInt8
  high : UInt8
deriving Repr, DecidableEq

/-- The state after a byte that stands first in a character. -/
def start (byte : UInt8) : List Item × Option Pending :=
  let lead (mask missing : Nat) (low high : UInt8) : List Item × Option Pending :=
    ([], some { value := byte.toNat % mask, missing, low, high })
  if byte < 0x80 then ([some (Char.ofNat byte.toNat)], none)
  else if byte < 0xC2 then ([none], none)
  else if byte < 0xE0 then lead 32 1 0x80 0xBF
  else if byte = 0xE0 then lead 16 2 0xA0 0xBF
  else if byte = 0xED then lead 16 2 0x80 0x9F
  else if byte < 0xF0 then lead 16 2 0x80 0xBF
  else if byte = 0xF0 then lead 8 3 0x90 0xBF
  else if byte < 0xF4 then lead 8 3 0x80 0xBF
  else if byte = 0xF4 then lead 8 3 0x80 0x8F
  else ([none], none)

/-- Read one byte: what it completes, and the state after it. -/
def step (state : Option Pending) (byte : UInt8) : List Item × Option Pending :=
  match state with
  | none => start byte
  | some p =>
    if p.low ≤ byte ∧ byte ≤ p.high then
      let value := p.value * 64 + byte.toNat % 64
      if p.missing = 1 then ([some (Char.ofNat value)], none)
      else ([], some { value, missing := p.missing - 1, low := 0x80, high := 0xBF })
    else
      let (items, next) := start byte
      (none :: items, next)

/-- What the end of the input completes: a started character is ill formed. -/
def finish : Option Pending → List Item
  | none => []
  | some _ => [none]

/-- The items of `bytes`, read from `state`, in front of which `done` were read (last first). -/
def run (done : List Item) (state : Option Pending) : Bytes → List Item × Option Pending
  | [] => (done, state)
  | byte :: rest =>
    let (items, next) := step state byte
    run (items.reverse ++ done) next rest

def items (bytes : Bytes) : List Item :=
  let (done, state) := run [] none bytes
  ((finish state).reverse ++ done).reverse

/-- The text of well-formed bytes. -/
def decode? (bytes : Bytes) : Option String :=
  let found := items bytes
  if found.all Option.isSome then some (String.ofList (found.filterMap id)) else none

/-- The text of any bytes: each maximal ill-formed part reads as U+FFFD. -/
def decodeLossy (bytes : Bytes) : String :=
  String.ofList ((items bytes).map (·.getD '\uFFFD'))

def encode (text : String) : Bytes := text.toList.flatMap String.utf8EncodeChar

end Foundry.Utf8
