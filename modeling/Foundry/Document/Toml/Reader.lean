import Foundry.Document.Toml.Assembly

/-! Reading TOML documents. -/
namespace Foundry.Toml

mutual

/-- Read a value, going at most as many levels and items deep as given. -/
def readValue : Nat → List Char → Except TomlError (Found Value)
  | 0, _ => malformed
  | fuel + 1, chars =>
    match chars with
    | '[' :: rest => do
      match ← skipGaps false rest with
      | ']' :: rest => pure (.array [], rest)
      | rest => readItems fuel [] rest
    | '\x7b' :: rest =>
      match skipBlanks rest with
      | '\x7d' :: rest => pure (.table [], rest)
      | rest => readEntries fuel [] [] rest
    | _ => readScalar chars

def readItems (fuel : Nat) (done : List Value) (chars : List Char) :
    Except TomlError (Found Value) :=
  match fuel with
  | 0 => malformed
  | fuel + 1 =>
    match readValue fuel chars with
    | .error e => .error e
    | .ok (item, rest) =>
      match skipGaps false rest with
      | .error e => .error e
      | .ok (']' :: rest) => .ok (.array (item :: done).reverse, rest)
      | .ok (',' :: rest) =>
        match skipGaps false rest with
        | .error e => .error e
        | .ok (']' :: rest) => .ok (.array (item :: done).reverse, rest)
        | .ok rest => readItems fuel (item :: done) rest
      | .ok _ => malformed

def readEntries (fuel : Nat) (fixed : List KeyPath) (table : Table) (chars : List Char) :
    Except TomlError (Found Value) :=
  match fuel with
  | 0 => malformed
  | fuel + 1 =>
    match readKey chars with
    | .error e => .error e
    | .ok (key, '=' :: rest) =>
      match readValue fuel (skipBlanks rest) with
      | .error e => .error e
      | .ok (value, rest) =>
        match addInline fixed table key value with
        | .error e => .error e
        | .ok table =>
          match skipBlanks rest with
          | '\x7d' :: rest => .ok (.table table, rest)
          | ',' :: rest =>
            readEntries fuel (if holdsOthers value then key :: fixed else fixed) table
              (skipBlanks rest)
          | _ => malformed
    | .ok _ => malformed

end

def readEntry (chars : List Char) : Except TomlError (Found Statement) := do
  match ← readKey chars with
  | (key, '=' :: rest) =>
    let (value, rest) ← readValue (chars.length + 1) (skipBlanks rest)
    pure (.entry key value, rest)
  | _ => malformed

/-- Read the statement that stands on a line behind its leading blanks, if there is one. -/
def readStatement (chars : List Char) : Except TomlError (Found (Option Statement)) :=
  match chars with
  | [] | '\n' :: _ | '#' :: _ => pure (none, chars)
  | '[' :: '[' :: rest => do
    match ← readKey (skipBlanks rest) with
    | (key, ']' :: ']' :: rest) => pure (some (.arrayHeader key), rest)
    | _ => malformed
  | '[' :: rest => do
    match ← readKey (skipBlanks rest) with
    | (key, ']' :: rest) => pure (some (.header key), rest)
    | _ => malformed
  | _ => do
    let (entry, rest) ← readEntry chars
    pure (some entry, rest)

/-- Read lines into an assembly, at most as many as given. -/
def readLines (a : Assembly) : Nat → List Char → Except TomlError Table
  | 0, _ => malformed
  | fuel + 1, chars =>
    match readStatement (skipBlanks chars) with
    | .error e => .error e
    | .ok (statement, rest) =>
      match statement.elim (pure a) a.add with
      | .error e => .error e
      | .ok a =>
        match skipComment (skipBlanks rest) with
        | .error e => .error e
        | .ok [] => .ok a.data
        | .ok ('\n' :: rest) => readLines a fuel rest
        | .ok _ => malformed

/-- The characters with CR LF written as LF. -/
def plainLineEnds (done : List Char) : List Char → List Char
  | '\r' :: '\n' :: rest => plainLineEnds ('\n' :: done) rest
  | c :: rest => plainLineEnds (c :: done) rest
  | [] => done.reverse

def read (text : String) : Except TomlError Table :=
  let chars := plainLineEnds [] text.toList
  readLines {} (chars.length + 1) chars

end Foundry.Toml
