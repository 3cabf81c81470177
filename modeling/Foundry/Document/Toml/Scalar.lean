import Foundry.Document.Value

/-! The parts of a TOML text that hold no other values: keys, strings, numbers, dates and times.

A reader takes the characters from which it is to read and gives what it read with the rest. -/
namespace Foundry

inductive TomlError where
  | malformed
  /-- An integer has too many decimal digits to be read. -/
  | integerTooLong (digits : Nat)
deriving DecidableEq, Repr

namespace Toml

/-- What a reader found, with the characters after it. -/
abbrev Found (α : Type) := α × List Char

def malformed : Except TomlError α := .error .malformed

/-- Whether a character separates tokens within a line. -/
def isBlank (c : Char) : Bool := c = ' ' || c = '\t'

/-- Whether a character may stand nowhere but as a line end. -/
def isControl (c : Char) : Bool := (c.toNat < 32 || c.toNat = 127) && c ≠ '\t'

def skipBlanks (chars : List Char) : List Char := chars.dropWhile isBlank

def skipGaps (inComment : Bool) : List Char → Except TomlError (List Char)
  | [] => pure []
  | c :: rest =>
    if c = '\n' then skipGaps false rest
    else if inComment then (if isControl c then malformed else skipGaps true rest)
    else if isBlank c then skipGaps false rest
    else if c = '#' then skipGaps true rest
    else pure (c :: rest)

/-- Skip a comment up to the end of its line, if one stands here. -/
def skipComment : List Char → Except TomlError (List Char)
  | '#' :: rest =>
    let (comment, rest) := rest.span (· ≠ '\n')
    if comment.any isControl then malformed else pure rest
  | chars => pure chars

/-! ### Strings -/

def hexChar (digits : List Char) : Except TomlError Char :=
  let digit (c : Char) : Option Nat :=
    if c.isDigit then some (c.toNat - '0'.toNat)
    else if 'a' ≤ c ∧ c ≤ 'f' then some (c.toNat - 'a'.toNat + 10)
    else if 'A' ≤ c ∧ c ≤ 'F' then some (c.toNat - 'A'.toNat + 10)
    else none
  match digits.mapM digit with
  | none => malformed
  | some values =>
    let n := values.foldl (fun n d => n * 16 + d) 0
    if h : n.isValidChar then pure (Char.ofNatAux n h) else malformed

def readEscape : List Char → Except TomlError (Found Char)
  | 'b' :: rest => pure ('\x08', rest)
  | 't' :: rest => pure ('\t', rest)
  | 'n' :: rest => pure ('\n', rest)
  | 'f' :: rest => pure ('\x0c', rest)
  | 'r' :: rest => pure ('\r', rest)
  | '"' :: rest => pure ('"', rest)
  | '\\' :: rest => pure ('\\', rest)
  | 'u' :: a :: b :: c :: d :: rest => do pure (← hexChar [a, b, c, d], rest)
  | 'U' :: a :: b :: c :: d :: e :: f :: g :: h :: rest => do
    pure (← hexChar [a, b, c, d, e, f, g, h], rest)
  | _ => malformed

/-- Skip what a backslash at the end of a line takes out: the line end and all blanks and line ends
after it. -/
def skipJoint (chars : List Char) : Except TomlError (List Char) :=
  match skipBlanks chars with
  | [] => pure []
  | '\n' :: rest => pure (rest.dropWhile fun c => isBlank c || c = '\n')
  | _ => malformed

/-- Read a string with escapes behind its opening quote, in at most as many steps as given. -/
def readBasic (multiline : Bool) (done : List Char) :
    Nat → List Char → Except TomlError (Found String)
  | 0, _ => malformed
  | fuel + 1, chars =>
    match chars with
    | [] => malformed
    | '"' :: rest =>
      if multiline then
        match rest with
        | '"' :: '"' :: rest => pure (String.ofList done.reverse, rest)
        | _ => readBasic multiline ('"' :: done) fuel rest
      else pure (String.ofList done.reverse, rest)
    | '\\' :: rest =>
      let joins := match rest with
        | c :: _ => multiline && (isBlank c || c = '\n')
        | [] => false
      if joins then do
        let rest ← skipJoint rest
        readBasic multiline done fuel rest
      else do
        let (c, rest) ← readEscape rest
        readBasic multiline (c :: done) fuel rest
    | c :: rest =>
      if isControl c && !(multiline && c = '\n') then malformed
      else readBasic multiline (c :: done) fuel rest

/-- Read a string without escapes behind its opening quote. -/
def readLiteral (chars : List Char) : Except TomlError (Found String) :=
  match chars.span (· ≠ '\'') with
  | (_, []) => malformed
  | (body, _ :: rest) =>
    if body.any isControl then malformed else pure (String.ofList body, rest)

/-- Read a string of several lines without escapes behind its opening quotes. -/
def readLongLiteral (done : List Char) : List Char → Except TomlError (Found String)
  | '\'' :: '\'' :: '\'' :: rest => pure (String.ofList done.reverse, rest)
  | c :: rest =>
    if isControl c && c ≠ '\n' then malformed else readLongLiteral (c :: done) rest
  | [] => malformed

/-- A string of several lines may end in two quotes of its own before the closing ones. -/
def withOwnQuotes (quote : Char) : String × List Char → String × List Char
  | (text, a :: b :: rest) =>
    if a = quote then
      if b = quote then (text ++ String.ofList [a, b], rest) else (text.push a, b :: rest)
    else (text, a :: b :: rest)
  | (text, [a]) => if a = quote then (text.push a, []) else (text, [a])
  | (text, []) => (text, [])

def dropLineEnd : List Char → List Char
  | '\n' :: rest => rest
  | chars => chars

def readString (chars : List Char) : Except TomlError (Found String) :=
  match chars with
  | '"' :: '"' :: '"' :: rest => do
    pure (withOwnQuotes '"' (← readBasic true [] (chars.length + 1) (dropLineEnd rest)))
  | '\'' :: '\'' :: '\'' :: rest => do
    pure (withOwnQuotes '\'' (← readLongLiteral [] (dropLineEnd rest)))
  | '"' :: rest => readBasic false [] (chars.length + 1) rest
  | '\'' :: rest => readLiteral rest
  | _ => malformed

/-! ### Keys -/

/-- Whether a character may stand in a key without quotes. -/
def isBareKeyChar (c : Char) : Bool := c.isAlphanum || c = '-' || c = '_'

def readKeyPart : List Char → Except TomlError (Found String)
  | '"' :: rest => readBasic false [] (rest.length + 1) rest
  | '\'' :: rest => readLiteral rest
  | chars =>
    match chars.span isBareKeyChar with
    | ([], _) => malformed
    | (part, rest) => pure (String.ofList part, rest)

/-- Read a key: parts with dots between them, and the blanks after it. -/
def readKeyParts (done : List String) : Nat → List Char → Except TomlError (Found (List String))
  | 0, _ => malformed
  | fuel + 1, chars => do
    let (part, rest) ← readKeyPart chars
    match skipBlanks rest with
    | '.' :: rest => readKeyParts (part :: done) fuel (skipBlanks rest)
    | rest => pure ((part :: done).reverse, rest)

def readKey (chars : List Char) : Except TomlError (Found (List String)) :=
  readKeyParts [] (chars.length + 1) chars

/-! ### Numbers -/

/-- Digits that may be grouped by single underscores, without the underscores; none if no digit
stands first. -/
def digitRun (isDigit : Char → Bool) (done : List Char) : List Char → List Char × List Char
  | '_' :: c :: rest =>
    if !done.isEmpty && isDigit c then digitRun isDigit (c :: done) rest
    else (done.reverse, '_' :: c :: rest)
  | c :: rest => if isDigit c then digitRun isDigit (c :: done) rest else (done.reverse, c :: rest)
  | [] => (done.reverse, [])

def digitValue (c : Char) : Nat :=
  if c.isDigit then c.toNat - '0'.toNat
  else if c.isUpper then c.toNat - 'A'.toNat + 10
  else c.toNat - 'a'.toNat + 10

def valueOf (base : Nat) (digits : List Char) : Nat :=
  digits.foldl (fun n c => n * base + digitValue c) 0

/-- Whether a character is a digit of a base up to 16. -/
def isDigitOf (base : Nat) (c : Char) : Bool :=
  (c.isDigit || ('a' ≤ c && c ≤ 'f') || ('A' ≤ c && c ≤ 'F')) && digitValue c < base

/-- Read an integer that is written in another base than ten. -/
def readPrefixed : List Char → Option (Found Value)
  | '0' :: mark :: rest =>
    let base := if mark = 'x' then 16 else if mark = 'o' then 8 else if mark = 'b' then 2 else 0
    if base = 0 then none
    else match digitRun (isDigitOf base) [] rest with
      | ([], _) => none
      | (digits, rest) => some (.int (valueOf base digits), rest)
  | _ => none

/-- How many decimal digits an integer may have. -/
def digitLimit : Nat := 4300

/-- Read the part of a number behind the point; nothing if there is none. -/
def readFraction : List Char → Option (Found (List Char))
  | '.' :: rest =>
    match digitRun Char.isDigit [] rest with
    | ([], _) => none
    | found => some found
  | _ => none

def readExponent : List Char → Option (Found Int)
  | c :: rest =>
    if c = 'e' ∨ c = 'E' then
      let (negative, rest) := Binary64.readSign rest
      match digitRun Char.isDigit [] rest with
      | ([], _) => none
      | (digits, rest) =>
        let n : Int := valueOf 10 digits
        some (if negative then -n else n, rest)
    else none
  | [] => none

/-- Read the digits before the point: a zero alone, or digits that do not start with zero. -/
def readWhole : List Char → Option (Found (List Char))
  | '0' :: rest => some (['0'], rest)
  | chars =>
    match digitRun Char.isDigit [] chars with
    | ([], _) => none
    | found => some found

/-- Read a decimal number; it is a floating point number if it has a fraction or an exponent. -/
def readDecimal (chars : List Char) : Option (Except TomlError (Found Value)) :=
  let (negative, body) := Binary64.readSign chars
  (readWhole body).map fun (whole, rest) =>
    let fraction := readFraction rest
    let afterFraction := (fraction.map (·.2)).getD rest
    let exponent := readExponent afterFraction
    if fraction.isNone && exponent.isNone then
      if digitLimit < whole.length then .error (.integerTooLong whole.length)
      else
        let n : Int := valueOf 10 whole
        .ok (.int (if negative then -n else n), rest)
    else
      let places := (fraction.map (·.1)).getD []
      let (power, rest) := exponent.getD (0, afterFraction)
      let value := valueOf 10 (whole ++ places)
      .ok (.float (.ofDecimal negative value (power - places.length)), rest)

/-- Read infinity or the number that is not one. -/
def readSpecial (chars : List Char) : Option (Found Value) :=
  let (negative, body) := Binary64.readSign chars
  match body with
  | 'i' :: 'n' :: 'f' :: rest => some (.float (.infinity negative), rest)
  | 'n' :: 'a' :: 'n' :: rest => some (.float (.nan negative), rest)
  | _ => none

/-! ### Dates and times -/

/-- Read a number of exactly two digits that is not above `top`. -/
def readTwo (top : Nat) : List Char → Option (Found Nat)
  | a :: b :: rest =>
    if a.isDigit && b.isDigit && valueOf 10 [a, b] ≤ top then some (valueOf 10 [a, b], rest)
    else none
  | _ => none

def readMark (mark : Char) : List Char → Option (List Char)
  | c :: rest => if c = mark then some rest else none
  | [] => none

/-- Read a fraction of a second, of which six digits count. -/
def readMicroseconds (chars : List Char) : Nat × List Char :=
  match chars with
  | '.' :: rest =>
    match rest.span Char.isDigit with
    | ([], _) => (0, chars)
    | (digits, rest) => (valueOf 10 ((digits ++ List.replicate 6 '0').take 6), rest)
  | _ => (0, chars)

def readTime (chars : List Char) : Option (Found TimeOfDay) := do
  let (hour, rest) ← readTwo 23 chars
  let rest ← readMark ':' rest
  let (minute, rest) ← readTwo 59 rest
  let rest ← readMark ':' rest
  let (second, rest) ← readTwo 59 rest
  let (microsecond, rest) := readMicroseconds rest
  some (⟨hour, minute, second, microsecond⟩, rest)

/-- Read a date as it is written; the day need not exist. -/
def readDate (chars : List Char) : Option (Found Date) := do
  let (century, rest) ← readTwo 99 chars
  let (year, rest) ← readTwo 99 rest
  let rest ← readMark '-' rest
  let (month, rest) ← readTwo 12 rest
  let rest ← readMark '-' rest
  let (day, rest) ← readTwo 31 rest
  if month = 0 ∨ day = 0 then none else some (⟨century * 100 + year, month, day⟩, rest)

/-- Read an offset from UTC in minutes; nothing if none is written. -/
def readOffset (chars : List Char) : Option (Found Int) :=
  match chars with
  | 'Z' :: rest | 'z' :: rest => some (0, rest)
  | sign :: rest => do
    if sign ≠ '+' ∧ sign ≠ '-' then none
    let (hours, rest) ← readTwo 23 rest
    let rest ← readMark ':' rest
    let (minutes, rest) ← readTwo 59 rest
    let offset : Int := hours * 60 + minutes
    some (if sign = '-' then -offset else offset, rest)
  | [] => none

/-- Read the time that may follow a date. -/
def readDayTime : List Char → Option (TimeOfDay × Option Int × List Char)
  | mark :: rest => do
    if mark ≠ 'T' ∧ mark ≠ 't' ∧ mark ≠ ' ' then none
    let (time, rest) ← readTime rest
    match readOffset rest with
    | some (offset, rest) => some (time, some offset, rest)
    | none => some (time, none, rest)
  | [] => none

/-- Read a date, perhaps with a time, or a time alone. A day that does not exist is an error. -/
def readMoment (chars : List Char) : Option (Except TomlError (Found Value)) :=
  match readDate chars with
  | some (date, rest) =>
    some <|
      if !date.exists? then malformed
      else match readDayTime rest with
        | some (time, offset, rest) => pure (.moment (.dateTime date time offset), rest)
        | none => pure (.moment (.date date), rest)
  | none => (readTime chars).map fun (time, rest) => pure (.moment (.time time), rest)

/-- Read a value that holds no others. -/
def readScalar (chars : List Char) : Except TomlError (Found Value) :=
  match chars with
  | '"' :: _ | '\'' :: _ => do
    let (text, rest) ← readString chars
    pure (.text text, rest)
  | 't' :: 'r' :: 'u' :: 'e' :: rest => pure (.bool true, rest)
  | 'f' :: 'a' :: 'l' :: 's' :: 'e' :: rest => pure (.bool false, rest)
  | _ =>
    match readMoment chars with
    | some reading => reading
    | none =>
      match readPrefixed chars with
      | some found => pure found
      | none =>
        match readDecimal chars with
        | some reading => reading
        | none =>
          match readSpecial chars with
          | some found => pure found
          | none => malformed

end Toml

end Foundry
