/-! Beginnings, ends and parts of texts. -/
namespace Foundry.Text

def startsWith (text start : String) : Bool := start.toList.isPrefixOf text.toList

def endsWith (text tail : String) : Bool := tail.toList.isSuffixOf text.toList

def contains (text part : String) : Bool := go text.toList
where
  go : List Char → Bool
    | [] => part.toList.isEmpty
    | c :: rest => part.toList.isPrefixOf (c :: rest) || go rest

def drop (text : String) (n : Nat) : String := String.ofList (text.toList.drop n)

/-- `text` without `tail`, if it ends with it. -/
def dropTail (text tail : String) : String :=
  if endsWith text tail then String.ofList (text.toList.take (text.length - tail.length)) else text

/-- The pieces between the occurrences of `mark`; one more than there are occurrences. -/
def splitAll (mark : Char) (text : List Char) : List (List Char) :=
  text.foldr
    (fun c pieces =>
      if c = mark then [] :: pieces
      else match pieces with
        | [] => [[c]]
        | piece :: more => (c :: piece) :: more)
    [[]]

def split (mark : Char) (text : String) : List String :=
  (splitAll mark text.toList).map String.ofList

/-- What stands before the first `mark` and what after it; nothing if there is no `mark`. -/
def cut? (mark : Char) (text : String) : Option (String × String) :=
  match text.toList.span (· ≠ mark) with
  | (_, []) => none
  | (before, _ :: after) => some (String.ofList before, String.ofList after)

/-- What stands after the last `/`. -/
def baseName (path : String) : String :=
  String.ofList (path.toList.reverse.takeWhile (· ≠ '/')).reverse

/-- Lower case, as far as it can give an ASCII letter: the 26 capitals and the Kelvin sign. -/
def asciiLower (text : String) : String :=
  text.map fun c => if c = '\u212A' then 'k' else c.toLower

end Foundry.Text
