import Foundry.Text.Affix

/-! Paths as a writing of names, without any file system.

A path is read into an anchor and its parts: empty parts and `.` drop out, `..` stays. Texts that
read into the same path denote the same file, and `text` is the one that is shown. -/
namespace Foundry

/-- Where a path starts. Two slashes are an anchor of their own; three or more count as one. -/
inductive Anchor where
  | none
  | root
  | doubleRoot
deriving DecidableEq, Repr

/-- A path: its anchor and its parts, none of which is empty or `.`. -/
structure Path where
  anchor : Anchor
  parts : List String
deriving DecidableEq, Repr

namespace Anchor

def ofText (text : String) : Anchor :=
  match text.toList.takeWhile (· = '/') with
  | [] => .none
  | [_, _] => .doubleRoot
  | _ => .root

def text : Anchor → String
  | .none => ""
  | .root => "/"
  | .doubleRoot => "//"

end Anchor

namespace Path

/-- The parts of a text that name something. -/
def partsOf (text : String) : List String :=
  (Text.split '/' text).filter fun part => part ≠ "" && part ≠ "."

def ofText (text : String) : Path := ⟨.ofText text, partsOf text⟩

/-- The shown form; the path without anchor and parts is `.`. -/
def text (path : Path) : String :=
  if path.anchor = .none && path.parts.isEmpty then "."
  else path.anchor.text ++ String.intercalate "/" path.parts

/-- How a path is shown in an error text where its kind is to be told. -/
def literal (quote : String → String) (path : Path) : String := s!"PosixPath({quote path.text})"

/-- The last part, empty if there is none. -/
def name (path : Path) : String := path.parts.getLast?.getD ""

def parent (path : Path) : Path := ⟨path.anchor, path.parts.dropLast⟩

/-- `path` followed by `other`, which replaces it if it has an anchor. -/
def join (path other : Path) : Path :=
  if other.anchor = .none then ⟨path.anchor, path.parts ++ other.parts⟩ else other

def child (path : Path) (text : String) : Path := path.join (.ofText text)

/-- The path with another last part, if it has one. -/
def withName? (path : Path) (name : String) : Option Path :=
  if path.name = "" then none else some ⟨path.anchor, path.parts.dropLast ++ [name]⟩

/-- What a name ends in from its last dot on; nothing if that dot is its first or last
character. -/
def suffixOf (name : String) : String :=
  match name.toList.reverse.span (· ≠ '.') with
  | (_, []) => ""
  | (tail, _ :: before) =>
    if tail.isEmpty || before.isEmpty then "" else String.ofList ('.' :: tail.reverse)

def suffix (path : Path) : String := suffixOf path.name

/-- The path without the suffix of its last part, if it has a last part. -/
def withoutSuffix? (path : Path) : Option Path :=
  path.withName? (Text.dropTail path.name path.suffix)

/-- Parts with each `..` and the part before it taken out; at the root there is nothing above. -/
def collapse (parts : List String) : List String :=
  (parts.foldl (fun done part => if part = ".." then done.tail else part :: done) []).reverse

/-- The absolute path without `..`, seen from the directory `here`. -/
def resolve (path here : Path) : Path :=
  ⟨.root, collapse (here.join path).parts⟩

end Path

/-- Texts of paths put together: the second one wins if it starts with a slash, and no slash is
doubled. -/
def joinPaths (first second : String) : String :=
  if Text.startsWith second "/" then second
  else if first = "" || Text.endsWith first "/" then first ++ second
  else first ++ "/" ++ second

end Foundry
