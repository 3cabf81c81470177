import Foundry.CommandLine.ExitStatus
import Foundry.CommandLine.Settings
import Foundry.Library.Release
import Foundry.Text.Quoted

/-! Reading a command line.

Each argument is first looked at by itself: it is an operand, an option, or the `--` behind which
everything is an operand. An option may be abbreviated as long as no other one is spelled alike,
its argument may be attached to it, and options of one letter without arguments may share a
hyphen. Only then the options are carried out, from left to right. -/
namespace Foundry.CommandLine

inductive UsageError where
  /-- An abbreviation fits more than one spelling. -/
  | ambiguous (given : String) (spellings : List String)
  | argumentExpected (switch : Switch)
  /-- Something is attached to an option that takes no argument. -/
  | argumentIgnored (switch : Switch) (attached : String)
  | unknownKind (name : String)
  | unrecognized (arguments : List String)
deriving DecidableEq, Repr

def aboutArgument (switch : Switch) (message : String) : String :=
  s!"argument {switch.name}: {message}"

def UsageError.message : UsageError → String
  | ambiguous given spellings =>
    let matching := String.intercalate ", " spellings
    s!"ambiguous option: {given} could match {matching}"
  | argumentExpected switch => aboutArgument switch "expected one argument"
  | argumentIgnored switch attached =>
    aboutArgument switch s!"ignored explicit argument {Text.quoted attached}"
  | unknownKind name =>
    let choices := String.intercalate ", " (ArtifactKind.all.map fun kind => Text.quoted kind.name)
    aboutArgument .produce s!"invalid choice: {Text.quoted name} (choose from {choices})"
  | unrecognized arguments => "unrecognized arguments: " ++ String.intercalate " " arguments

/-- Why a command line gives no settings. -/
inductive Stop where
  | help
  | misuse (e : UsageError)
deriving DecidableEq, Repr

/-- What an argument is by itself. -/
inductive Token where
  | operand (text : String)
  /-- The `--` behind which there are operands only. -/
  | divider
  | option (switch : Switch) (spelling : String) (attached : Option String)
  | unknown (text : String)
deriving DecidableEq, Repr

/-- Whether a text is a negative number; a line end may follow it. -/
def isNegativeNumber (text : String) : Bool :=
  match text.toList with
  | '-' :: body =>
    let body := if body.getLast? = some '\n' then body.dropLast else body
    match body.span Char.isDigit with
    | (digits, []) => !digits.isEmpty
    | (_, '.' :: places) => !places.isEmpty && places.all Char.isDigit
    | _ => false
  | _ => false

/-- The options that an abbreviation with two hyphens or a letter with one may stand for. -/
def candidates (text : String) : List (Switch × String × Option String) :=
  if Text.startsWith text "--" then
    let (start, attached) := match Text.cut? '=' text with
      | some (start, attached) => (start, some attached)
      | none => (text, none)
    Switch.spelled.filterMap fun (spelling, switch) =>
      if Text.startsWith spelling start then some (switch, spelling, attached) else none
  else
    let letter := String.ofList (text.toList.take 2)
    Switch.spelled.filterMap fun (spelling, switch) =>
      if spelling = letter then some (switch, spelling, some (Text.drop text 2))
      else if Text.startsWith spelling text then some (switch, spelling, none)
      else none

/-- An option that is spelled out, perhaps with its argument attached by `=`. -/
def spelledOut? (text : String) : Option Token :=
  match Switch.ofSpelling? text with
  | some switch => some (.option switch text none)
  | none => do
    let (spelling, attached) ← Text.cut? '=' text
    let switch ← Switch.ofSpelling? spelling
    return .option switch spelling (some attached)

/-- What an argument is that begins with a hyphen and has more characters, but spells out no
option. -/
def classifyAbbreviated (text : String) : Except UsageError Token :=
  match candidates text with
  | [] => .ok (if isNegativeNumber text || text.toList.contains ' ' then .operand text
               else .unknown text)
  | [(switch, spelling, attached)] => .ok (.option switch spelling attached)
  | several => .error (.ambiguous text (several.map fun (_, spelling, _) => spelling))

/-- What an argument before any `--` is by itself. -/
def classify (text : String) : Except UsageError Token :=
  if text = "--" then .ok .divider
  else if !Text.startsWith text "-" then .ok (.operand text)
  else match spelledOut? text with
    | some token => .ok token
    | none => if text = "-" then .ok (.operand text) else classifyAbbreviated text

def tokens : List String → Except UsageError (List Token)
  | [] => .ok []
  | text :: rest => do
    match ← classify text with
    | .divider => .ok (.divider :: rest.map .operand)
    | token => return token :: (← tokens rest)

/-- An option with its argument, if it takes one. -/
abbrev Choice := Switch × Option String

/-- The options that share a hyphen, where `attached` follows the first of them; the last one may
still need its argument. -/
def bundled (switch : Switch) (spelling : String) (attached : List Char) :
    Except UsageError (List Choice × Option Switch) :=
  if switch.takesArgument then .ok ([(switch, some (String.ofList attached))], none)
  else if Text.startsWith spelling "--" then
    .error (.argumentIgnored switch (String.ofList attached))
  else match attached with
    | [] => .error (.argumentIgnored switch "")
    | letter :: rest =>
      let next := String.ofList ['-', letter]
      match Switch.ofSpelling? next with
      | none => .error (.argumentIgnored switch (String.ofList attached))
      | some other => do
        let (choices, open?) ←
          if rest.isEmpty then
            pure (if other.takesArgument then ([], some other) else ([(other, none)], none))
          else bundled other next rest
        return ((switch, none) :: choices, open?)

/-- The options of one token; the last one may still need its argument. -/
def choicesOf (switch : Switch) (spelling : String) (attached : Option String) :
    Except UsageError (List Choice × Option Switch) :=
  match attached with
  | some attached => bundled switch spelling attached.toList
  | none => .ok (if switch.takesArgument then ([], some switch) else ([(switch, none)], none))

structure Reading where
  settings : Settings := {}
  /-- Whether the place of the source is taken. -/
  hasSource : Bool := false
  /-- The arguments that have no meaning, last one first. -/
  extras : List String := []
deriving Repr

namespace Reading

def extra (r : Reading) (text : String) : Reading := { r with extras := text :: r.extras }

def withSource (r : Reading) (source : Option String) : Reading :=
  { r with settings := { r.settings with source }, hasSource := true }

def argumentOf (text : Option String) : Argument :=
  match text with
  | none | some "--" => .nothing
  | some text => .text text

def choose (r : Reading) (choice : Choice) : Except Stop Reading :=
  let argument := argumentOf choice.2
  match choice.1, argument with
  | .help, _ => .error .help
  | .produce, .text name =>
    if (ArtifactKind.ofName? name).isSome then
      .ok { r with settings := r.settings.set .produce argument }
    else .error (.misuse (.unknownKind name))
  | switch, _ => .ok { r with settings := r.settings.set switch argument }

/-- Read tokens from left to right. The first operand is the source; a divider next to it belongs
to it. -/
def read (r : Reading) : List Token → Except Stop Reading
  | [] => .ok r
  | .operand text :: rest =>
    if r.hasSource then read (r.extra text) rest
    else match rest with
      | .divider :: rest => read (r.withSource (some text)) rest
      | rest => read (r.withSource (some text)) rest
  | .divider :: rest =>
    if r.hasSource then read (r.extra "--") rest
    else match rest with
      | .operand text :: rest => read (r.withSource (some text)) rest
      | rest => read (r.withSource none) rest
  | .unknown text :: rest => read (r.extra text) rest
  | .option switch spelling attached :: rest =>
    match choicesOf switch spelling attached with
    | .error e => .error (.misuse e)
    | .ok (choices, none) =>
      match choices.foldlM choose r with
      | .error stop => .error stop
      | .ok r => read r rest
    | .ok (choices, some last) =>
      match rest with
      | .operand argument :: rest =>
        match (choices ++ [(last, some argument)]).foldlM choose r with
        | .error stop => .error stop
        | .ok r => read r rest
      | _ => .error (.misuse (.argumentExpected last))

end Reading

def parse (argv : List String) : Except Stop Settings := do
  let tokens ← (tokens argv).mapError .misuse
  let reading ← Reading.read {} tokens
  if reading.extras.isEmpty then return reading.settings
  else throw (.misuse (.unrecognized reading.extras.reverse))

/-- What is written to the standard error output where a command line stops. -/
def Stop.text : Stop → String
  | help => ""
  | misuse e => s!"{programName}: error: {e.message}\n"

def Stop.status : Stop → ExitStatus
  | help => .success
  | misuse _ => .failed

end Foundry.CommandLine
