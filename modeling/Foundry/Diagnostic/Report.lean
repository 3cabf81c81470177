import Foundry.Diagnostic.Catalog
import Foundry.Text.Affix

/-! The report of a build: its diagnostics in the order in which they came up, and their text with
or without colors. -/
namespace Foundry

/-- One diagnostic; `stage` tells which part of the build it comes from. -/
structure Diagnostic where
  severity : Severity
  code : String
  message : String
  stage : Option String
deriving DecidableEq, Repr

/-- The diagnostics of one program, first one first. -/
structure Report where
  program : String := "kilnc"
  items : List Diagnostic := []
deriving DecidableEq, Repr

namespace Report

def push (report : Report) (item : Diagnostic) : Report :=
  { report with items := report.items ++ [item] }

def error (report : Report) (code message : String) (stage : Option String) : Report :=
  report.push ⟨.error, code, message, stage⟩

def warn (report : Report) (code message : String) (stage : Option String) : Report :=
  report.push ⟨.warning, code, message, stage⟩

def errors (report : Report) : List Diagnostic := report.items.filter (·.severity = .error)

def hasErrors (report : Report) : Bool := report.items.any (·.severity = .error)

def hasWarnings (report : Report) : Bool := report.items.any (·.severity = .warning)

/-- Report the message of a code, filled in with the arguments. -/
def emit (report : Report) (catalog : Catalog) (code : String) (stage : Option String)
    (arguments : Table) : Except MessageError Report :=
  if ["r", "em", "stage"].any arguments.has then .error .nameTaken
  else match catalog.get? code with
    | none => .error (.unknownCode code)
    | some message =>
      match catalog.text code arguments with
      | .ok text => .ok (report.push ⟨message.severity, code, text, stage⟩)
      | .error e => .error e

inductive Ink where
  | bold
  | dim
  | red
  | yellow
  | cyan
deriving DecidableEq, Repr

def Ink.sequence : Ink → String
  | bold => "\x1b[1m"
  | dim => "\x1b[2m"
  | red => "\x1b[31m"
  | yellow => "\x1b[33m"
  | cyan => "\x1b[36m"

/-- A text in some inks, and the plain one after it. -/
def inked (inks : List Ink) (text : String) : String :=
  String.join (inks.map Ink.sequence) ++ text ++ "\x1b[0m"

/-- A message with a period at its end. -/
def sentence (message : String) : String :=
  if Text.endsWith message "." then message else message ++ "."

def line (program : String) (colored : Bool) (item : Diagnostic) : String :=
  let place := match item.stage with
    | none | some "" => program
    | some stage => s!"{program} ({stage})"
  let message := sentence item.message
  if colored then
    let place := inked [.cyan] place
    let kind := inked [.bold, if item.severity = .error then .red else .yellow] item.severity.name
    let code := inked [.dim] item.code
    s!"{place}: {kind} [{code}]: {message}"
  else s!"{place}: {item.severity.name} [{item.code}]: {message}"

/-- The report as text, a line for each diagnostic. -/
def format (report : Report) (colored : Bool) : String :=
  String.intercalate "\n" (report.items.map (line report.program colored))

/-- Whether a report is colored where nothing else is asked for: on a terminal that is not dumb,
unless the user wants no color. -/
def colorsByDefault (terminal : Bool) (noColor : Option String) (term : Option String) : Bool :=
  terminal && noColor.isNone && term != some "dumb"

/-- What printing the report writes: nothing if there is nothing to say. -/
def printed (report : Report) (colored : Bool) : String :=
  let text := report.format colored
  if text = "" then "" else text ++ "\n"

end Report

end Foundry
