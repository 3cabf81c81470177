import Foundry.Diagnostic.Template

/-! The catalog of coded messages. Each code has one template, and everything that is reported
under a code is that template filled in. -/
namespace Foundry

/-- Whether a message stops a build. -/
inductive Severity where
  | error
  | warning
deriving DecidableEq, Repr

inductive Category where
  | general
  | configuration
  | externalTool
  | link
  | library
  | internal
deriving DecidableEq, Repr

namespace Severity

def name : Severity → String
  | error => "error"
  | warning => "warning"

def ofName? (name : String) : Option Severity := [error, warning].find? (·.name = name)

end Severity

def Category.name : Category → String
  | general => "general"
  | configuration => "configuration"
  | externalTool => "external-tool"
  | link => "link"
  | library => "library"
  | internal => "internal"

structure Message where
  code : String
  severity : Severity
  template : String
  category : Category := .general
  explanation : String := ""
deriving DecidableEq, Repr

/-- The messages in the order in which they were entered; no code is entered twice. -/
abbrev Catalog := List Message

/-- Why no message can be given. -/
inductive MessageError where
  | unknownCode (code : String)
  | unfilled (message : Message) (reason : FillError)
  /-- An argument has a name that is taken. -/
  | nameTaken
deriving DecidableEq, Repr

def codedText (code message : String) : String := s!"{code}: {message}"

/-- The text for a field without an argument. -/
def Message.missingText (message : Message) (name : String) : String :=
  s!"missing text key '{name}' for {message.code} (needed by: {Text.quoted message.template})"

namespace Catalog

def get? (catalog : Catalog) (code : String) : Option Message := catalog.find? (·.code = code)

/-- Enter a message, unless its code is taken. -/
def add? (catalog : Catalog) (message : Message) : Option Catalog :=
  if (catalog.get? message.code).isSome then none else some (catalog ++ [message])

def text (catalog : Catalog) (code : String) (arguments : Table) : Except MessageError String :=
  if arguments.has "code" then .error .nameTaken
  else match catalog.get? code with
    | none => .error (.unknownCode code)
    | some message =>
      match Template.fill message.template arguments with
      | .ok text => .ok text
      | .error reason => .error (.unfilled message reason)

def errorText (catalog : Catalog) (code : String) (arguments : Table) :
    Except MessageError String :=
  if arguments.has "self" then .error .nameTaken else catalog.text code arguments

def standard : Catalog := [
  ⟨"CE4000", .error, "unsupported target '\x7btarget\x7d'", .configuration,
    "The target is not one of the known target families."⟩,
  ⟨"CE4001", .error, "unknown output kind '\x7bkind\x7d'", .configuration,
    "Output kind must be program, dynamic, framework, library or bitcode."⟩,
  ⟨"CE4002", .error, "the \x7btool\x7d command returned non-zero exit code: \x7bexit_code\x7d",
    .externalTool,
    "An external toolchain invocation failed. Its own diagnostics precede this message."⟩,
  ⟨"CE4003", .error, "linker invocation reported errors", .link,
    "The system linker (or a post-link step) failed; no artifact was produced."⟩,
  ⟨"CE4004", .error, "failed to link \x7blibrary\x7d", .link,
    "LLVM bitcode linking of a native library into the program module failed."⟩,
  ⟨"CE4005", .error, "framework output is not supported for target '\x7btarget\x7d'",
    .configuration, "Framework bundles can only be produced for Apple targets."⟩,
  ⟨"CE4006", .error, "missing property '\x7bname\x7d' for target '\x7btarget\x7d'",
    .configuration, "The properties file has no value for a required target property."⟩,
  ⟨"CE4007", .error, "invalid properties file '\x7bpath\x7d': \x7breason\x7d", .configuration,
    "The properties file could not be read or is not valid TOML."⟩,
  ⟨"CE4008", .error, "cannot write library '\x7bpath\x7d': \x7breason\x7d", .library,
    "Laying out or packing the library failed."⟩,
  ⟨"CW4009", .warning, "static library '\x7bpath\x7d' is not valid for target '\x7btarget\x7d'",
    .link,
    "The file does not have a static library format accepted by the target; it is skipped."⟩]

end Catalog

end Foundry
