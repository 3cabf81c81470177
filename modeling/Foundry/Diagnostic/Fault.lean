import Foundry.Diagnostic.Catalog
import Foundry.Target.Basic

/-! The faults that stop a build, each with its code and its message. -/
namespace Foundry

/-- The kinds of faults that callers tell apart. -/
inductive FaultKind where
  | configuration
  | toolFailure
  | bitcodeLink
  | libraryWrite
deriving DecidableEq, Repr

/-- What stops a build. -/
inductive Fault where
  | unsupportedTarget (name : String)
  | unknownOutputKind (name : String)
  | toolFailed (tool : String) (exitCode : Int)
  | bitcodeNotLinked (library reason : String)
  | noFrameworks (target : Target)
  | missingProperty (name : String) (target : Target)
  /-- A properties file cannot be used. -/
  | badProperties (path reason : String)
  /-- A library cannot be laid out, packed or read. -/
  | libraryNotWritten (path reason : String)
deriving DecidableEq, Repr

namespace Fault

def kind : Fault → FaultKind
  | toolFailed .. => .toolFailure
  | bitcodeNotLinked .. => .bitcodeLink
  | libraryNotWritten .. => .libraryWrite
  | _ => .configuration

def code : Fault → String
  | unsupportedTarget _ => "CE4000"
  | unknownOutputKind _ => "CE4001"
  | toolFailed .. => "CE4002"
  | bitcodeNotLinked .. => "CE4004"
  | noFrameworks _ => "CE4005"
  | missingProperty .. => "CE4006"
  | badProperties .. => "CE4007"
  | libraryNotWritten .. => "CE4008"

/-- What a fault puts into the message of its code. -/
def arguments : Fault → Table
  | unsupportedTarget name => [("target", .text name)]
  | unknownOutputKind name => [("kind", .text name)]
  | toolFailed tool exitCode => [("tool", .text tool), ("exit_code", .int exitCode)]
  | bitcodeNotLinked library _ => [("library", .text library)]
  | noFrameworks target => [("target", .text target.name)]
  | missingProperty name target => [("name", .text name), ("target", .text target.name)]
  | badProperties path reason => [("path", .text path), ("reason", .text reason)]
  | libraryNotWritten path reason => [("path", .text path), ("reason", .text reason)]

def message (fault : Fault) : String :=
  match Catalog.standard.errorText fault.code fault.arguments with
  | .ok text => text
  | .error _ => fault.code

/-- The message of a fault with its code. -/
def text (fault : Fault) : String := codedText fault.code fault.message

end Fault

end Foundry
