/-! Invocations of external tools. -/
namespace Foundry

/-- An invocation: the path of a tool, its arguments in order, and the libraries that the
invocation carries beside them. -/
structure Command where
  tool : String
  args : List String := []
  libs : List String := []
deriving DecidableEq, Repr

namespace Command

def argv (command : Command) : List String := command.tool :: command.args

def withFlags (command : Command) (flags : List String) : Command :=
  { command with args := command.args ++ flags }

def withLibraries (command : Command) (libs : List String) : Command :=
  { command with libs := command.libs ++ libs }

def text (command : Command) : String := String.intercalate " " command.argv

end Command

end Foundry
