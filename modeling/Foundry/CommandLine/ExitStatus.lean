/-! How a program ends. -/
namespace Foundry.CommandLine

inductive ExitStatus where
  | success
  /-- There is an artifact, and there are warnings. -/
  | warned
  /-- There is no artifact, or nothing was to be done that could be. -/
  | failed
deriving DecidableEq, Repr

def ExitStatus.code : ExitStatus → Nat
  | success => 0
  | warned => 1
  | failed => 2

end Foundry.CommandLine
