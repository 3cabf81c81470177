import Foundry.Diagnostic.Report
import Foundry.Target.Basic

/-! What a build reports without being stopped by it. -/
namespace Foundry

inductive Notice where
  | linkFailed
  | archiveSkipped (path : String) (target : Target)
deriving DecidableEq, Repr

namespace Notice

def code : Notice → String
  | linkFailed => "CE4003"
  | archiveSkipped .. => "CW4009"

/-- What a notice puts into the message of its code. -/
def arguments : Notice → Table
  | linkFailed => []
  | archiveSkipped path target => [("path", .text path), ("target", .text target.name)]

def addTo (notice : Notice) (stage : String) (report : Report) : Report :=
  match report.emit Catalog.standard notice.code (some stage) notice.arguments with
  | .ok report => report
  | .error _ => report

end Notice

end Foundry
