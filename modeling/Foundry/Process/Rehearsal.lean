import Foundry.FileSystem.Errno
import Foundry.Process.Toolset
import Foundry.Text.Utf8

/-! Toolsets given by rules, for rehearsing a build.

A rule is about one tool, perhaps only about its n-th start that the rules before it leave to it. A
process that no rule is about succeeds and writes a line with its name. -/
namespace Foundry

structure ToolRule where
  /-- The tool by its path or by its name alone. -/
  tool : String
  /-- The one start that the rule is about, counted from 1; without it the rule is about all. -/
  nth : Option Int := none
  /-- Why the process does not start, if it does not: the symbol of a refusal or any other text. -/
  refusal : Option String := none
  exitCode : Int := 0
  stderr : Bytes := []
  /-- What the tool writes, if it is not a line with its name. -/
  product : Option Bytes := none
deriving DecidableEq, Repr

namespace ToolRule

/-- A rule with the number of starts that came to it. -/
abbrev Counted := ToolRule × Nat

/-- The rule for a start of `tool`, and the rules with that start counted by each rule that it came
to. -/
def select (tool : String) : List Counted → List Counted × Option ToolRule
  | [] => ([], none)
  | (rule, count) :: rest =>
    if rule.tool = tool ∨ rule.tool = Text.baseName tool then
      let count := count + 1
      if rule.nth.all (· = (count : Int)) then ((rule, count) :: rest, some rule)
      else
        let (rest, found) := select tool rest
        ((rule, count) :: rest, found)
    else
      let (rest, found) := select tool rest
      ((rule, count) :: rest, found)

/-- What becomes of a start under the rule for it. -/
def outcome (tool : String) (rule : Option ToolRule) : Outcome :=
  let product := Utf8.encode (Text.baseName tool ++ "\n")
  match rule with
  | none => .finished 0 [] product
  | some rule =>
    match rule.refusal with
    | some reason => .notStarted (((Errno.ofStart.lookup reason).map Errno.text).getD reason)
    | none => .finished rule.exitCode rule.stderr (rule.product.getD product)

end ToolRule

def Toolset.ofRules (rules : List ToolRule) : Toolset where
  respond history argv :=
    let tool := argv.headD ""
    let counted := history.foldl
      (fun counted earlier => (ToolRule.select (earlier.headD "") counted).1)
      (rules.map fun rule => (rule, 0))
    ToolRule.outcome tool (ToolRule.select tool counted).2

end Foundry
