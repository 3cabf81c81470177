import Foundry.Proofs.FileSystem.Extension
import Foundry.Proofs.Process.Executor

/-! What processes write, and the archives that the archiver made in a run. -/
namespace Foundry

/-- The archive that a process made, and its content, if it was an archiver that succeeded. -/
def Outcome.archive? : List String × Outcome → Option (String × Bytes)
  | (tool :: _ :: archive :: _, .finished 0 _ product) =>
    if Text.baseName tool = "llvm-ar" then some (archive, product) else none
  | _ => none

/-- The archives that were made after `before` and up to `after`, in order. -/
def Session.archivesSince (before after : Session) : List (String × Bytes) :=
  (before.host.tools.answers (before.started.map (·.argv))
    (after.started.drop before.started.length)).filterMap Outcome.archive?

namespace Session

theorem archivesSince_eq {before after : Session} (new : List Start)
    (started : after.started = before.started ++ new) :
    before.archivesSince after =
      (before.host.tools.answers (before.started.map (·.argv)) new).filterMap Outcome.archive? := by
  simp [archivesSince, started]

theorem archivesSince_same {before after : Session} (started : after.started = before.started) :
    before.archivesSince after = [] := by
  rw [archivesSince_eq [] (by simp [started])]
  rfl

theorem archivesSince_trans {s t u : Session} (host : t.host = s.host)
    (first : s.started <+: t.started) (second : t.started <+: u.started) :
    s.archivesSince u = s.archivesSince t ++ t.archivesSince u := by
  obtain ⟨new, first⟩ := first
  obtain ⟨newer, second⟩ := second
  rw [archivesSince_eq (new ++ newer) (by rw [← second, ← first, List.append_assoc]),
    archivesSince_eq new first.symm, archivesSince_eq newer second.symm, Toolset.answers_append,
    List.filterMap_append, host, ← first, List.map_append]

end Session

namespace Toolset

theorem namedOutput_of_not_mem (absent : "-o" ∉ args) : namedOutput args = none := by
  induction args with
  | nil => rfl
  | cons arg rest ih =>
      simp only [List.mem_cons, not_or] at absent
      simp [namedOutput, Ne.symm absent.1, ih absent.2]

theorem namedOutput_append (absent : "-o" ∉ before) (output : String) (rest : List String) :
    namedOutput (before ++ "-o" :: output :: rest) = some output := by
  induction before with
  | nil => simp [namedOutput]
  | cons arg before ih =>
      simp only [List.mem_cons, not_or] at absent
      simp [namedOutput, Ne.symm absent.1, ih absent.2]

/-- A tool writes the one file that it is told to write. -/
theorem outputs_of_named (absent : "-o" ∉ before) (other : Text.baseName tool ≠ "llvm-ar")
    (notFlag : tool ≠ "-o") (output : String) (rest : List String) :
    outputs (tool :: (before ++ "-o" :: output :: rest)) = [output] := by
  have named : namedOutput (tool :: (before ++ "-o" :: output :: rest)) = some output := by
    rw [← List.cons_append, namedOutput_append (by simp [absent, Ne.symm notFlag])]
  unfold outputs
  rw [named]
  split
  · rename_i tool' _ archive _ args
    obtain rfl := (List.cons.inj args).1
    simp [other]
  · rfl

/-- The archiver writes its archive. -/
theorem outputs_of_archiver (absent : "-o" ∉ objects) (archiver : Text.baseName tool = "llvm-ar")
    (notFlag : tool ≠ "-o") (notFlag' : archive ≠ "-o") :
    outputs (tool :: "rcs" :: archive :: objects) = [archive] := by
  have named : namedOutput (tool :: "rcs" :: archive :: objects) = none :=
    namedOutput_of_not_mem (by simp [absent, Ne.symm notFlag, Ne.symm notFlag'])
  simp [outputs, named, archiver]

end Toolset

theorem FileSystem.writeEach_extends {fs : FileSystem} {Z : Location → Prop}
    (inside : ∀ path ∈ paths, Z (spot fs.here path)) (content : Bytes) :
    fs.Extends Z (fs.writeEach paths content) := by
  induction paths generalizing fs with
  | nil => exact .refl fs
  | cons path rest ih =>
      rw [writeEach, List.foldl_cons]
      have later : ∀ path ∈ rest, Z (spot fs.here path) := fun path member => inside path (by simp [member])
      cases done : fs.write path content with
      | ok fs' =>
          have grown := write_extends done (inside path (by simp))
          exact grown.trans (ih (grown.here ▸ later))
      | error errno => exact ih later

namespace Executor

/-- What is left of a tool that succeeded. -/
theorem runTool_succeeded {executor : Executor} {command : Command} {s t : Session}
    (ran : executor.runTool command s = .ok u t) :
    ∃ stderr product piped, s.outcome command.argv = .finished 0 stderr product ∧
      t.files = s.files.writeEach (Toolset.outputs command.argv) product ∧ t.host = s.host ∧
      t.started = s.started ++ [⟨command.argv, piped⟩] ∧ t.runDirectory = s.runDirectory := by
  obtain ⟨output, errors, journal, same⟩ := executor.runTool_ok command s
  rw [same] at ran
  by_cases success : (s.outcome command.argv).exitCode = 0
  · cases outcome : s.outcome command.argv with
    | notStarted reason => simp [outcome, Outcome.exitCode, notStarted] at success
    | finished code stderr product =>
        obtain rfl : code = 0 := by simpa [outcome, Outcome.exitCode] using success
        simp only [outcome, Outcome.exitCode, if_true] at ran
        cases ran
        refine ⟨stderr, product, _, rfl, ?_, rfl, rfl, rfl⟩
        simp [Session.afterProcess, outcome, Outcome.filesAfter]
  · simp [success] at ran

/-- The archives that a tool made which succeeded. -/
theorem runTool_archives {executor : Executor} {command : Command} {s t : Session}
    (ran : executor.runTool command s = .ok u t) :
    s.started <+: t.started ∧
      s.archivesSince t = (Outcome.archive? (command.argv, s.outcome command.argv)).toList := by
  obtain ⟨stderr, product, piped, outcome, -, -, started, -⟩ := runTool_succeeded ran
  refine ⟨started ▸ List.prefix_append _ _, ?_⟩
  rw [Session.archivesSince_eq _ started]
  simp only [Toolset.answers, List.filterMap_cons, List.filterMap_nil]
  rw [Session.outcome]
  cases Outcome.archive? _ <;> rfl

end Executor

end Foundry
