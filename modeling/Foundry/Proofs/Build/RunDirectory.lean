import Foundry.Proofs.Files.Frame
import Foundry.Proofs.Process.Executor

/-! Steps of a build that start no process and report nothing: those on files, and with them those of
the run directory. -/
namespace Foundry

namespace Run

theorem OnFiles.toolless {run : Run α} (kept : OnFiles F run) : Obeys (toolless F) run := by
  intro s
  obtain ⟨same, kind⟩ := kept.obeys s
  exact ⟨by rw [same], by rw [same], by rw [same], kind⟩

end Run

namespace RunDirectory
open Run Files

theorem path_toolless (stem : String) :
    Obeys (toolless Failure.IsOfFile) (path stem) := by
  refine obeys_get.bind fun _ => ?_
  split
  · exact obeys_pure _
  · refine (makeTemporaryDirectory_filesOnly _).toolless.bind fun _ => ?_
    exact (obeys_modify fun _ => ⟨rfl, rfl, rfl, by simp⟩).bind fun _ => obeys_pure _

theorem create_toolless (stem name suffix : String) :
    Obeys (toolless Failure.IsOfFile) (create stem name suffix) :=
  (path_toolless stem).bind fun _ =>
    (makeTemporaryFile_filesOnly _ _ _).toolless

theorem named_toolless (stem name : String) :
    Obeys (toolless Failure.IsOfFile) (named stem name) :=
  (path_toolless stem).bind fun _ => obeys_pure _

/-- Removing the run directory never fails. -/
theorem remove_toolless : Obeys (toolless fun _ => False) remove := by
  refine obeys_get.bind fun _ => ?_
  split
  · refine (discardTree_filesOnly _).toolless.bind fun _ => ?_
    exact obeys_modify fun _ => ⟨rfl, rfl, rfl, by simp⟩
  · exact obeys_pure _

theorem remove_ok (s : Session) :
    ∃ t, remove s = .ok () t ∧ t.host = s.host ∧ t.started = s.started ∧ t.report = s.report := by
  have kept := remove_toolless s
  cases removed : remove s with
  | ok _ t =>
      obtain ⟨host, started, report, _⟩ := kept.of_ok removed
      exact ⟨t, rfl, host, started, report⟩
  | error e t => exact ((kept.of_error removed).2.2.2 e rfl).elim

end RunDirectory

end Foundry
