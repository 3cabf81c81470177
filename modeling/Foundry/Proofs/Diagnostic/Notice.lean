import Foundry.Diagnostic.Notice
import Foundry.Proofs.Diagnostic.Template

/-! What notices add to a report. -/
namespace Foundry

namespace Report

theorem errors_push (report : Report) (item : Diagnostic) :
    (report.push item).errors =
      report.errors ++ if item.severity = .error then [item] else [] := by
  simp only [errors, push, List.filter_append, List.filter_cons, List.filter_nil, decide_eq_true_eq]

end Report

namespace Notice

/-- The message about a static library that is of no use for a target. -/
def archiveMessage (path : String) (target : Target) : String :=
  "static library '" ++ path ++ ("' is not valid for target '" ++ target.name ++ "'")

/-- The diagnostic about a static library that is of no use for a target. -/
def archiveWarning (path : String) (target : Target) (stage : String) : Diagnostic :=
  ⟨.warning, "CW4009", archiveMessage path target, some stage⟩

/-- The diagnostic about a link that failed. -/
def linkError (stage : String) : Diagnostic :=
  ⟨.error, "CE4003", "linker invocation reported errors", some stage⟩

theorem append_middle_inj {before behind a b : String}
    (same : before ++ a ++ behind = before ++ b ++ behind) : a = b := by
  simpa [← String.toList_inj] using same

theorem archiveWarning_injective (target : Target) (stage : String) :
    Function.Injective (archiveWarning · target stage) := by
  intro a b same
  have message : archiveMessage a target = archiveMessage b target :=
    congrArg Diagnostic.message same
  exact append_middle_inj message

theorem addTo_linkFailed (stage : String) (report : Report) :
    linkFailed.addTo stage report = report.push (linkError stage) := rfl

theorem archiveSkipped_filled (path : String) (target : Target) :
    Template.fill "static library '\x7bpath\x7d' is not valid for target '\x7btarget\x7d'"
      (archiveSkipped path target).arguments = .ok (archiveMessage path target) :=
  Template.fill_two (a := "path") (b := "target") "static library '"
    "' is not valid for target '" "'" rfl rfl rfl

theorem addTo_archiveSkipped (path : String) (target : Target) (stage : String)
    (report : Report) :
    (archiveSkipped path target).addTo stage report =
      report.push (archiveWarning path target stage) := by
  have found : Catalog.standard.get? (archiveSkipped path target).code = some
      ⟨"CW4009", .warning,
        "static library '\x7bpath\x7d' is not valid for target '\x7btarget\x7d'", .link,
        "The file does not have a static library format accepted by the target; it is skipped."⟩ :=
    rfl
  have text : Catalog.standard.text (archiveSkipped path target).code
      (archiveSkipped path target).arguments = .ok (archiveMessage path target) := by
    simp only [Catalog.text, found, archiveSkipped_filled]
    rfl
  have free : ["r", "em", "stage"].any (archiveSkipped path target).arguments.has = false := rfl
  simp only [addTo, Report.emit, free, found, text]
  rfl

end Notice

end Foundry
