import Foundry.Proofs.Files.Frame
import Foundry.Proofs.Files.Listing
import Foundry.Proofs.Files.Move
import Foundry.Proofs.FileSystem.Regular

/-! What file operations fail with on paths that the system can be asked about: they are refused, for
whatever reason, and fail in no other way. -/
namespace Foundry

/-- An operation was refused by the system. -/
def Failure.IsRefusal : Failure → Prop
  | .refusal _ => True
  | _ => False

namespace Files
open Run

theorem holdsZero_begins {first path : Path} (begins : first.Begins path)
    (whole : holdsZero path.text = false) : holdsZero first.text = false := by
  rw [Bool.eq_false_iff, ne_eq, holdsZero_text] at whole ⊢
  rintro ⟨part, member, zero⟩
  exact whole ⟨part, begins.2.subset member, zero⟩

/-- Parts of a text hold what the text holds. -/
theorem holdsZero_of_subset {part text : String} (inside : part.toList ⊆ text.toList)
    (whole : holdsZero text = false) : holdsZero part = false := by
  rw [holdsZero, List.contains_eq_mem, decide_eq_false_iff_not]
  exact fun zero => not_mem_of_holdsZero whole (inside zero)

theorem baseName_subset (path : String) : (Text.baseName path).toList ⊆ path.toList := by
  intro c member
  rw [Text.baseName, String.toList_ofList, List.mem_reverse] at member
  exact List.mem_reverse.mp ((List.takeWhile_sublist _).subset member)

theorem lastName_subset (path : String) : (lastName path).toList ⊆ path.toList := by
  intro c member
  have inside := baseName_subset _ member
  rw [String.toList_ofList, List.mem_reverse] at inside
  exact List.mem_reverse.mp ((List.dropWhile_sublist _).subset inside)

theorem holdsZero_joinPaths {first second : String} (whole : holdsZero first = false)
    (whole' : holdsZero second = false) : holdsZero (joinPaths first second) = false := by
  have first' := not_mem_of_holdsZero whole
  have second' := not_mem_of_holdsZero whole'
  unfold joinPaths
  split
  · exact whole'
  · split <;> simp [holdsZero, first', second']

section Refusals

theorem refused_refuses (r : Refusal) : OnFiles Failure.IsRefusal (throw (.refusal r) : Run α) :=
  .throw trivial

theorem lookStrictly_refuses (path : String) : OnFiles Failure.IsRefusal (lookStrictly path) := by
  unfold lookStrictly
  split
  · exact .pure _
  · refine current_filesOnly.bind fun _ => ?_
    split
    · exact .pure _
    · exact .pure _
    · exact .pure _
    · exact refused_refuses _

variable {path source target place : String}

section Path
variable (whole : holdsZero path = false)
include whole

theorem checked_whole : OnFiles F (checked path) := by
  unfold checked
  rw [whole, if_neg Bool.false_ne_true]
  exact .pure _

theorem ask_refuses (question : FileSystem → Except Errno α) :
    OnFiles Failure.IsRefusal (ask path question) := by
  refine (checked_whole whole).bind fun _ => current_filesOnly.bind fun fs => ?_
  cases question fs with
  | ok a => exact .pure a
  | error errno => exact refused_refuses _

theorem change_refuses (action : FileSystem → Except Errno FileSystem) :
    OnFiles Failure.IsRefusal (change path action) :=
  (ask_refuses whole action).bind replace_filesOnly

end Path

theorem ensureDirectory_refuses {path : Path} (whole : holdsZero path.text = false) :
    OnFiles Failure.IsRefusal (ensureDirectory path) := by
  refine (checked_whole whole).bind fun _ => current_filesOnly.bind fun _ => ?_
  split
  · exact replace_filesOnly _
  · split
    · exact refused_refuses _
    · refine (lookStrictly_refuses _).bind fun _ => ?_
      split
      · exact .pure _
      · exact refused_refuses _

theorem ensureDirectories_refuses {path : Path} (whole : holdsZero path.text = false) (depth : Nat) :
    OnFiles Failure.IsRefusal (ensureDirectories path depth) := by
  induction depth generalizing path with
  | zero => exact ensureDirectory_refuses whole
  | succ depth ih =>
      have above := ih (holdsZero_begins path.parent_begins whole)
      have making := above.bind fun _ => ensureDirectory_refuses whole
      refine (checked_whole whole).bind fun _ => current_filesOnly.bind fun _ => ?_
      split
      · split
        · exact (refused_refuses _).bind fun _ => making
        · exact making
      · exact ensureDirectory_refuses whole

theorem makeMissing_refuses {path : Path} (whole : holdsZero path.text = false) (depth : Nat) :
    OnFiles Failure.IsRefusal (makeMissing path depth) := by
  induction depth generalizing path with
  | zero => exact change_refuses whole _
  | succ depth ih =>
      refine (look_filesOnly _).bind fun _ => ?_
      split
      · refine OnFiles.bind ?_ fun _ => change_refuses whole _
        refine (ih (holdsZero_begins path.parent_begins whole)).tryCatch fun e kind => ?_
        split
        · exact .pure _
        · exact .throw kind
      · exact change_refuses whole _

theorem removeTree_refuses {name : FileName} (whole : holdsZero name.plain = false) :
    OnFiles Failure.IsRefusal (removeTree name) := by
  refine (checked_whole whole).bind fun _ => current_filesOnly.bind fun _ => ?_
  split
  · exact replace_filesOnly _
  · exact (replace_filesOnly _).bind fun _ => refused_refuses _
  · refine (look_filesOnly _).bind fun _ => ?_
    split <;> exact refused_refuses _
  · exact refused_refuses _

theorem same_refuses (whole : holdsZero source = false) (whole' : holdsZero target = false) :
    OnFiles Failure.IsRefusal (same source target) := by
  refine (checked_whole whole).bind fun _ => current_filesOnly.bind fun _ => ?_
  split
  · exact .pure _
  · refine (checked_whole whole').bind fun _ => ?_
    split <;> exact .pure _

theorem copy_refuses {target : FileName} (whole : holdsZero source = false)
    (whole' : holdsZero target.plain = false) : OnFiles Failure.IsRefusal (copy source target) := by
  refine (same_refuses whole whole').bind fun _ => ?_
  split
  focus refine (refused_refuses _).bind fun _ => ?_
  all_goals
    refine (ask_refuses whole _).bind fun _ => (checked_whole whole').bind fun _ =>
      current_filesOnly.bind fun _ => ?_
    split
    · exact replace_filesOnly _
    · refine (look_filesOnly _).bind fun _ => ?_
      split <;> exact refused_refuses _
    · exact refused_refuses _

variable (sourced : holdsZero source = false)
include sourced

section Places
variable (placed : holdsZero place = false)
include placed

theorem moveByCopy_refuses : OnFiles Failure.IsRefusal (moveByCopy source target place) := by
  have missing : holdsZero (Path.ofText place).text = false := by
    rw [Bool.eq_false_iff, ne_eq, holdsZero_text]
    rintro ⟨part, member, zero⟩
    exact not_mem_of_partsOf (not_mem_of_holdsZero placed) member zero
  have making := (makeMissing_refuses missing (Path.ofText place).parts.length).bind fun _ =>
    change_refuses placed fun fs => fs.rename source place
  refine (look_filesOnly _).bind fun _ => ?_
  split
  · refine (leadsInto_filesOnly _ _).bind fun _ => ?_
    split
    · exact (refused_refuses _).bind fun _ => making
    · exact making
  · refine (look_filesOnly _).bind fun _ => (copy_refuses sourced ?_).bind fun _ =>
      change_refuses sourced _
    rw [FileName.plain]
    split
    · exact holdsZero_joinPaths placed (holdsZero_of_subset (baseName_subset source) sourced)
    · exact placed

theorem go_refuses : OnFiles Failure.IsRefusal (move.go source target place) := by
  refine (checked_whole sourced).bind fun _ => (checked_whole placed).bind fun _ =>
    current_filesOnly.bind fun _ => ?_
  split
  · exact replace_filesOnly _
  · exact moveByCopy_refuses sourced placed

end Places

theorem move_refuses (whole : holdsZero target = false) :
    OnFiles Failure.IsRefusal (move source target) := by
  have inside := holdsZero_joinPaths whole (holdsZero_of_subset (lastName_subset source) sourced)
  refine (look_filesOnly _).bind fun _ => ?_
  split
  · refine (same_refuses sourced whole).bind fun _ => ?_
    split
    · exact change_refuses sourced _
    · refine (look_filesOnly _).bind fun _ => ?_
      split
      · exact refused_refuses _
      · exact go_refuses sourced inside
  · exact go_refuses sourced whole

/-- Nothing is moved to a path that the system cannot be asked about. -/
theorem move_zero (zero : holdsZero target = true) (s : Session) :
    move source target s = .error .zeroInPath s := by
  have looked : look target s = .ok none s := by
    rw [look, if_pos zero]
    rfl
  have refused : checked target s = .error .zeroInPath s := by
    rw [checked, if_pos zero]
    rfl
  have unseen : look target s ≠ .ok (some .directory) s := by
    rw [looked]
    simp
  rw [move_unseen _ unseen, move.go, bind_of_ok (checked_of_whole sourced s)]
  exact bind_eq_error.mpr (.inl refused)

theorem move_failure_iff : (move source target).failure? s = some e ∧ ¬ e.IsRefusal ↔
    holdsZero target = true ∧ e = .zeroInPath := by
  cases zero : holdsZero target with
  | true =>
      have failed := failure?_eq_some.mpr ⟨s, move_zero sourced zero s⟩
      simpa using failure?_iff (K := Failure.IsRefusal) failed id
  | false => exact iff_of_false (move_refuses sourced zero).no_other_failure (by simp)

end Refusals

end Files

end Foundry
