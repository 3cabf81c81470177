import Foundry.Proofs.Files.Relation

/-! Which operations on files only let the file system grow, and where they write. -/
namespace Foundry

open FileSystem

namespace Run

/-- In the directory `here`, the files only grow, and they are written in places of `Z`. -/
def extending (here : Location) (Z : Location → Prop) : Contract := fun _ s t =>
  s.files.here = here → s.files.Extends Z t.files

instance (here : Location) (Z : Location → Prop) : (extending here Z).Composes :=
  inferInstanceAs (relating here (Extends Z)).Composes

variable {here : Location} {Z Z' : Location → Prop}

theorem Obeys.extending {run : Run α} (kept : Obeys still run) : Obeys (extending here Z) run :=
  kept.relating

end Run

namespace Files
open Run

section Growth
variable {here : Location} {Z : Location → Prop}

theorem makeDirectories_extending (path : Path) : Obeys (extending here Z) (makeDirectories path) :=
  makeDirectories_relating fun _ _ _ _ _ done => makeDirectory_extends done

theorem ensureDirectories_extending (path : Path) (depth : Nat) :
    Obeys (extending here Z) (ensureDirectories path depth) :=
  ensureDirectories_relating (fun _ _ _ _ _ done => makeDirectory_extends done) depth

theorem makeMissing_extending (path : Path) (depth : Nat) :
    Obeys (extending here Z) (makeMissing path depth) :=
  makeMissing_relating (fun _ _ _ _ _ done => makeDirectory_extends done) depth

end Growth

/-- A directory that was ensured is there. -/
theorem ensureDirectory_ok {path : Path} {s t : Session} (ran : ensureDirectory path s = .ok u t) :
    t.files.entry? (spot s.files.here path.text) = some .directory := by
  obtain ⟨_, a, clean, rest⟩ := bind_eq_ok.mp ran
  obtain ⟨fs, b, found, ensured⟩ := bind_eq_ok.mp rest
  obtain rfl := (checked_ok clean).1
  obtain ⟨rfl, rfl⟩ := current_ok.mp found
  cases done : a.files.makeDirectory path.text with
  | ok fs =>
      simp only [done] at ensured
      obtain rfl := replace_ok.mp ensured
      obtain ⟨standing, -, rfl⟩ := makeDirectory_ok done
      exact entry?_put_self _ standing.below _
  | error errno =>
      simp only [done] at ensured
      split at ensured
      · nomatch ensured
      · obtain ⟨seen, c, looked, told⟩ := bind_eq_ok.mp ensured
        obtain ⟨rfl, status, -⟩ := lookStrictly_ok looked
        split at told
        · rename_i directory
          obtain ⟨-, rfl⟩ := pure_eq_ok.mp told
          exact (stat_ok (status _ directory)).2
        · nomatch told

theorem ensureDirectories_ok {path : Path} {s t : Session}
    (ran : ensureDirectories path depth s = .ok u t) :
    t.files.entry? (spot s.files.here path.text) = some .directory := by
  cases depth with
  | zero => exact ensureDirectory_ok ran
  | succ depth =>
      obtain ⟨_, a, clean, rest⟩ := bind_eq_ok.mp ran
      obtain ⟨fs, b, found, ensured⟩ := bind_eq_ok.mp rest
      obtain rfl := (checked_ok clean).1
      obtain ⟨rfl, rfl⟩ := current_ok.mp found
      cases done : a.files.makeDirectory path.text with
      | ok fs =>
          simp only [done] at ensured
          exact ensureDirectory_ok ensured
      | error errno =>
          cases errno with
          | noEntry =>
              simp only [done] at ensured
              split at ensured
              · nomatch ensured
              · obtain ⟨_, b, above, last⟩ := bind_eq_ok.mp ensured
                have kept : Obeys (extending a.files.here fun _ => False)
                    (ensureDirectories path.parent depth) := ensureDirectories_extending _ _
                have grown := (kept a).of_ok above rfl
                exact grown.here ▸ ensureDirectory_ok last
          | _ =>
              simp only [done] at ensured
              exact ensureDirectory_ok ensured

end Files

end Foundry
