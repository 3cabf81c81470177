import Foundry.Proofs.FileSystem.Change
import Foundry.Proofs.Files.Operation

/-! What the file operations of a run do to the file system, from what the operations of the system
do that they are made of. However a run ends, the file systems before and after it are related. -/
namespace Foundry

open FileSystem

/-- A relation between a file system and a later one with the same current directory. -/
class FileSystem.Relates (R : FileSystem → FileSystem → Prop) : Prop where
  refl (fs : FileSystem) : R fs fs
  trans {a b c : FileSystem} : R a b → R b c → R a c
  here {a b : FileSystem} : R a b → b.here = a.here

instance (Z : Location → Prop) : Relates (Extends Z) := ⟨.refl, .trans, Extends.here⟩

instance (A D : Location → Prop) : Relates (Changes A D) := ⟨.refl, .trans, Changes.here⟩

instance (Z D : Location → Prop) : Relates (Grows Z D) :=
  ⟨.refl, .trans, fun grown => grown.here⟩

namespace Run

/-- The files stay as they are. -/
def still : Contract := fun _ s t => t.files = s.files

instance : Contract.Composes still := ⟨fun _ => rfl, fun first second => second.trans first⟩

/-- In the directory `here`, the files before and after are related by `R`. -/
def relating (here : Location) (R : FileSystem → FileSystem → Prop) : Contract := fun _ s t =>
  s.files.here = here → R s.files t.files

/-- In the directory `here`, nothing changes outside of `A`, but directories are made in `D`. -/
abbrev changing (here : Location) (A D : Location → Prop) : Contract := relating here (Changes A D)

section
variable {here : Location} {R : FileSystem → FileSystem → Prop} [Relates R]

instance : (relating here R).Composes where
  refl s := fun _ => Relates.refl s.files
  trans first second := fun same =>
    Relates.trans (first same) (second ((Relates.here (first same)).trans same))

theorem Obeys.relating {run : Run α} (kept : Obeys still run) : Obeys (relating here R) run := by
  intro s same
  rw [kept s]
  exact Relates.refl _

/-- The last step is related too, whether it comes after a success or a failure. -/
theorem relating_ensuring {body : Run α} {finish : Run Unit} (kept : Obeys (Run.relating here R) body)
    (finished : Obeys (Run.relating here R) finish) :
    Obeys (Run.relating here R) (ensuring body finish) := by
  intro s same
  have first := kept s same
  rw [after_ensuring]
  exact Relates.trans first (finished _ ((Relates.here first).trans same))

end

theorem throw_still (e : Failure) : Obeys still (throw e : Run α) := fun _ => rfl

end Run

namespace Files
open Run

theorem meets_current {P : Contract} {next : FileSystem → Run α} (kept : Meets P (next s.files) s) :
    Meets P (current >>= next) s := kept

theorem current_still : Obeys still current := fun _ => rfl

theorem checked_still (path : String) : Obeys still (checked path) := by
  unfold checked
  split
  · exact throw_still _
  · exact obeys_pure _

theorem settle_still (name : FileName) (result : Except Errno α) : Obeys still (settle name result) := by
  cases result with
  | ok a => exact obeys_pure a
  | error errno => exact throw_still _

theorem ask_still (path : String) (question : FileSystem → Except Errno α) :
    Obeys still (ask path question) :=
  (checked_still path).bind fun _ => current_still.bind fun _ => settle_still _ _

theorem look_still (path : String) : Obeys still (look path) := by
  unfold look
  split
  · exact obeys_pure _
  · refine current_still.bind fun fs => ?_
    split <;> exact obeys_pure _

theorem lookStrictly_still (path : String) : Obeys still (lookStrictly path) := by
  unfold lookStrictly
  split
  · exact obeys_pure _
  · refine current_still.bind fun fs => ?_
    split
    · exact obeys_pure _
    · exact obeys_pure _
    · exact obeys_pure _
    · exact throw_still _

theorem absolute_still (path : Path) : Obeys still (absolute path) := fun _ => rfl

theorem draw_still : Obeys still draw := fun _ => rfl

theorem same_still (first second : String) : Obeys still (same first second) := by
  refine (checked_still _).bind fun _ => current_still.bind fun fs => ?_
  split
  · exact obeys_pure _
  · refine (checked_still _).bind fun _ => ?_
    split <;> exact obeys_pure _

theorem leadsInto_still (source target : String) : Obeys still (leadsInto source target) :=
  (absolute_still _).bind fun _ => (absolute_still _).bind fun _ => obeys_pure _

section
variable {here : Location} {R : FileSystem → FileSystem → Prop} [Relates R]

omit [Relates R] in
theorem replace_relating {fs : FileSystem} (related : s.files.here = here → R s.files fs) :
    Meets (relating here R) (replace fs) s := related

theorem change_relating {path : String} {action : FileSystem → Except Errno FileSystem}
    (relates : ∀ fs fs' : FileSystem, fs.here = here → action fs = .ok fs' → R fs fs') :
    Obeys (relating here R) (change path action) := by
  intro s
  refine Meets.bind ((ask_still path action).relating s) fun fs t asked => ?_
  obtain ⟨done, rfl⟩ := ask_ok asked
  exact replace_relating fun same => relates _ _ same done

theorem ensureDirectory_relating {path : Path}
    (relates : ∀ fs fs' : FileSystem, fs.here = here → fs.makeDirectory path.text = .ok fs' → R fs fs') :
    Obeys (relating here R) (ensureDirectory path) := by
  intro s
  refine Meets.bind ((checked_still _).relating s) fun _ t _ => meets_current ?_
  split
  · rename_i fs done
    exact replace_relating fun same => relates _ _ same done
  · suffices settled : Obeys still _ from settled.relating t
    split
    · exact throw_still _
    · refine (lookStrictly_still _).bind fun _ => ?_
      split
      · exact obeys_pure _
      · exact throw_still _

section Ways

omit [Relates R] in
theorem relates_above {path : Path} (relates : ∀ first : Path, first.Begins path →
    ∀ fs fs' : FileSystem, fs.here = here → fs.makeDirectory first.text = .ok fs' → R fs fs') :
    ∀ first : Path, first.Begins path.parent → ∀ fs fs' : FileSystem, fs.here = here →
      fs.makeDirectory first.text = .ok fs' → R fs fs' :=
  fun first begins => relates first (begins.trans path.parent_begins)

variable {path : Path} (relates : ∀ first : Path, first.Begins path → ∀ fs fs' : FileSystem,
  fs.here = here → fs.makeDirectory first.text = .ok fs' → R fs fs')
include relates

theorem ensureDirectories_relating (depth : Nat) :
    Obeys (relating here R) (ensureDirectories path depth) := by
  induction depth generalizing path with
  | zero => exact ensureDirectory_relating (relates path (.refl path))
  | succ depth ih =>
      refine (checked_still _).relating.bind fun _ => current_still.relating.bind fun _ => ?_
      have last := ensureDirectory_relating (relates path (.refl path))
      have making := (ih (relates_above relates)).bind fun _ => last
      split
      · split
        · exact (throw_still _).relating.bind fun _ => making
        · exact making
      · exact last

theorem makeDirectories_relating : Obeys (relating here R) (makeDirectories path) :=
  ensureDirectories_relating relates _

theorem makeMissing_relating (depth : Nat) : Obeys (relating here R) (makeMissing path depth) := by
  induction depth generalizing path with
  | zero => exact change_relating (relates path (.refl path))
  | succ depth ih =>
      refine (look_still _).relating.bind fun _ => ?_
      have last : Obeys (relating here R) (change path.text fun fs => fs.makeDirectory path.text) :=
        change_relating (relates path (.refl path))
      split
      · refine Obeys.bind ?_ fun _ => last
        have made := ih (relates_above relates)
        apply Obeys.tryCatch made
        intro e s t failed
        have kept := (made s).of_error failed
        split
        · exact kept
        · exact kept
      · exact last

end Ways

theorem write_relating {path : String} {content : Bytes}
    (relates : ∀ fs fs' : FileSystem, fs.here = here → fs.write path content = .ok fs' → R fs fs') :
    Obeys (relating here R) (write path content) := change_relating relates

theorem copy_relating {source : String} {target : FileName}
    (relates : ∀ (content : Bytes) (fs fs' : FileSystem), fs.here = here →
      fs.read source = .ok content → fs.write target.plain content = .ok fs' → R fs fs') :
    Obeys (relating here R) (copy source target) := by
  refine (same_still _ _).relating.bind fun _ => ?_
  split
  focus refine (throw_still _).relating.bind fun _ => ?_
  all_goals
    intro s
    refine Meets.bind ((ask_still _ _).relating s) fun content t asked => ?_
    obtain ⟨readable, rfl⟩ := ask_ok asked
    refine Meets.bind ((checked_still _).relating t) fun _ u clean => meets_current ?_
    obtain rfl := (checked_ok clean).1
    split
    · rename_i fs done
      exact replace_relating fun same => relates content _ _ same readable done
    · refine ((look_still _).relating.bind fun _ => ?_) u
      split <;> exact (throw_still _).relating
    · exact (throw_still _).relating u

theorem removeTree_relating {name : FileName}
    (relates : ∀ (fs fs' : FileSystem) (refused : Option Errno), fs.here = here →
      fs.removeTree name.plain = .ok (fs', refused) → R fs fs') :
    Obeys (relating here R) (removeTree name) := by
  refine (checked_still _).relating.bind fun _ s => meets_current ?_
  split
  · rename_i fs done
    exact replace_relating fun same => relates _ _ _ same done
  · rename_i fs errno done
    refine Meets.bind (replace_relating fun same => relates _ _ _ same done) fun _ t _ => ?_
    exact (throw_still _).relating t
  · refine ((look_still _).relating.bind fun _ => ?_) s
    split
    · exact (throw_still _).relating
    · exact (throw_still _).relating
  · exact (throw_still _).relating s

theorem discardTree_relating {path : String}
    (relates : ∀ (fs fs' : FileSystem) (refused : Option Errno), fs.here = here →
      fs.removeTree path = .ok (fs', refused) → R fs fs') :
    Obeys (relating here R) (discardTree path) := by
  unfold discardTree
  split
  · exact obeys_pure _
  · intro s
    refine meets_current ?_
    split
    · rename_i fs refused done
      exact replace_relating fun same => relates _ _ _ same done
    · exact obeys_pure _ s

theorem discardFile_relating {path : String}
    (relates : ∀ fs fs' : FileSystem, fs.here = here → fs.removeFile path = .ok fs' → R fs fs') :
    Obeys (relating here R) (discardFile path) := by
  refine (checked_still _).relating.bind fun _ s => meets_current ?_
  split
  · rename_i fs done
    exact replace_relating fun same => relates _ _ same done
  · exact obeys_pure _ s
  · exact (throw_still _).relating s

section Moving

variable {source place : String}
  (renames : ∀ fs fs' : FileSystem, fs.here = here → fs.rename source place = .ok fs' → R fs fs')
  (copies : ∀ (content : Bytes) (fs fs' : FileSystem), fs.here = here →
    fs.read source = .ok content → fs.write place content = .ok fs' → R fs fs')
  (removes : ∀ fs fs' : FileSystem, fs.here = here → fs.removeFile source = .ok fs' → R fs fs')
  (makes : ∀ first : Path, first.Begins (.ofText place) → ∀ fs fs' : FileSystem, fs.here = here →
    fs.makeDirectory first.text = .ok fs' → R fs fs')
include renames copies removes makes

/-- Moving something to where no directory is seen, in one step or as the system cannot. -/
theorem go_relating {target : String} (unseen : look place s ≠ .ok (some .directory) s) :
    Meets (relating here R) (move.go source target place) s := by
  have moving : Obeys (relating here R) (change place fun fs => fs.rename source place) :=
    change_relating renames
  have copying : Obeys (relating here R)
      (copy source (.text place) >>= fun _ => change source fun fs => fs.removeFile source) :=
    (copy_relating copies).bind fun _ => change_relating removes
  refine Meets.bind ((checked_still _).relating s) fun _ t clean => ?_
  obtain rfl := (checked_ok clean).1
  refine Meets.bind ((checked_still _).relating t) fun _ u clean' => meets_current ?_
  obtain rfl := (checked_ok clean').1
  split
  · rename_i fs done
    exact replace_relating fun same => renames _ _ same done
  · refine Meets.bind ((look_still _).relating u) fun seen v looked => ?_
    obtain rfl := (look_ok looked).1
    split
    · have making : Obeys (relating here R)
          (makeMissing (.ofText place) (Path.ofText place).parts.length) :=
        makeMissing_relating makes _
      refine ((leadsInto_still _ _).relating.bind fun inside => ?_) v
      split
      · exact (throw_still _).relating.bind fun _ => making.bind fun _ => moving
      · exact making.bind fun _ => moving
    · refine Meets.bind ((look_still _).relating v) fun seen' x looked' => ?_
      obtain rfl := (look_ok looked').1
      have other : seen' ≠ some .directory := by
        rintro rfl
        exact unseen looked'
      rw [if_neg other]
      exact copying x

end Moving

/-- Moving something to a path, or into the directory that is there. -/
theorem move_relating {source target : String}
    (renames : ∀ (place : String) (fs fs' : FileSystem), fs.here = here →
      place = target ∨ place = joinPaths target (lastName source) →
      fs.rename source place = .ok fs' → R fs fs')
    (copies : ∀ (place : String) (content : Bytes) (fs fs' : FileSystem), fs.here = here →
      place = target ∨ place = joinPaths target (lastName source) →
      fs.read source = .ok content → fs.write place content = .ok fs' → R fs fs')
    (removes : ∀ fs fs' : FileSystem, fs.here = here → fs.removeFile source = .ok fs' → R fs fs')
    (makes : ∀ place : String, place = target ∨ place = joinPaths target (lastName source) →
      ∀ first : Path, first.Begins (.ofText place) → ∀ fs fs' : FileSystem, fs.here = here →
      fs.makeDirectory first.text = .ok fs' → R fs fs') :
    Obeys (relating here R) (move source target) := by
  intro s
  have going {t : Session} (place : String)
      (which : place = target ∨ place = joinPaths target (lastName source))
      (unseen : look place t ≠ .ok (some .directory) t) :
      Meets (relating here R) (move.go source target place) t :=
    go_relating (fun fs fs' same => renames place fs fs' same which)
      (fun content fs fs' same => copies place content fs fs' same which) removes
      (makes place which) unseen
  refine Meets.bind ((look_still _).relating s) fun seen t looked => ?_
  obtain rfl := (look_ok looked).1
  split
  · refine Meets.bind ((same_still _ _).relating t) fun alike u compared => ?_
    obtain rfl := (same_ok compared).1
    split
    · exact change_relating (fun fs fs' same => renames target fs fs' same (.inl rfl)) u
    · refine Meets.bind ((look_still _).relating u) fun taken v looked' => ?_
      obtain rfl := (look_ok looked').1
      cases taken with
      | some entry => exact (throw_still _).relating v
      | none =>
          refine going _ (.inr rfl) fun directory => ?_
          rw [looked'] at directory
          nomatch directory
  · rename_i other
    refine going target (.inl rfl) fun directory => ?_
    rw [looked] at directory
    cases directory
    exact other rfl

end

section Removal
variable {here : Location} {A D : Location → Prop}

theorem removeTree_changing {name : FileName}
    (inside : ∀ place, within (spot here name.plain) place = true → A place) :
    Obeys (changing here A D) (removeTree name) :=
  removeTree_relating fun _ _ _ same done => removeTree_changes done (same ▸ inside)

theorem discardTree_changing {path : String}
    (inside : ∀ place, within (spot here path) place = true → A place) :
    Obeys (changing here A D) (discardTree path) :=
  discardTree_relating fun _ _ _ same done => removeTree_changes done (same ▸ inside)

end Removal

end Files

end Foundry
