import Foundry.Proofs.FileSystem.Fileless
import Foundry.Proofs.Library.Drafting
import Foundry.Proofs.Library.Publication

/-! How far the publication of a library reaches. Whether it succeeds or not, only the place where the
library is published and the directory around its staging directory change, and no file takes the place
of that directory. -/
namespace Foundry

open FileSystem Run

instance (top : Location) (A : Location → Prop) : Relates (Spares top A) :=
  ⟨.refl, .trans, fun spared => spared.changes.here⟩

namespace LibraryWriter

variable {w : LibraryWriter} {here top : Location}

/-- The path under which the library is published, if there is one. -/
def published? (w : LibraryWriter) : Option Path := if w.unpacked then some w.output else w.packedPath?

/-- Where the library is published: at its path, or below it. -/
def PublishesAt (w : LibraryWriter) (here place : Location) : Prop :=
  ∃ path, w.published? = some path ∧ within (spot here path.text) place = true

/-- Packing writes one file, which it empties first. -/
theorem pack_relating {R : FileSystem → FileSystem → Prop} [Relates R] {archive : Path}
    (writes : ∀ (content : Bytes) (fs fs' : FileSystem), fs.here = here →
      fs.write archive.text content = .ok fs' → R fs fs') :
    Obeys (relating here R) (w.pack archive) := by
  have writing (content : Bytes) : Obeys (relating here R) (Files.write archive.text content) :=
    Files.write_relating fun fs fs' same => writes content fs fs' same
  refine (writing []).bind fun _ => Files.current_still.relating.bind fun fs => ?_
  have listing : Obeys still (Run.ofExcept ((w.items fs archive).mapError .refusal)) :=
    obeys_ofExcept fun _ _ _ => rfl
  exact listing.relating.bind fun items => writing _

/-- Publishing a directory removes what was in its place and moves it there. -/
theorem publishTree_relating {R : FileSystem → FileSystem → Prop} [Relates R]
    (unpacked : w.unpacked = true)
    (clears : ∀ (fs fs' : FileSystem) (refused : Option Errno), fs.here = here →
      fs.removeTree w.output.text = .ok (fs', refused) → R fs fs')
    (renames : ∀ fs fs' : FileSystem, fs.here = here →
      fs.rename w.root.text w.output.text = .ok fs' → R fs fs')
    (copies : ∀ (content : Bytes) (fs fs' : FileSystem), fs.here = here →
      fs.read w.root.text = .ok content → fs.write w.output.text content = .ok fs' → R fs fs')
    (removes : ∀ fs fs' : FileSystem, fs.here = here →
      fs.removeFile w.root.text = .ok fs' → R fs fs')
    (makes : ∀ first : Path, first.Begins (.ofText w.output.text) → ∀ fs fs' : FileSystem,
      fs.here = here → fs.makeDirectory first.text = .ok fs' → R fs fs') :
    Obeys (relating here R) w.publish := by
  have clearing : Obeys (relating here R) (clear w.output.text) := by
    refine (Files.lookStrictly_still _).relating.bind fun seen => ?_
    split
    · exact Files.removeTree_relating clears
    · exact obeys_pure _
  rw [publish_unpacked unpacked]
  intro s
  refine Meets.bind (clearing s) fun _ m cleared => ?_
  have unseen := (clear_ok cleared).2.1
  have going : Meets (relating here R) (Files.move.go w.root.text w.output.text w.output.text) m :=
    Files.go_relating renames copies removes makes unseen
  refine Meets.bind ?_ fun _ t _ => obeys_pure _ t
  simpa only [Meets, failure?, after, Files.move_unseen _ unseen] using going

/-- Publishing a directory changes the place of the library and the layout, and it makes directories
on the way to that place. -/
theorem publishTree_changing (unpacked : w.unpacked = true) :
    Obeys (changing here
      (fun place => within (spot here w.output.text) place = true ∨
        within (w.place here) place = true)
      ((Path.ofText w.output.text).Leads here)) w.publish := by
  refine publishTree_relating unpacked (fun _ _ _ same done => ?_) (fun _ _ same done => ?_)
    (fun _ _ _ same _ done => ?_) (fun _ _ same done => ?_) fun first begins _ _ same done => ?_
  all_goals subst same
  · exact removeTree_changes done fun _ => .inl
  · exact rename_changes done (fun _ => .inr) fun _ => .inl
  · exact write_changes done (.inl (within_self _))
  · exact removeFile_changes done (.inr (within_self _))
  · exact makeDirectory_changes done (.inr ⟨first, begins, rfl⟩)

/-- Where a library may change something while it is published: around its staging directory, and where
it is published. -/
def Reaches (w : LibraryWriter) (here top place : Location) : Prop :=
  within top place = true ∨ w.PublishesAt here place

/-- The library is laid out in the directory `top` or below it, and so is its staging directory. -/
structure StagedIn (w : LibraryWriter) (here top : Location) : Prop where
  clean : w.staging.Clean
  slashless : '/' ∉ w.output.name.toList
  staged : within top (spot here w.staging.text) = true
  rooted : within top (w.place here) = true

theorem StagedAt.stagedIn (at' : w.StagedAt here top) : w.StagedIn here top where
  clean := at'.clean
  slashless := at'.slashless
  staged := at'.staged ▸ within_append _ _
  rooted := by simpa using at'.within_place []

section Publish
variable (laid : w.StagedIn here top)
include laid

/-- What is published as a directory replaces what was there. -/
theorem publishTree_sparing (unpacked : w.unpacked = true) :
    Obeys (relating here (Spares top (w.Reaches here top))) w.publish := by
  have old (place : Location) (inside : within (spot here w.root.text) place = true) :
      w.Reaches here top place := .inl (within_trans laid.rooted inside)
  have new (place : Location) (inside : within (spot here w.output.text) place = true) :
      w.Reaches here top place := .inr ⟨w.output, if_pos unpacked, inside⟩
  have below : within top (spot here w.root.text) = true := laid.rooted
  refine publishTree_relating unpacked (fun _ _ _ same done => ?_) (fun _ _ same done => ?_)
    (fun _ _ _ same readable done => ?_) (fun _ _ same done => ?_) fun _ _ _ _ _ done => ?_
  · subst same
    exact removeTree_spares done new
  · subst same
    exact rename_spares below done old new
  · subst same
    exact copy_spares below readable done (new _ (within_self _))
  · subst same
    exact removeFile_spares done (old _ (within_self _))
  · exact makeDirectory_spares done

theorem pack_sparing {path : Path} (named : IsName path.name) :
    Obeys (relating here (Spares top (w.Reaches here top))) (w.pack (w.staging.child path.name)) := by
  have place := Path.spot_child here laid.clean named
  have inside : within top (spot here (w.staging.child path.name).text) = true := by
    rw [place]
    exact within_trans laid.staged (within_append _ _)
  refine pack_relating fun content fs fs' same done => ?_
  subst same
  refine write_spares done (.inl inside) fun _ itself => ?_
  have length := (within_iff.mp laid.staged).length_le
  rw [← itself, place, List.length_append, List.length_singleton] at length
  omega

/-- An archive is moved from the staging directory to its place, or below it if a directory is there. -/
theorem moveArchive_sparing {path : Path} (named : IsName path.name) (published : w.published? = some path) :
    Obeys (relating here (Spares top (w.Reaches here top)))
      (Files.move (w.staging.child path.name).text path.text) := by
  have last := lastName_staged laid.clean named
  have below : within top (spot here (w.staging.child path.name).text) = true := by
    rw [Path.spot_child here laid.clean named]
    exact within_trans laid.staged (within_append _ _)
  have old : ∀ other, within (spot here (w.staging.child path.name).text) other = true →
      w.Reaches here top other := by
    exact fun other inside => .inl (within_trans below inside)
  have new (path' : String) (which : path' = path.text ∨
      path' = joinPaths path.text (Files.lastName (w.staging.child path.name).text)) :
      ∀ other, within (spot here path') other = true → w.Reaches here top other := by
    intro other inside
    refine .inr ⟨path, published, ?_⟩
    rcases which with same | same
    · exact same ▸ inside
    · rw [same, last, spot_joinPaths_name _ _ named] at inside
      exact within_trans (within_append _ _) inside
  refine Files.move_relating (fun path' _ _ same which done => ?_)
    (fun path' _ _ _ same which readable done => ?_) (fun _ _ same done => ?_)
    (fun _ _ _ _ _ _ _ done => makeDirectory_spares done)
  · subst same
    exact rename_spares below done old (new path' which)
  · subst same
    exact copy_spares below readable done (new path' which _ (within_self _))
  · subst same
    exact removeFile_spares done (old _ (within_self _))

/-- What is published in one file is packed beside the layout. -/
theorem publishArchive_sparing (packed : w.unpacked = false) :
    Obeys (relating here (Spares top (w.Reaches here top))) w.publish := by
  rw [publish, packed, if_neg Bool.false_ne_true]
  intro s
  refine Meets.bind (w.packedPath_still.relating s) fun path t naming => ?_
  obtain ⟨rfl, named⟩ := packedPath_ok naming
  have proper : IsName path.name := named ▸ archiveName_isName laid.slashless
  have published : w.published? = some path := by
    rw [published?, packed, if_neg Bool.false_ne_true]
    exact (packedPath_eq_ok.mp naming).1
  have moving := moveArchive_sparing laid proper published
  exact ((pack_sparing laid proper).bind fun _ => moving.bind fun _ => obeys_pure path) t

theorem publish_sparing : Obeys (relating here (Spares top (w.Reaches here top))) w.publish := by
  cases unpacked : w.unpacked with
  | true => exact publishTree_sparing laid unpacked
  | false => exact publishArchive_sparing laid unpacked

end Publish

section Reach
variable (at' : w.StagedAt here top)
include at'

/-- The ground of a library is around its staging directory. -/
theorem Ground.reached (clean : w.Clean) (ground : w.Ground here other) : w.Reaches here top other := by
  have inside := ground.above clean
  rw [at'.staged, List.dropLast_concat] at inside
  exact .inl inside

theorem discard_sparing (clean : w.Clean) :
    Obeys (relating here (Spares top (w.Reaches here top))) w.discard := by
  refine discard_relating clean (fun path fs fs' refused same inside done => ?_)
    fun path fs fs' same ground done => ?_
  · subst same
    exact removeTree_spares done fun place below => (inside place below).reached at' clean
  · subst same
    exact removeFile_spares done (ground.reached at' clean)

/-- Whether a library is published or not, nothing changes but where it is published and what is around
its staging directory, where no file takes the place of that. -/
theorem commit_sparing (clean : w.Clean) :
    Obeys (relating here (Spares top (w.Reaches here top))) w.commit := by
  have manifest : IsName manifestName := by decide
  have there : spot here (w.root.child manifestName).text = w.place here ++ [manifestName] :=
    Path.spot_child _ (root_clean at'.clean) manifest
  have packing : Obeys still w.packedManifest := by
    unfold packedManifest
    split
    · exact obeys_pure _
    · exact throw_still _
  have writing (content : Bytes) : Obeys (relating here (Spares top (w.Reaches here top)))
      (w.writeFile (w.root.child manifestName) content) := by
    refine reporting_relating (Files.write_relating fun fs fs' same done => ?_)
    subst same
    obtain ⟨first, more, below⟩ := at'.place_below manifestName []
    refine write_spares done (.inl ?_) fun _ itself => ?_
    · rw [there]
      exact at'.within_place _
    · rw [there, below] at itself
      simp at itself
  exact packing.relating.bind fun content => (writing content).bind fun _ =>
    relating_ensuring (reporting_relating (publish_sparing at'.stagedIn)) (discard_sparing at' clean)

end Reach

end LibraryWriter

end Foundry
