import Foundry.Proofs.Build.LibraryConfinement
import Foundry.Proofs.Build.Scope
import Foundry.Proofs.Library.Publishing
import Foundry.Proofs.Library.Reach

/-! Libraries that fail to be published. Up to the last step only the run directory has changed, and
what was laid out is dropped. What that step leaves when it fails is decided by where the library is
published and how. -/
namespace Foundry

open FileSystem Run

/-- There is a directory for what a path names, and the way there does not lead through what the path
names. -/
structure Path.Direct (path : Path) (fs : FileSystem) : Prop where
  named : ∃ above name, fs.last path.text = .ok (.name above name false)
  way : ∀ place, path.parent.Leads fs.here place → within (spot fs.here path.text) place = false

variable {origin s t : Session} {directory : String}

/-- No directory is drafted where the library would be packed. -/
theorem Session.Confined.archive_free {name : String} (drafts : origin.Drafts directory name s) :
    s.files.entry? (spot origin.files.here directory ++ ["library", name ++ librarySuffix]) ≠
      some .directory := by
  intro stands
  have longer : name ≠ name ++ librarySuffix := by
    intro same
    have length := congrArg String.length same
    simp [librarySuffix] at length
  rcases drafts.files.made _ stands with before | (before | same | inside) | same
  · rw [drafts.free_inside (within_append _ _)] at before
    cases before
  · rw [drafts.free_inside (within_append _ _)] at before
    cases before
  · simp at same
  · simp [within_iff, List.prefix_append_right_inj, longer] at inside
  · simp at same

namespace LibraryWriter

variable {w : LibraryWriter} {origin s t : Session} {fs fs' : FileSystem} {here top : Location}
  {directory : String}

theorem archivePath_short (reachable : w.Reachable fs) (at' : w.StagedAt here top)
    (proper : IsName w.output.name) :
    w.archivePath.text.utf8ByteSize < pathLimit ∧ Files.holdsZero w.archivePath.text = false := by
  have text := text_manifest reachable.some proper
  have short := reachable.short
  have whole := reachable.whole
  rw [archivePath, Path.text_child reachable.some (packedName at')]
  rw [text] at short whole
  constructor
  · simp only [String.utf8ByteSize_append] at short ⊢
    have longer : librarySuffix.utf8ByteSize ≤ manifestName.utf8ByteSize := by decide
    omega
  · simp only [Files.holdsZero, String.toList_append, List.contains_eq_mem, List.mem_append,
      decide_eq_false_iff_not, not_or] at whole ⊢
    exact ⟨whole.1.1.1, whole.1.1.2, by decide⟩

/-- What is packed does not lie in the layout. -/
theorem archive_beside (at' : w.StagedAt here top) (proper : IsName w.output.name) :
    ¬ within (w.place here) (top ++ ["library", w.output.name ++ librarySuffix]) = true := by
  have longer : w.output.name ≠ w.output.name ++ librarySuffix := by
    intro same
    have length := congrArg String.length same
    simp [librarySuffix] at length
  simp [at'.place_of_name proper, within_iff, List.prefix_append_right_inj, longer]

/-- Where the layout can be reached and no directory is beside it, what is laid out is dropped. -/
theorem discard_total (reachable : w.Reachable s.files) (at' : w.StagedAt s.files.here top)
    (proper : IsName w.output.name) (descends : ".." ∉ Text.split '/' w.staging.text)
    (staged : w.ownsStaging = false)
    (fits : (w.output.name ++ librarySuffix).utf8ByteSize ≤ nameLimit)
    (aside : s.files.entry? (top ++ ["library", w.output.name ++ librarySuffix]) ≠ some .directory) :
    ∃ t, w.discard s = .ok () t := by
  obtain ⟨u, dropped⟩ := Files.discardTree_total w.root.text s
  obtain ⟨packed, naming, named⟩ := packedPath_total proper u
  obtain ⟨short, whole⟩ := archivePath_short reachable at' proper
  have place := at'.place_of_name proper
  have dropping : Obeys (changing s.files.here
      (fun place => within (w.place s.files.here) place = true) (fun _ => False))
      (Files.discardTree w.root.text) := Files.discardTree_changing fun _ => id
  have changed := (dropping s).of_ok dropped rfl
  have beside {other : Location} (onWay : other <+: top ++ ["library"]) :
      ¬ within (w.place s.files.here) other = true := by
    intro below
    have length := ((within_iff.mp below).trans onWay).length_le
    simp [place] at length
  have reachable' : w.Reachable u.files :=
    reachable.stays descends changed fun _ onWay => beside (at'.staged ▸ onWay)
  have last := reachable'.last_child at'.clean (packedName at') fits short
  have aside' : u.files.entry? (top ++ ["library", w.output.name ++ librarySuffix]) ≠
      some .directory := by
    rcases changed.places _ (archive_beside at' proper) with same | ⟨impossible, -⟩
    · rw [same]
      exact aside
    · exact impossible.elim
  rw [changed.here, at'.staged] at last
  obtain ⟨t, discarded⟩ := Files.discardFile_total (s := u) whole last (by simpa using aside')
  refine ⟨t, ?_⟩
  rw [discard, staged, if_neg Bool.false_ne_true, bind_of_ok dropped, bind_of_ok naming, named]
  exact discarded

theorem reporting_error {path : Path} {reason : Refusal → String} {body : Run α}
    (failed : reporting path reason body s = .error e t) : ∃ e', body s = .error e' t := by
  have ended := after_reporting path reason body s
  rw [after_of_error failed] at ended
  cases ran : body s with
  | ok a u =>
      have whole : reporting path reason body s = .ok a u := tryCatch_of_ok ran
      rw [whole] at failed
      cases failed
  | error e' u =>
      rw [after_of_error ran] at ended
      exact ⟨e', by rw [ended]⟩

/-- Publishing or dropping the layout after it fails, and the run ends in `t`. -/
def FailsFrom (w : LibraryWriter) (s t : Session) : Prop :=
  (∃ e u, w.publish s = .error e u ∧ w.discard.after u = t) ∨
    ∃ path u e, w.publish s = .ok path u ∧ w.discard u = .error e t

theorem FailsFrom.after_eq (fails : w.FailsFrom s t) : w.discard.after (w.publish.after s) = t := by
  rcases fails with ⟨e, u, publishing, dropped⟩ | ⟨path, u, e, publishing, dropping⟩
  · rw [after_of_error publishing, dropped]
  · rw [after_of_ok publishing, after_of_error dropping]

/-- A library that is not published failed before that, or in that step, or when it was dropped. -/
theorem commit_error (at' : w.StagedAt origin.files.here (spot origin.files.here directory))
    (some : w.staging.parts ≠ []) (proper : IsName w.output.name)
    (drafts : origin.Drafts directory w.output.name s) (failed : w.commit s = .error e t) :
    origin.Drafts directory w.output.name t ∨
      ∃ m, origin.Drafts directory w.output.name m ∧ w.Reachable m.files ∧
        m.files.entry? (w.place origin.files.here) = Option.some .directory ∧ w.FailsFrom m t := by
  have manifest : IsName manifestName := by decide
  have there : spot origin.files.here (w.root.child manifestName).text =
      w.place origin.files.here ++ [manifestName] := by
    rw [Path.spot_child _ (root_clean at'.clean) manifest, place]
  have inside : within (spot origin.files.here directory)
      (spot origin.files.here (w.root.child manifestName).text) = true := by
    rw [there]
    exact at'.within_place _
  have writing (bytes : Bytes) : Obeys (keeping (origin.Drafts directory w.output.name))
      (w.writeFile (w.root.child manifestName) bytes) := writeFile_keeping inside bytes
  rcases bind_eq_error.mp failed with unpackable | ⟨bytes, a, packing, rest⟩
  · unfold packedManifest at unpackable
    cases packed : MessagePack.pack (.table w.manifest) with
    | ok bytes =>
        rw [packed] at unpackable
        cases unpackable
    | error e' =>
        rw [packed] at unpackable
        cases unpackable
        exact .inl drafts
  obtain ⟨-, rfl⟩ := packedManifest_ok packing
  rcases bind_eq_error.mp rest with unwritten | ⟨_, m, written, committing⟩
  · exact .inl ((writing bytes a).of_error unwritten drafts)
  · have drafts' := (writing bytes a).of_ok written drafts
    obtain ⟨fs, done, ended⟩ := Files.change_ok (reporting_ok written)
    obtain ⟨above, name, found⟩ := write_last done
    have located := ((last_name found).2.2.2 rfl).1
    have grown : a.files.Extends (fun _ => True) m.files := by
      rw [ended]
      exact write_extends done trivial
    obtain ⟨reachable, stands⟩ := reachable_of_manifest at'.clean some proper
      (locate_stays grown.here (.of_directories fun _ => grown.directory) located)
      (Files.change_whole (reporting_ok written))
    refine .inr ⟨m, drafts', reachable, drafts'.here ▸ stands, ?_⟩
    · rcases ensuring_error committing with ⟨e', u, publishing, ended⟩ | ⟨path, u, publishing, discarding⟩
      · obtain ⟨e'', publishing⟩ := reporting_error publishing
        exact .inl ⟨e'', u, publishing, ended⟩
      · exact .inr ⟨path, u, e, reporting_ok publishing, discarding⟩

/-- Packing writes in the run directory alone, whether it succeeds or not. -/
theorem pack_keeping {F D : Location → Prop} {archive : Path}
    (inside : within (spot origin.files.here directory) (spot origin.files.here archive.text) = true) :
    Obeys (keeping (origin.Confined F D directory)) (w.pack archive) := by
  refine (write_keeping (.inr inside) _).bind fun _ => ?_
  refine Obeys.bind (Obeys.keeping fun _ => ⟨rfl, rfl, rfl, rfl⟩) fun fs => ?_
  exact ofExcept_keeping fun items _ => write_keeping (.inr inside) _

theorem pack_extending {Z : Location → Prop} {archive : Path} (inside : Z (spot here archive.text)) :
    Obeys (extending here Z) (w.pack archive) :=
  pack_relating (R := Extends Z) fun _ _ _ same done => write_extends done (same ▸ inside)

/-- Publishing the library in one step: if it fails then only a draft is left, and if it succeeds then
nothing can go wrong when the layout is dropped. -/
structure InOneStep (w : LibraryWriter) (origin : Session) (directory : String) (s : Session) : Prop where
  failing : ∀ e t, w.publish s = .error e t → origin.Drafts directory w.output.name t
  dropping : ∀ path t, w.publish s = .ok path t → ∃ u, w.discard t = .ok () u

section Packed
variable (at' : w.StagedAt origin.files.here (spot origin.files.here directory))
  (proper : IsName w.output.name)

include proper in
/-- A library is packed beside its layout and moved from there. -/
theorem publish_packed (packed : w.unpacked = false) (s : Session) :
    ∃ packedPath : Path, w.publish s = (do
      w.pack w.archivePath
      Files.move w.archivePath.text packedPath.text
      pure packedPath) s := by
  obtain ⟨packedPath, naming, named⟩ := packedPath_total proper s
  refine ⟨packedPath, ?_⟩
  rw [publish, packed, if_neg Bool.false_ne_true, bind_of_ok naming, named]
  rfl

include at'

theorem spot_archivePath : spot origin.files.here w.archivePath.text =
    spot origin.files.here directory ++ ["library", w.output.name ++ librarySuffix] := by
  rw [archivePath, Path.spot_child _ at'.clean (packedName at'), at'.staged]
  simp

theorem pack_drafts : Obeys (keeping (origin.Drafts directory w.output.name)) (w.pack w.archivePath) := by
  refine pack_keeping ?_
  rw [spot_archivePath at']
  exact within_append _ _

include proper

/-- If a packed library fails to be published then only a draft is left. -/
theorem publishPacked_fails (packed : w.unpacked = false)
    (drafts : origin.Drafts directory w.output.name s) (failed : w.publish s = .error e t) :
    origin.Drafts directory w.output.name t := by
  obtain ⟨packedPath, publishing⟩ := publish_packed proper packed s
  rw [publishing] at failed
  rcases bind_eq_error.mp failed with failed | ⟨_, m, packing, rest⟩
  · exact (pack_drafts at' s).of_error failed drafts
  have drafts' := (pack_drafts at' s).of_ok packing drafts
  obtain ⟨items, here, file, -, -⟩ := pack_ok (drafts.files.sound drafts.sound) packing
  have notAbove : Text.baseName w.archivePath.text ≠ ".." := by
    rw [baseName_archivePath at'.clean at'.slashless]
    exact (packedName at').notAbove
  rcases bind_eq_error.mp rest with failed | ⟨_, _, _, given⟩
  · have same := ((Files.move_filesOnly _ _).obeys m).of_error failed
    have still := Files.moveFile_failed notAbove (here ▸ file) failed
    exact drafts'.bystander still (by rw [same.1]) (by rw [same.1]) (by rw [same.1])
  · cases given

/-- Once a packed library is published nothing can go wrong when its layout is dropped. -/
theorem publishPacked_drops (packed : w.unpacked = false) (staged : w.ownsStaging = false)
    (descends : ".." ∉ Text.split '/' w.staging.text)
    (drafts : origin.Drafts directory w.output.name s) (reachable : w.Reachable s.files)
    (ran : w.publish s = .ok path t) : ∃ u, w.discard t = .ok () u := by
  obtain ⟨packedPath, publishing⟩ := publish_packed proper packed s
  rw [publishing] at ran
  obtain ⟨_, m, packing, rest⟩ := bind_eq_ok.mp ran
  obtain ⟨_, n, moving, given⟩ := bind_eq_ok.mp rest
  obtain ⟨-, rfl⟩ := pure_eq_ok.mp given
  have drafts' := (pack_drafts at' s).of_ok packing drafts
  obtain ⟨items, here, file, -, -⟩ := pack_ok (drafts.files.sound drafts.sound) packing
  -- the directories that stood before stand now, and the archive is a file
  obtain ⟨here', directories⟩ :=
    Files.moveFile_directories (drafts'.files.sound drafts'.sound) (here ▸ file) moving
  have extending : Obeys (extending s.files.here fun _ => True) (w.pack w.archivePath) :=
    pack_extending trivial
  have grown := (extending s).of_ok packing rfl
  have reachable' : w.Reachable n.files :=
    reachable.of_directories (here'.trans here) fun place stands =>
      (directories place).mpr (grown.directory stands)
  have sameHere : n.files.here = origin.files.here := here'.trans (here.trans drafts.here)
  obtain ⟨_, _, emptying, -⟩ := bind_eq_ok.mp packing
  obtain ⟨fs, done, -⟩ := Files.change_ok emptying
  have fits := archiveName_fits at'.clean at'.slashless done
  have aside : n.files.entry? (spot origin.files.here directory ++
      ["library", w.output.name ++ librarySuffix]) ≠ some .directory := by
    rw [Ne, directories, ← spot_archivePath at', ← drafts.here, file]
    rintro ⟨⟩
  have at'' : w.StagedAt n.files.here (spot origin.files.here directory) := by
    rw [sameHere]
    exact at'
  exact discard_total reachable' at'' proper descends staged fits aside

/-- A packed library is published in one step. -/
theorem publishPacked (packed : w.unpacked = false) (staged : w.ownsStaging = false)
    (descends : ".." ∉ Text.split '/' w.staging.text)
    (drafts : origin.Drafts directory w.output.name s) (reachable : w.Reachable s.files) :
    w.InOneStep origin directory s :=
  ⟨fun _ _ => publishPacked_fails at' proper packed drafts,
    fun _ _ => publishPacked_drops at' proper packed staged descends drafts reachable⟩

end Packed

section Places
variable (at' : w.StagedAt here top) (proper : IsName w.output.name)
include at' proper

theorem not_above_output {output other : Location} (outside : within top output = false)
    (apart : within output top = false) (onWay : other <+: top ++ ["library"]) :
    ¬ (within output other = true ∨ within (w.place here) other = true) := by
  rintro (inside | inside)
  · have above := (within_iff.mp inside).trans onWay
    rcases List.prefix_concat_iff.mp above with same | above
    · rw [same, within_append] at outside
      contradiction
    · rw [within_iff.mpr above] at apart
      contradiction
  · have length := ((within_iff.mp inside).trans onWay).length_le
    simp [at'.place_of_name proper] at length

end Places

section Direct
variable {path : Path} (clean : path.Clean) (some : path.parts ≠ []) (direct : path.Direct s.files)
include clean some direct

/-- What is at a place with a direct path is removed in full or not at all. -/
theorem clear_direct (whole : Files.holdsZero path.text = false) :
    (∃ e, clear path.text s = .error e s) ∨
      ∃ fs, clear path.text s = .ok () { s with files := fs } ∧
        s.files.Changes (fun place => within (spot s.files.here path.text) place = true)
          (fun _ => False) fs ∧
        fs.entry? (spot s.files.here path.text) = none ∧
        ∃ above name, fs.last path.text = .ok (.name above name false) := by
  obtain ⟨above, name, found⟩ := direct.named
  obtain ⟨there, -, -, located⟩ := last_name found
  have located := (located rfl).1
  rw [← there] at located
  have looked := Files.lookStrictly_of_locate whole located
  have way {first rest : List String} (whole : Text.split '/' path.text = first ++ rest)
      (nonempty : rest ≠ []) :
      within (spot s.files.here path.text) (walk (startOf s.files.here path.text) first) = false :=
    direct.way _ (leads_of_front _ clean some whole nonempty)
  rw [clear, bind_of_ok looked]
  cases stands : s.files.entry? (spot s.files.here path.text) with
  | none => exact .inr ⟨s.files, rfl, .refl _, stands, above, name, found⟩
  | some entry =>
      simp only [Option.isSome_some, if_true]
      cases entry with
      | file content =>
          have refused : s.files.removeTree path.text = .error .notDirectory := by
            simp [FileSystem.removeTree, bind, Except.bind, located, stands]
          exact .inl (Files.removeTree_refused (.typed path.text) whole refused)
      | directory =>
          have straight : passesBelow (spot s.files.here path.text) (startOf s.files.here path.text)
              (Text.split '/' path.text) = false :=
            passesBelow_of_way (fun first rest => way) rfl
          have done := removeTree_of_straight found stands straight
          have changed : s.files.Changes (fun place => within (spot s.files.here path.text) place = true)
              (fun _ => False) (s.files.withoutTree (spot s.files.here path.text)) :=
            removeTree_changes done fun _ => id
          refine .inr ⟨_, Files.removeTree_in_full (.typed path.text) whole done, changed, ?_,
            above, name, ?_⟩
          · have below : spot s.files.here path.text ≠ [] := by simp [there]
            rw [entry?_withoutTree, if_pos ⟨below, within_self _⟩]
          · refine last_stays changed.here (fun first rest whole nonempty stands => ?_) found
            exact changed.directory (by rw [way whole nonempty]; exact Bool.false_ne_true) stands

end Direct

/-- Once the place is clear, a library that can be renamed to it is published. -/
theorem publishTree_renamed (unpacked : w.unpacked = true)
    (whole : Files.holdsZero w.root.text = false) (whole' : Files.holdsZero w.output.text = false)
    (cleared : clear w.output.text s = .ok () { s with files := fs })
    (free : fs.entry? (spot fs.here w.output.text) = none)
    (done : fs.rename w.root.text w.output.text = .ok fs') :
    w.publish s = .ok w.output { s with files := fs' } := by
  have unseen : Files.look w.output.text { s with files := fs } ≠
      .ok (some .directory) { s with files := fs } := by
    intro seen
    have status := (Files.look_ok seen).2.1 _ rfl
    have stands := (stat_ok status).2
    rw [show ({ s with files := fs } : Session).files = fs from rfl, free] at stands
    cases stands
  have moved : Files.move.go w.root.text w.output.text w.output.text { s with files := fs } =
      .ok () { s with files := fs' } := Files.go_done whole whole' done
  rw [publish_unpacked unpacked, bind_of_ok cleared]
  refine bind_eq_ok.mpr ⟨(), _, ?_, rfl⟩
  rw [Files.move_unseen _ unseen]
  exact moved

/-- A library whose place has a direct path is published as a directory in full or not at all. -/
theorem publishTree_direct (same : s.files.here = here) (at' : w.StagedAt here top)
    (proper : IsName w.output.name) (unpacked : w.unpacked = true)
    (descends : ".." ∉ Text.split '/' w.staging.text) (reachable : w.Reachable s.files)
    (laid : s.files.entry? (w.place here) = some .directory)
    (clean : w.output.Clean) (direct : w.output.Direct s.files)
    (outside : within top (spot here w.output.text) = false)
    (apart : within (spot here w.output.text) top = false) :
    (∃ e, w.publish s = .error e s) ∨
      ∃ fs, w.publish s = .ok w.output { s with files := fs } ∧
        s.files.Changes (fun place => within (spot here w.output.text) place = true ∨
          within (w.place here) place = true) (fun _ => False) fs := by
  subst same
  obtain ⟨short, whole⟩ := root_short reachable proper
  have some : w.output.parts ≠ [] := by
    intro none
    exact proper.nonempty (by simp [Path.name, none])
  by_cases zero : Files.holdsZero w.output.text = true
  · exact .inl ⟨_, publishTree_zero unpacked whole zero⟩
  rw [Bool.not_eq_true] at zero
  rcases clear_direct clean some direct zero with ⟨e, failed⟩ | ⟨fs, cleared, changed, free, above, last, found⟩
  · rw [publish_unpacked unpacked]
    exact .inl ⟨e, bind_eq_error.mpr (.inl failed)⟩
  right
  have inside : within top (w.place s.files.here) = true := by simpa using at'.within_place []
  have notAbove : within (spot s.files.here w.output.text) (w.place s.files.here) = false := by
    rw [at'.place_of_name proper]
    exact within_append_false apart outside _
  have notInside : within (w.place s.files.here) (spot s.files.here w.output.text) = false :=
    within_false inside outside
  have here : fs.here = s.files.here := changed.here
  -- clearing the place touches nothing on the way to the layout, so that it is still found
  have reachable' : w.Reachable fs := by
    refine reachable.stays descends changed fun place onWay below => ?_
    exact not_above_output at' proper outside apart (at'.staged ▸ onWay) (.inl below)
  have lastRoot := reachable'.last_child at'.clean proper reachable.fits short
  rw [← here] at free notAbove notInside laid changed ⊢
  have laid' : fs.entry? (spot fs.here w.root.text) = Option.some .directory :=
    changed.directory (Bool.eq_false_iff.mp notAbove) laid
  obtain ⟨fs', done⟩ : ∃ fs', fs.rename w.root.text w.output.text = .ok fs' :=
    rename_of_free lastRoot found laid' free notInside notAbove
  refine ⟨fs', publishTree_renamed unpacked whole zero cleared free done, ?_⟩
  have moving : Changes (fun place => within (spot fs.here w.output.text) place = true ∨
      within (w.place fs.here) place = true) (fun _ => False) fs fs' :=
    rename_changes done (fun _ => .inr) fun _ => .inl
  exact (changed.mono (fun _ => .inl) fun _ => id).trans moving

/-- What is left of the layout can be dropped after the library was published from it as a directory. -/
theorem discard_published (at' : w.StagedAt origin.files.here (spot origin.files.here directory))
    (proper : IsName w.output.name) (staged : w.ownsStaging = false)
    (descends : ".." ∉ Text.split '/' w.staging.text)
    (drafts : origin.Drafts directory w.output.name s) (reachable : w.Reachable s.files)
    (fits : (w.output.name ++ librarySuffix).utf8ByteSize ≤ nameLimit)
    (outside : within (spot origin.files.here directory) (spot origin.files.here w.output.text) = false)
    (apart : within (spot origin.files.here w.output.text) (spot origin.files.here directory) = false)
    (changed : s.files.Changes (fun place => within (spot origin.files.here w.output.text) place = true ∨
      within (w.place origin.files.here) place = true) (fun _ => False) fs) :
    ∃ u, w.discard { s with files := fs } = .ok () u := by
  have here : s.files.here = origin.files.here := drafts.here
  have reachable' : w.Reachable fs := by
    refine reachable.stays descends changed fun place onWay => ?_
    refine not_above_output at' proper outside apart ?_
    rw [here, at'.staged] at onWay
    exact onWay
  have beside : ¬ (within (spot origin.files.here w.output.text)
      (spot origin.files.here directory ++ ["library", w.output.name ++ librarySuffix]) = true ∨
      within (w.place origin.files.here)
        (spot origin.files.here directory ++ ["library", w.output.name ++ librarySuffix]) = true) := by
    rintro (inside | inside)
    · rw [within_append_false apart outside] at inside
      cases inside
    · exact archive_beside at' proper inside
  have aside : fs.entry? (spot origin.files.here directory ++
      ["library", w.output.name ++ librarySuffix]) ≠ some .directory := by
    rcases changed.places _ beside with same | ⟨impossible, -⟩
    · rw [same]
      exact drafts.archive_free
    · exact impossible.elim
  have at'' : w.StagedAt fs.here (spot origin.files.here directory) := by
    rw [changed.here, here]
    exact at'
  exact discard_total (s := { s with files := fs }) reachable' at'' proper descends staged fits aside

/-- A library whose place has a direct path and whose name leaves room for the suffix is published in
one step. -/
theorem publishDirect (at' : w.StagedAt origin.files.here (spot origin.files.here directory))
    (proper : IsName w.output.name) (unpacked : w.unpacked = true) (staged : w.ownsStaging = false)
    (descends : ".." ∉ Text.split '/' w.staging.text)
    (drafts : origin.Drafts directory w.output.name s) (reachable : w.Reachable s.files)
    (laid : s.files.entry? (w.place origin.files.here) = some .directory)
    (clean : w.output.Clean) (direct : w.output.Direct origin.files)
    (fits : (w.output.name ++ librarySuffix).utf8ByteSize ≤ nameLimit)
    (outside : within (spot origin.files.here directory) (spot origin.files.here w.output.text) = false)
    (apart : within (spot origin.files.here w.output.text) (spot origin.files.here directory) = false) :
    w.InOneStep origin directory s := by
  have here : s.files.here = origin.files.here := drafts.here
  have direct' : w.output.Direct s.files := by
    obtain ⟨above, last, found⟩ := direct.named
    refine ⟨⟨above, last, ?_⟩, ?_⟩
    · exact last_stays here (.of_directories fun _ => drafts.files.directory) found
    · rw [here]
      exact direct.way
  rcases publishTree_direct here at' proper unpacked descends reachable laid clean direct' outside apart
    with ⟨e, failed⟩ | ⟨fs, published, changed⟩
  · constructor
    · intro e' t failed'
      rw [failed] at failed'
      cases failed'
      exact drafts
    · intro path t published
      rw [failed] at published
      cases published
  · constructor
    · intro e t failed
      rw [published] at failed
      cases failed
    · intro path t published'
      obtain ⟨-, rfl⟩ : w.output = path ∧ { s with files := fs } = t := by
        simpa [published] using published'
      exact discard_published at' proper staged descends drafts reachable fits outside apart changed

end LibraryWriter

namespace Job

open LibraryWriter

variable {job : Job} {w : LibraryWriter}

/-- A build of a library that is published elsewhere than above the directory for temporary files or
in a directory that the build makes there. -/
structure PublishesElsewhere (job : Job) (s : Session) : Prop extends job.DraftsLibrary s where
  descends : ".." ∉ Text.split '/' s.host.temporary
  apart : within (spot s.files.here job.libraryPath.text) (spot s.files.here s.host.temporary) = false
  outside : OutsideRuns s job.libraryPath.text

theorem PublishesElsewhere.runDirectory (elsewhere : job.PublishesElsewhere origin) (number : Nat) :
    let directory := RunDirectory.new origin.host RunDirectory.buildStem number
    ".." ∉ Text.split '/' directory ∧
      within (spot origin.files.here directory) (spot origin.files.here job.libraryPath.text) = false ∧
      within (spot origin.files.here job.libraryPath.text) (spot origin.files.here directory) = false := by
  have outside := elsewhere.outside number
  refine ⟨RunDirectory.descends_new elsewhere.descends number, outside, ?_⟩
  rw [Bool.eq_false_iff, ne_eq, within_iff]
  intro above
  rw [RunDirectory.spot_new_build] at above outside
  rcases List.prefix_concat_iff.mp above with same | above
  · rw [same, within_self] at outside
    cases outside
  · exact Bool.eq_false_iff.mp elsewhere.apart (within_iff.mpr above)

theorem Lays.descends (lays : job.Lays directory w) (descends : ".." ∉ Text.split '/' directory) :
    w.staging.parts ≠ [] ∧ ".." ∉ Text.split '/' w.staging.text := by
  have library : IsName "library" := by decide
  have some := Path.parts_joinPaths directory library
  rw [lays.staging]
  exact ⟨some, Path.descends_ofText (descends_joinPaths descends library) some⟩

/-- The library can be published in one step: it is packed, or its place has a direct path and its name
leaves room for the suffix. -/
def PublishesAtOnce (job : Job) (s : Session) : Prop :=
  job.config.unpacked = true → job.libraryPath.Direct s.files ∧
    (job.libraryName ++ librarySuffix).utf8ByteSize ≤ nameLimit

section Commit
variable (elsewhere : job.PublishesElsewhere origin) {number : Nat}
  (lays : job.Lays (RunDirectory.new origin.host RunDirectory.buildStem number) w)
include elsewhere lays

/-- Dropping what is laid out touches nothing else. -/
theorem discard_touched {A D : Location → Prop}
    (touched : origin.Touched A D (RunDirectory.new origin.host RunDirectory.buildStem number) s) :
    origin.Touched A D (RunDirectory.new origin.host RunDirectory.buildStem number)
      (w.discard.after s) := by
  obtain ⟨descends, -, -⟩ := elsewhere.runDirectory number
  have proper : IsName w.output.name := by
    rw [lays.output]
    exact elsewhere.proper
  have same := ((discard_filesOnly w).obeys s).1
  have clean : w.Clean := lays.clean
  have staged := (lays.stagedAt origin.files.here).staged
  have changed : s.files.Changes (w.Ground origin.files.here) D (w.discard.after s).files :=
    discard_changing clean s touched.files.here
  refine touched.step descends (by rw [same]) changed (fun place ground => .inr ?_)
    fun place onWay ground => ?_
  · have inside := ground.staged clean proper.notAbove
    rw [staged] at inside
    exact within_trans (within_append _ _) inside
  · have inside := ground.staged clean proper.notAbove
    rw [staged] at inside
    have length := ((within_iff.mp inside).trans onWay).length_le
    simp only [List.length_append, List.length_cons, List.length_nil] at length
    omega

/-- What fails when the library is published in one step leaves a draft, and a draft leaves nothing. -/
theorem touched_of_inOneStep
    (step : w.InOneStep origin (RunDirectory.new origin.host RunDirectory.buildStem number) s)
    (fails : w.FailsFrom s t) :
    origin.Touched (fun _ => False) (fun _ => False)
      (RunDirectory.new origin.host RunDirectory.buildStem number) t := by
  rcases fails with ⟨e, u, publishing, rfl⟩ | ⟨path, u, e, published, dropping⟩
  · exact discard_touched elsewhere lays (step.failing e u publishing).discarded
  · obtain ⟨v, dropped⟩ := step.dropping path u published
    rw [dropped] at dropping
    cases dropping

/-- What fails when the library is published as a directory leaves changes at its place and on the way
there alone. -/
theorem touched_of_unpacked (unpacked : job.config.unpacked = true)
    (drafts : origin.Drafts (RunDirectory.new origin.host RunDirectory.buildStem number)
      w.output.name s)
    (fails : w.FailsFrom s t) :
    origin.Touched
      (fun place => job.config.unpacked = true ∧
        within (spot origin.files.here w.output.text) place = true)
      (fun place => job.config.unpacked = true ∧
        (Path.ofText w.output.text).Leads origin.files.here place)
      (RunDirectory.new origin.host RunDirectory.buildStem number) t := by
  obtain ⟨descends, outside, apart⟩ := elsewhere.runDirectory number
  have at' := lays.stagedAt origin.files.here
  have output : w.output = job.libraryPath := lays.output
  have proper : IsName w.output.name := by
    rw [output]
    exact elsewhere.proper
  rw [← output] at outside apart
  have same := ((publish_filesOnly w).obeys s).1
  have changed := publishTree_changing (lays.unpacked.trans unpacked) s drafts.here
  rw [← fails.after_eq]
  refine discard_touched elsewhere lays ?_
  refine Session.Touched.step drafts.discarded.weaken descends
    (by rw [same]) (changed.mono (fun _ => id) fun _ leads => ⟨unpacked, leads⟩) ?_ ?_
  · rintro place (inside | inside)
    · exact .inl ⟨unpacked, inside⟩
    · exact .inr (within_trans (by simpa using at'.within_place []) inside)
  · intro place onWay
    exact not_above_output at' proper outside apart (onWay.trans (List.prefix_append _ _))

/-- A library that is not published in one step may leave its place changed, and directories on the
way there; one that is published in one step leaves nothing. -/
theorem commit_failed
    (drafts : origin.Drafts (RunDirectory.new origin.host RunDirectory.buildStem number)
      job.libraryName s)
    (failed : w.commit s = .error e t) :
    origin.Touched
        (fun place => job.config.unpacked = true ∧
          within (spot origin.files.here job.libraryPath.text) place = true)
        (fun place => job.config.unpacked = true ∧
          (Path.ofText job.libraryPath.text).Leads origin.files.here place)
        (RunDirectory.new origin.host RunDirectory.buildStem number) t ∧
      (job.PublishesAtOnce origin → origin.Touched (fun _ => False) (fun _ => False)
        (RunDirectory.new origin.host RunDirectory.buildStem number) t) := by
  obtain ⟨descends, outside, apart⟩ := elsewhere.runDirectory number
  obtain ⟨some, descends'⟩ := lays.descends descends
  have at' := lays.stagedAt origin.files.here
  have output : w.output = job.libraryPath := lays.output
  have name : w.output.name = job.libraryName := by
    rw [output]
    rfl
  have proper : IsName w.output.name := by
    rw [name]
    exact elsewhere.proper
  rw [← name] at drafts
  rw [← output] at outside apart ⊢
  rcases commit_error at' some proper drafts failed with drafts' | ⟨m, drafts', reachable, laid, ended⟩
  · exact ⟨drafts'.discarded.weaken, fun _ => drafts'.discarded⟩
  by_cases unpacked : job.config.unpacked = true
  · refine ⟨touched_of_unpacked elsewhere lays unpacked drafts' ended, fun atOnce => ?_⟩
    obtain ⟨direct, fits⟩ := atOnce unpacked
    rw [← output] at direct
    rw [← name] at fits
    have clean : w.output.Clean := by
      rw [output]
      exact Path.ofText_clean _
    have step := publishDirect at' proper (lays.unpacked.trans unpacked) lays.staged descends' drafts'
      reachable laid clean direct fits outside apart
    exact touched_of_inOneStep elsewhere lays step ended
  · have packed : w.unpacked = false := lays.unpacked.trans (Bool.eq_false_iff.mpr unpacked)
    have step := publishPacked at' proper packed lays.staged descends' drafts' reachable
    have touched := touched_of_inOneStep elsewhere lays step ended
    exact ⟨touched.weaken, fun _ => touched⟩

end Commit

/-- Before the run directory is removed, a build of a library that fails is in this state. -/
theorem produceLibrary_failed (elsewhere : job.PublishesElsewhere s)
    (failed : job.produceLibrary s = .error e t) :
    s.Ended
        (fun place => job.config.unpacked = true ∧
          within (spot s.files.here job.libraryPath.text) place = true)
        (fun place => job.config.unpacked = true ∧ job.libraryPath.Leads s.files.here place) t ∧
      (job.PublishesAtOnce s → s.Ended (fun _ => False) (fun _ => False) t) := by
  obtain ⟨drafted, undrafted⟩ := draftLibrary_drafts elsewhere.toDraftsLibrary
  have same : Path.ofText job.libraryPath.text = job.libraryPath :=
    Path.ofText_text (Path.ofText_clean _)
  rw [produceLibrary_eq] at failed
  rcases bind_eq_error.mp failed with drafting | ⟨w, m, drafting, rest⟩
  · have ended := undrafted e t drafting
    exact ⟨ended.mono (fun _ => False.elim) fun _ => False.elim, fun _ => ended⟩
  · obtain ⟨directory, lays, drafts⟩ := drafted w m drafting
    obtain ⟨number, rfl⟩ := drafts.drawn
    rcases bind_eq_error.mp rest with failed | ⟨_, _, _, given⟩
    · obtain ⟨touched, nothing⟩ := commit_failed elsewhere lays drafts failed
      rw [same] at touched
      exact ⟨.touched _ touched, fun atOnce => .touched _ (nothing atOnce)⟩
    · cases given

/-- However a build of a library fails, its run directory is gone. If the library was to be packed, or
could be published in one step, then all else is as it was before. Otherwise only the place of the
library may differ, and directories on the way there that were missing. -/
theorem produce_failed_library (elsewhere : job.PublishesElsewhere s)
    (failed : job.produce s = .error e t) :
    t.runDirectory = none ∧
      (∀ directory, job.runDirectory? s = some directory →
        ∀ rest, t.files.entry? (spot s.files.here directory ++ rest) = none) ∧
      (∀ place, t.files.entry? place = s.files.entry? place ∨ job.config.unpacked = true ∧
        (within (spot s.files.here job.libraryPath.text) place = true ∨
          job.libraryPath.Leads s.files.here place ∧ s.files.entry? place = none ∧
            t.files.entry? place = some .directory)) ∧
      (job.PublishesAtOnce s → ∀ place, t.files.entry? place = s.files.entry? place) := by
  have chosen := producer_library elsewhere.library
  obtain ⟨-, directory?⟩ := produce_of_chosen chosen s
  rw [produce_of_way chosen] at failed
  rcases ensuring_error failed with ⟨e', u, failed', removed⟩ | ⟨_, u, -, removing⟩
  · obtain ⟨ended, nothing⟩ := produceLibrary_failed elsewhere failed'
    obtain ⟨v, removed', cleared, gone⟩ := RunDirectory.remove_ended ended
    rw [after_of_ok removed'] at removed
    subst removed
    have failed'' : job.produceLibrary s = .error e' u := failed'
    change job.runDirectory? s = (job.produceLibrary.after s).runDirectory at directory?
    rw [after_of_error failed''] at directory?
    refine ⟨cleared.runDirectory, fun directory here => gone directory (directory?.symm.trans here),
      fun place => ?_, fun atOnce place => ?_⟩
    · by_cases inside : job.config.unpacked = true ∧
          within (spot s.files.here job.libraryPath.text) place = true
      · exact .inr ⟨inside.1, .inl inside.2⟩
      · rcases cleared.files.places place inside with same | ⟨⟨unpacked, leads⟩, free, made⟩
        · exact .inl same
        · exact .inr ⟨unpacked, .inr ⟨leads, free, made⟩⟩
    · obtain ⟨v', removed'', cleared', -⟩ := RunDirectory.remove_ended (nothing atOnce)
      rw [removed'] at removed''
      cases removed''
      rcases cleared'.files.places place id with same | ⟨made, -⟩
      · exact same
      · contradiction
  · obtain ⟨v, removed, -⟩ := RunDirectory.remove_ok u
    rw [removed] at removing
    cases removing

section OldLibrary

/-- A library for Linux, without natives, that is not to be packed. -/
def ofOutput (outputName : String) : Job where
  config := { target := .linuxX64, produce := .kind .library, outputName, unpacked := true }
  properties := {
    data := [("targets", .table [("linux_x64", .table [
      ("target_toolchain", .text "toolchain"), ("target_sysroot", .text "sysroot"),
      ("lib_gcc", .text "gcc")])])]
    path := "kiln.toml"
    sources := ["kiln.toml"]
    distribution := { home := "/home", llvmHome := "/llvm" } }

/-- A session in which a library of an earlier build stands. -/
def withOldLibrary (tools : Toolset) : Session :=
  { Session.blank with
    host := { Session.blank.host with tools }
    files := { entries := [(["tmp"], .directory), (["lib"], .directory),
      (["lib", "manifest"], .file [1])] } }

theorem draftsLibrary_ofOutput {outputName : String} {tools : Toolset}
    (proper : IsName (ofOutput outputName).libraryName)
    (flags : (ofOutput outputName).setup.map (·.codeFlags) = .ok []) :
    (ofOutput outputName).DraftsLibrary (withOldLibrary tools) := by
  have sound : (withOldLibrary .obliging).files.Sound := Sound.of_entries (by decide) (by decide)
  have plain : '/' ∉ (ofOutput "").config.moduleName.toList := by decide
  refine ⟨⟨sound, rfl⟩, rfl, proper, plain, List.not_mem_nil, fun setup ready => ?_⟩
  rw [ready] at flags
  have none : setup.codeFlags = [] := Except.ok.inj flags
  rw [Setup.NamesOutputs, none]
  decide

theorem fails_withoutTools :
    (ofOutput "lib").produce.defeat? (fun _ => ()) (withOldLibrary ⟨fun _ _ => .notStarted ""⟩) =
      some (.fault (.toolFailed "/llvm/bin/opt" 127), ()) := by
  decide +kernel

/-- Without tools no library is built, and the one of an earlier build stays. -/
theorem old_library_stays :
    let s := withOldLibrary ⟨fun _ _ => .notStarted ""⟩
    (ofOutput "lib").PublishesElsewhere s ∧ (ofOutput "lib").PublishesAtOnce s ∧
      ∃ e t, (ofOutput "lib").produce s = .error e t ∧
        ∀ place, t.files.entry? place = s.files.entry? place := by
  intro s
  have elsewhere : (ofOutput "lib").PublishesElsewhere s :=
    ⟨draftsLibrary_ofOutput (by decide) (by decide +kernel), by decide, by decide,
      outsideRuns_of_temporary (by decide)⟩
  have atOnce : (ofOutput "lib").PublishesAtOnce s := by
    refine fun _ => ⟨⟨⟨[], "lib", by decide⟩, ?_⟩, by decide⟩
    rintro place ⟨first, ⟨anchor, parts⟩, rfl⟩
    have none : first.parts = [] := List.prefix_nil.mp parts
    obtain ⟨_, _⟩ := first
    subst none anchor
    decide
  obtain ⟨t, ran, -⟩ := defeat?_eq_some.mp fails_withoutTools
  exact ⟨elsewhere, atOnce, _, t, ran, (produce_failed_library elsewhere ran).2.2.2 atOnce⟩

theorem fails_throughItself :
    (ofOutput "lib/../lib").produce.defeat? (·.files.entry? ["lib", "manifest"])
        (withOldLibrary .obliging) =
      some (.fault (.libraryNotWritten "lib/../lib" "[Errno 17] File exists: 'lib/../lib'"), none) := by
  decide +kernel

/-- Where the path of a library leads through the library of an earlier build, the old one is removed
and the new one cannot be published. -/
theorem old_library_lost :
    let s := withOldLibrary .obliging
    (ofOutput "lib/../lib").PublishesElsewhere s ∧ s.files.file? ["lib", "manifest"] = some [1] ∧
      ∃ e t, (ofOutput "lib/../lib").produce s = .error e t ∧
        t.files.entry? ["lib", "manifest"] = none := by
  obtain ⟨t, ran, gone⟩ := defeat?_eq_some.mp fails_throughItself
  exact ⟨⟨draftsLibrary_ofOutput (by decide) (by decide +kernel), by decide, by decide,
    outsideRuns_of_temporary (by decide)⟩, by decide, _, t, ran, gone⟩

end OldLibrary

end Job

end Foundry
