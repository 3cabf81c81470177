import Foundry.Proofs.Library.Commit
import Foundry.Proofs.Library.Staging

/-! Publishing a library: what is laid out is found below the place where it was published, as files
or as the items of a packed tree, also after the layout was dropped. -/
namespace Foundry

open FileSystem Run

/-- Only what a location holds and what lies below it may have changed. -/
structure Session.ChangedWithin (top : Location) (s t : Session) : Prop where
  here : t.files.here = s.files.here
  kept : ∀ place, within top place = false → t.files.entry? place = s.files.entry? place

namespace LibraryWriter

variable {w : LibraryWriter} {s t : Session} {top here : Location}

/-- What is published at a place, unpacked or packed, holds these files by the steps to them. -/
inductive Published (fs : FileSystem) (place : Location) (held : Location → Option Bytes) :
    Bool → Prop where
  | directory : (∀ steps, fs.file? (place ++ steps) = held steps) → Published fs place held true
  | archive (name : String) (items : List Tar.Item) :
      fs.file? place = some (Packed.write items) →
      (∀ steps content, held steps = some content ↔
        Proper steps ∧ ⟨itemName name steps, some content⟩ ∈ items) →
      Published fs place held false

/-- The published library is no more than where it stands. -/
theorem Published.congr {unpacked : Bool} {fs fs' : FileSystem} {place : Location} {held : Location → Option Bytes}
    (published : Published fs place held unpacked)
    (same : ∀ steps, steps = [] ∨ unpacked = true →
      fs'.entry? (place ++ steps) = fs.entry? (place ++ steps)) :
    Published fs' place held unpacked := by
  cases published with
  | directory files =>
      exact .directory fun steps => (file?_congr (same steps (.inr rfl))).trans (files steps)
  | archive name items content members =>
      have here := same [] (.inl rfl)
      rw [List.append_nil] at here
      exact .archive name items ((file?_congr here).trans content) members

theorem packedName (at' : w.StagedAt here top) : IsName (w.output.name ++ librarySuffix) :=
  archiveName_isName at'.slashless

/-- An archive that is made in the staging directory is called what the packed library is called. -/
theorem lastName_staged {name : String} (clean : w.staging.Clean) (proper : IsName name) :
    Files.lastName (w.staging.child name).text = name := by
  have parts : (w.staging.child name).parts = w.staging.parts ++ [name] := by
    rw [Path.child_name proper]
  have last := Path.baseName_text (Path.child_clean clean _) parts
  rw [Files.lastName_of_baseName (by rw [last]; exact proper.nonempty), last]

/-- The archive is made beside the layout. -/
theorem archive_spot (at' : w.StagedAt here top) {packed : Path}
    (named : packed.name = w.output.name ++ librarySuffix) :
    spot here (w.staging.child packed.name).text =
      top ++ ["library", w.output.name ++ librarySuffix] := by
  rw [named, Path.spot_child here at'.clean (packedName at'), at'.staged]
  simp

/-- Dropping the layout concerns the run directory alone. -/
theorem discard_ok (at' : w.StagedAt s.files.here top) (staged : w.ownsStaging = false)
    (ran : w.discard s = .ok u t) : s.ChangedWithin top t := by
  unfold discard at ran
  rw [staged] at ran
  obtain ⟨_, a, dropping, rest₁⟩ := bind_eq_ok.mp ran
  obtain ⟨packed, b, naming, discarding⟩ := bind_eq_ok.mp rest₁
  obtain ⟨rfl, named⟩ := packedPath_ok naming
  obtain ⟨here, kept⟩ := Files.discardTree_outside dropping
  obtain ⟨here', kept'⟩ := Files.discardFile_outside discarding
  have inside : within top (w.place s.files.here) = true := by
    simpa using at'.within_place []
  refine ⟨here'.trans here, fun place outside => ?_⟩
  have other : place ≠ spot b.files.here (w.staging.child packed.name).text := by
    rw [here, archive_spot at' named]
    rintro rfl
    simp at outside
  rw [kept' place other, kept place (within_false inside outside)]

/-- An unpacked library is published by moving the directory, after what was there was removed. -/
theorem publishTree_ok (at' : w.StagedAt s.files.here top)
    (stands : s.files.entry? (w.place s.files.here) = some .directory) (unpacked : w.unpacked = true)
    (outside : within top (spot s.files.here path.text) = false)
    (ran : w.publish s = .ok path t) :
    t.files.here = s.files.here ∧
      (∀ steps, t.files.file? (spot s.files.here path.text ++ steps) =
        s.files.file? (w.place s.files.here ++ steps)) ∧
      ∀ steps, within top (spot s.files.here path.text ++ steps) = false := by
  obtain ⟨rfl, -, cleared, fs, here, -, kept, grown, done, apart⟩ := publishTree_moves stands unpacked ran
  rw [← here, ← grown.here] at apart
  obtain ⟨here', moved, -⟩ := rename_moves done
  obtain ⟨-, notBelow, -⟩ := rename_leaves done apart
  rw [grown.here, here] at here' moved notBelow
  have inside : within top (w.place s.files.here) = true := by simpa using at'.within_place []
  have notAbove : within (w.place s.files.here) (spot s.files.here w.output.text) = false :=
    within_false inside outside
  refine ⟨here', fun steps => (file?_congr (moved steps)).trans ?_, fun steps => ?_⟩
  · rw [grown.file (fun impossible => impossible)]
    rcases kept (w.place s.files.here ++ steps) with same | ⟨-, removed⟩
    · exact file?_congr same
    · exact absurd removed (Bool.eq_false_iff.mp (within_append_false notBelow notAbove steps))
  · apply within_append_false outside
    rw [Bool.eq_false_iff] at notBelow ⊢
    exact fun above => notBelow (within_trans above inside)

/-- A packed library is published by moving the archive, perhaps into a directory. -/
theorem publishArchive_ok (at' : w.StagedAt s.files.here top) (sound : s.files.Sound)
    (stands : s.files.entry? top = some .directory) (packed : w.unpacked = false)
    (outside : within top (spot s.files.here path.text) = false)
    (ran : w.publish s = .ok path t) :
    ∃ place items, (place = spot s.files.here path.text ∨
        t.files.entry? (spot s.files.here path.text) = some .directory ∧
          place = spot s.files.here path.text ++ [w.output.name ++ librarySuffix]) ∧
      t.files.here = s.files.here ∧ t.files.file? place = some (Packed.write items) ∧
      within top place = false ∧ ∀ steps content, Proper steps →
        (⟨itemName w.output.name steps, some content⟩ ∈ items ↔
          w.place s.files.here ++ steps ≠ top ++ ["library", w.output.name ++ librarySuffix] ∧
            s.files.file? (w.place s.files.here ++ steps) = some content) := by
  unfold publish at ran
  rw [packed] at ran
  obtain ⟨target, a, naming, rest₁⟩ := bind_eq_ok.mp ran
  obtain ⟨rfl, named⟩ := packedPath_ok naming
  obtain ⟨_, m, packing, rest₂⟩ := bind_eq_ok.mp rest₁
  obtain ⟨_, n, moving, given⟩ := bind_eq_ok.mp rest₂
  obtain ⟨rfl, rfl⟩ := pure_eq_ok.mp given
  obtain ⟨items, here, file, kept, members⟩ := pack_ok sound packing
  have archive := archive_spot at' named
  have base := lastName_staged at'.clean (named ▸ packedName at' : IsName target.name)
  obtain ⟨place, reached, here', there, free, above⟩ := Files.move_file (here ▸ file) moving
  rw [here] at reached here' there free above
  rw [archive] at file kept members
  rw [base, named] at reached
  refine ⟨spot a.files.here place, items, ?_, here', there, ?_, fun steps content proper =>
    members steps content proper⟩
  · rcases reached with rfl | ⟨directory, rfl⟩
    · exact .inl rfl
    · have inside := spot_joinPaths_name a.files.here target.text (packedName at')
      exact .inr ⟨above _ directory (inside ▸ within_append _ _), inside⟩
  · rcases reached with rfl | ⟨-, rfl⟩
    · exact outside
    · rw [spot_joinPaths_name _ _ (packedName at')] at free ⊢
      rw [Bool.eq_false_iff, ne_eq, within_iff, List.prefix_concat_iff]
      rintro (same | above)
      · have other : top ≠ top ++ ["library", w.output.name ++ librarySuffix] := by simp
        rw [← same, kept top other] at free
        exact free stands
      · exact Bool.eq_false_iff.mp outside (within_iff.mpr above)

/-- The manifest is written beside the rest of the layout. -/
theorem writeManifest_ok {natives included : List (String × Bytes)}
    (at' : w.StagedAt s.files.here top) (sound : s.files.Sound) (laid : w.Laid s natives included)
    (ran : w.writeFile (w.root.child manifestName) bytes s = .ok u t) :
    w.Laid t natives included ∧ t.files.Sound ∧ t.files.here = s.files.here ∧
      t.files.file? (w.place s.files.here ++ [manifestName]) = some bytes := by
  have named : IsName manifestName := by decide
  have there : spot s.files.here (w.root.child manifestName).text =
      w.place s.files.here ++ [manifestName] := by
    rw [Path.spot_child _ (root_clean at'.clean) named, place]
  obtain ⟨laid', grown⟩ := writeFile_ok at' there (by simp [nativeSteps, targetSteps])
    (by simp [includedSteps, targetSteps]) (.refl _) laid ran
  refine ⟨laid', grown.sound sound, grown.here, ?_⟩
  obtain ⟨fs, done, ended⟩ := Files.change_ok (reporting_ok ran)
  obtain ⟨standing, -, same⟩ := write_ok done
  rw [there] at standing same
  rw [ended, same, Holds.file?_put standing.below, if_pos rfl]

/-- The layout and the run directory are there. -/
theorem Laid.directories {natives included : List (String × Bytes)} (laid : w.Laid s natives included)
    (at' : w.StagedAt s.files.here top) (sound : s.files.Sound) :
    s.files.entry? (w.place s.files.here) = some .directory ∧
      s.files.entry? top = some .directory := by
  have native : (s.files.entry? (w.place s.files.here ++ w.nativeSteps)).isSome := by
    simp [laid.natives.directory]
  refine ⟨sound.above (by simp [nativeSteps, targetSteps]) native, ?_⟩
  obtain ⟨first, rest, same⟩ := at'.place_below "targets" [w.target.name, "native"]
  have below : w.place s.files.here ++ w.nativeSteps = top ++ first :: rest := same
  exact sound.above (List.cons_ne_nil first rest) (below ▸ native)

/-- The archive does not lie as deep as the binaries of the layout. -/
theorem archive_ne {steps : Location} (at' : w.StagedAt here top) (long : 2 < steps.length) :
    w.place here ++ steps ≠ top ++ ["library", w.output.name ++ librarySuffix] := by
  intro same
  have deep := at'.length_place
  have length := congrArg List.length same
  simp only [List.length_append, List.length_cons, List.length_nil] at length
  omega

theorem archive_ne_manifest (w : LibraryWriter) (here top : Location) :
    w.place here ++ [manifestName] ≠ top ++ ["library", w.output.name ++ librarySuffix] := by
  intro same
  have last := congrArg List.getLast? same
  simp only [List.getLast?_append, List.getLast?_singleton, Option.some_or, List.getLast?_cons_cons,
    Option.some.injEq] at last
  have letter := congrArg (fun text => text.toList.getLast?) last
  simp [manifestName, librarySuffix] at letter

/-- What a packed library holds by the steps to it: the layout but for the archive itself. -/
def packedFiles (w : LibraryWriter) (fs : FileSystem) (here top : Location) (steps : Location) :
    Option Bytes :=
  if w.place here ++ steps = top ++ ["library", w.output.name ++ librarySuffix] then none
  else fs.file? (w.place here ++ steps)

theorem packedFiles_of_ne {fs : FileSystem} {steps : Location}
    (other : w.place here ++ steps ≠ top ++ ["library", w.output.name ++ librarySuffix]) :
    w.packedFiles fs here top steps = fs.file? (w.place here ++ steps) := if_neg other

theorem packedFiles_eq_some {fs : FileSystem} {steps : Location} :
    w.packedFiles fs here top steps = some content ↔
      w.place here ++ steps ≠ top ++ ["library", w.output.name ++ librarySuffix] ∧
        fs.file? (w.place here ++ steps) = some content := by
  unfold packedFiles
  split <;> simp [*]

/-- An archive of the layout is a published library. -/
theorem Published.of_members {fs fs' : FileSystem} {place : Location} {items : List Tar.Item}
    (sound : fs.Sound)
    (file : fs'.file? place = some (Packed.write items))
    (members : ∀ steps content, Proper steps → (⟨itemName w.output.name steps, some content⟩ ∈ items ↔
      w.place here ++ steps ≠ top ++ ["library", w.output.name ++ librarySuffix] ∧
        fs.file? (w.place here ++ steps) = some content)) :
    Published fs' place (w.packedFiles fs here top) false := by
  refine .archive w.output.name items file fun steps content => ?_
  rw [packedFiles_eq_some]
  constructor
  · rintro ⟨other, file⟩
    have proper := sound.proper_of_file file
    exact ⟨proper, (members steps content proper).mpr ⟨other, file⟩⟩
  · rintro ⟨proper, member⟩
    exact (members steps content proper).mp member

/-- A library that was published holds what was laid out, and the manifest. -/
theorem commit_ok {natives included : List (String × Bytes)} (at' : w.StagedAt s.files.here top)
    (sound : s.files.Sound) (laid : w.Laid s natives included) (staged : w.ownsStaging = false)
    (outside : within top (spot s.files.here path.text) = false) (ran : w.commit s = .ok path t) :
    ∃ place held manifest, (place = spot s.files.here path.text ∨
        w.unpacked = false ∧ t.files.entry? (spot s.files.here path.text) = some .directory ∧
          place = spot s.files.here path.text ++ [w.output.name ++ librarySuffix]) ∧
      Published t.files place held w.unpacked ∧ t.files.here = s.files.here ∧
      (∀ steps, steps = [] ∨ w.unpacked = true → within top (place ++ steps) = false) ∧
      MessagePack.pack (.table w.manifest) = .ok manifest ∧ held [manifestName] = some manifest ∧
      (∀ name, held (w.nativeSteps ++ [name]) = lastOf natives name) ∧
      ∀ name, held (w.includedSteps ++ [name]) = lastOf included name := by
  obtain ⟨manifest, a, packing, rest₁⟩ := bind_eq_ok.mp ran
  obtain ⟨_, m, writing, rest₂⟩ := bind_eq_ok.mp rest₁
  obtain ⟨packed, rfl⟩ := packedManifest_ok packing
  obtain ⟨laid', sound', here, file⟩ := writeManifest_ok at' sound laid writing
  obtain ⟨n, publishing, discarding⟩ := ensuring_ok rest₂
  obtain ⟨stands, topStands⟩ := Laid.directories laid' (here ▸ at') sound'
  have native (name : String) :
      m.files.file? (w.place a.files.here ++ (w.nativeSteps ++ [name])) = lastOf natives name := by
    rw [← List.append_assoc, ← here]
    exact laid'.natives.files name
  have included (name : String) :
      m.files.file? (w.place a.files.here ++ (w.includedSteps ++ [name])) = lastOf included name := by
    rw [← List.append_assoc, ← here]
    exact laid'.included.files name
  cases unpacked : w.unpacked with
  | true =>
      obtain ⟨here', moved, apart⟩ := publishTree_ok (here ▸ at') stands unpacked
        (here ▸ outside) (reporting_ok publishing)
      have dropped := discard_ok (here' ▸ here ▸ at') staged discarding
      rw [here] at moved apart
      exact ⟨_, fun steps => m.files.file? (w.place a.files.here ++ steps), manifest, .inl rfl,
        (Published.directory moved).congr fun steps _ => dropped.kept _ (apart steps),
        dropped.here.trans (here'.trans here), fun steps _ => apart steps, packed, file, native, included⟩
  | false =>
      obtain ⟨place, items, reached, here', file', apart, members⟩ := publishArchive_ok (here ▸ at')
        sound' topStands unpacked (here ▸ outside) (reporting_ok publishing)
      have dropped := discard_ok (here' ▸ here ▸ at') staged discarding
      rw [here] at reached members
      have apart' (steps : Location) (none : steps = [] ∨ false = true) :
          within top (place ++ steps) = false := by
        rcases none with rfl | impossible
        · simpa using apart
        · nomatch impossible
      refine ⟨place, w.packedFiles m.files a.files.here top, manifest, ?_,
        (Published.of_members sound' file' members).congr fun steps none => dropped.kept _ (apart' steps none),
        dropped.here.trans (here'.trans here), apart', packed, ?_, fun name => ?_, fun name => ?_⟩
      · rcases reached with same | ⟨directory, same⟩
        · exact .inl same
        · exact .inr ⟨rfl, (dropped.kept _ outside).trans directory, same⟩
      · exact (packedFiles_of_ne (archive_ne_manifest w _ top)).trans file
      · exact (packedFiles_of_ne (archive_ne at' (by simp [nativeSteps, targetSteps]))).trans (native name)
      · exact (packedFiles_of_ne (archive_ne at' (by simp [includedSteps, targetSteps]))).trans (included name)

end LibraryWriter

/-- Removing the run directory concerns nothing outside of it. -/
theorem RunDirectory.remove_within {s t : Session} (there : s.runDirectory = some directory)
    (ran : remove s = .ok u t) : s.ChangedWithin (spot s.files.here directory) t := by
  obtain ⟨s', a, got, rest⟩ := bind_eq_ok.mp ran
  obtain ⟨rfl, rfl⟩ : s = s' ∧ s = a := by simpa using got
  simp only [there] at rest
  obtain ⟨_, b, dropping, rest⟩ := bind_eq_ok.mp rest
  obtain ⟨here, kept⟩ := Files.discardTree_outside dropping
  obtain rfl : { b with runDirectory := none } = t := by simpa using rest
  exact ⟨here, kept⟩

end Foundry
