import Foundry.Proofs.Files.Removal
import Foundry.Proofs.Library.Building
import Foundry.Proofs.Library.Publishing
import Foundry.Proofs.Library.Reach

/-! What becomes of the staging directory of a library. It stands as long as the library is only built,
whether that succeeds or not, and it is gone once a library that owns it has been committed. A library
that does not own its staging directory leaves it. -/
namespace Foundry

open FileSystem Run

namespace LibraryWriter

variable {w w' : LibraryWriter} {s t : Session} {here top : Location}

theorem writeFile_upholds (w : LibraryWriter) (path : Path) (content : Bytes) :
    Obeys (relating here (Upholds top)) (w.writeFile path content) :=
  reporting_relating (Files.write_relating fun _ _ _ done => write_upholds done)

theorem copyInto_upholds (w : LibraryWriter) (source : String) (directory : Path) :
    Obeys (relating here (Upholds top)) (w.copyInto source directory) :=
  reporting_relating (Files.copy_relating fun _ _ _ _ _ done => write_upholds done)

/-- What is asked of a library removes nothing, unless the library is dropped. -/
theorem answer_upholds {call : Call} (drafting : call ≠ .discard) :
    Obeys (relating here (Upholds top)) (w.answer call) := by
  cases call with
  | writeModule | addLinkData | addEscapeAnalysis | addDataFlowGraph =>
      exact (w.writeFile_upholds _ _).map _
  | addNative library => exact (w.copyInto_upholds _ _).bind fun _ => obeys_pure _
  | addIncluded library => exact (w.copyInto_upholds _ _).map _
  | addManifest file =>
      have reading : Obeys still (Files.read file) := Files.ask_still _ _
      refine (reporting_relating reading.relating).bind fun content => ?_
      split
      · exact obeys_pure _
      · exact (throw_still _).relating
      · exact (throw_still _).relating
  | addDepends names => exact obeys_pure _
  | discard => exact absurd rfl drafting

theorem answerEach_upholds {calls : List Call} (drafting : Call.discard ∉ calls) :
    Obeys (relating here (Upholds top)) (w.answerEach calls) := by
  induction calls generalizing w with
  | nil => exact obeys_pure w
  | cons call rest ih =>
      rw [List.mem_cons, not_or] at drafting
      exact (answer_upholds (Ne.symm drafting.1)).bind fun w => ih drafting.2

/-- Laying out a library removes an older layout alone. -/
theorem layOut_upholds (outside : within (w.place here) top = false) :
    Obeys (relating here (Upholds top)) w.layOut := by
  have making : Obeys (relating here (Upholds top))
      ([w.linkData, w.programDirectory, w.nativeDirectory, w.includedDirectory].forM
        Files.makeDirectories) :=
    obeys_forM fun path _ => Files.makeDirectories_relating fun _ _ _ _ _ done =>
      makeDirectory_upholds done
  have clearing : Obeys (relating here (Upholds top)) (Files.removeTree (.typed w.root.text)) :=
    Files.removeTree_relating fun _ _ _ same done => removeTree_upholds (same ▸ outside) done
  refine (Files.lookStrictly_still _).relating.bind fun _ => ?_
  split
  · exact clearing.bind fun _ => making
  · exact making

/-- Where a library with a name is laid out. -/
theorem place_of_staging (clean : w.staging.Clean) (proper : IsName w.output.name) (here : Location) :
    w.place here = spot here w.staging.text ++ [w.output.name] :=
  Path.spot_child here clean proper

theorem staging_outside (clean : w.staging.Clean) (proper : IsName w.output.name) (here : Location) :
    within (w.place here) (spot here w.staging.text) = false := by
  rw [Bool.eq_false_iff, place_of_staging clean proper]
  intro inside
  have length := (within_iff.mp inside).length_le
  rw [List.length_append, List.length_singleton] at length
  omega

section Build
variable {output name : String} {target : Target} {abiVersion : Int} {unpacked : Bool}
  {staging : Option String} {parts : Parts}

theorem stagingDirectory_made (own : staging = none ∨ staging = some "")
    (found : stagingDirectory staging s = .ok directory t) :
    Files.makeTemporaryDirectory stagingStem s = .ok directory t := by
  rcases own with rfl | rfl <;> exact found

/-- The path of a staging directory that was made. -/
theorem stagingDirectory_path (own : staging = none ∨ staging = some "")
    (found : stagingDirectory staging s = .ok directory t) :
    ∃ number : Nat, directory = joinPaths s.host.temporary (stagingStem ++ toString number) := by
  obtain ⟨number, _, _, path, -⟩ := Files.makeTemporaryDirectory_ok (stagingDirectory_made own found)
  exact ⟨number, path⟩

theorem stagingDirectory_descends (own : staging = none ∨ staging = some "")
    (found : stagingDirectory staging s = .ok directory t)
    (descends : ".." ∉ Text.split '/' s.host.temporary) :
    (Path.ofText directory).parts ≠ [] ∧ ".." ∉ Text.split '/' (Path.ofText directory).text := by
  obtain ⟨number, rfl⟩ := stagingDirectory_path own found
  have named := Path.parts_joinPaths s.host.temporary (isName_staging number)
  exact ⟨named, Path.descends_ofText (descends_joinPaths descends (isName_staging number)) named⟩

/-- A staging directory that was made stands. -/
theorem stagingDirectory_stands (sound : s.files.Sound) (own : staging = none ∨ staging = some "")
    (found : stagingDirectory staging s = .ok directory t) :
    t.files.here = s.files.here ∧ t.files.Sound ∧
      t.files.entry? (spot s.files.here directory) = some .directory := by
  obtain ⟨number, fs, draws, -, -, done, rfl⟩ :=
    Files.makeTemporaryDirectory_ok (stagingDirectory_made own found)
  have grown : s.files.Extends (fun _ => True) fs := makeDirectory_extends done
  obtain ⟨standing, -, made⟩ := makeDirectory_ok done
  refine ⟨grown.here, grown.sound sound, ?_⟩
  dsimp only
  rw [made, entry?_put_self _ standing.below]

/-- Whether a library is built or not, the staging directory that was made for it stands. -/
theorem build_stands (sound : s.files.Sound) (own : staging = none ∨ staging = some "")
    (proper : IsName (Path.ofText (Text.dropTail output librarySuffix)).name)
    (found : stagingDirectory staging s = .ok directory t) :
    let u := (build output name target abiVersion unpacked staging parts).after s
    u.files.here = s.files.here ∧ u.files.Sound ∧
      u.files.entry? (spot s.files.here directory) = some .directory := by
  obtain ⟨here, sound', stands⟩ := stagingDirectory_stands sound own found
  have outside := staging_outside (w := begun output name target abiVersion unpacked staging directory)
    (Path.ofText_clean directory) proper s.files.here
  have there : spot s.files.here
      (begun output name target abiVersion unpacked staging directory).staging.text =
        spot s.files.here directory := Path.spot_ofText _ _
  rw [there] at outside
  have rest : Obeys (relating s.files.here (Upholds (spot s.files.here directory)))
      (reporting (begun output name target abiVersion unpacked staging directory).root Refusal.reason
        (begun output name target abiVersion unpacked staging directory).layOut >>= fun _ =>
          (begun output name target abiVersion unpacked staging directory).answerEach parts.calls) :=
    (reporting_relating (layOut_upholds outside)).bind fun _ =>
      answerEach_upholds parts.discard_not_mem_calls
  have ran : (build output name target abiVersion unpacked staging parts).after s =
      (reporting (begun output name target abiVersion unpacked staging directory).root Refusal.reason
        (begun output name target abiVersion unpacked staging directory).layOut >>= fun _ =>
          (begun output name target abiVersion unpacked staging directory).answerEach
            parts.calls).after t := by
    rw [build_eq, start_eq, bind_assoc, after_bind_of_ok found, bind_assoc]
    simp only [pure_bind]
  have upheld := rest t here
  obtain ⟨sound'', stands'⟩ := upheld.stands sound' stands
  rw [ran]
  exact ⟨upheld.here.trans here, sound'', stands'⟩

end Build

/-- Write the manifest. -/
def sealUp (w : LibraryWriter) : Run Unit := do
  w.writeFile (w.root.child manifestName) (← w.packedManifest)

theorem commit_eq (w : LibraryWriter) : w.commit = w.sealUp >>= fun _ =>
    Run.ensuring (reporting w.output Refusal.text w.publish) w.discard := by
  rw [commit, sealUp, bind_assoc]

theorem sealUp_upholds (w : LibraryWriter) : Obeys (relating here (Upholds top)) w.sealUp := by
  have packing : Obeys still w.packedManifest := by
    unfold packedManifest
    split
    · exact obeys_pure _
    · exact throw_still _
  exact packing.relating.bind fun _ => w.writeFile_upholds _ _

/-- However a library is published, it is dropped then. -/
theorem after_commit (sealed : w.sealUp s = .ok () t) :
    w.commit.after s = w.discard.after (w.publish.after t) := by
  rw [commit_eq, after_bind_of_ok sealed, after_ensuring, after_reporting]

section Commit
variable (clean : w.staging.Clean) (proper : IsName w.output.name)
include clean proper

/-- A library that is published as a directory, and not in place of something above its staging
directory, leaves that one. -/
theorem publishTree_upholds (unpacked : w.unpacked = true)
    (outside : within (spot here w.output.text) (spot here w.staging.text) = false) :
    Obeys (relating here (Upholds (spot here w.staging.text))) w.publish := by
  refine publishTree_relating unpacked (fun _ _ _ same done => ?_) (fun _ _ same done => ?_)
    (fun _ _ _ _ _ done => write_upholds done) (fun _ _ _ done => removeFile_upholds done)
    fun _ _ _ _ _ done => makeDirectory_upholds done
  · subst same
    exact removeTree_upholds outside done
  · subst same
    exact rename_upholds (staging_outside clean proper _) done

/-- The archive of a library is packed directly in the staging directory, and moving it leaves that one. -/
theorem publishArchive_upholds (packed : w.unpacked = false) :
    Obeys (relating here (Upholds (spot here w.staging.text))) w.publish := by
  rw [publish, packed, if_neg Bool.false_ne_true]
  intro s
  refine Meets.bind (w.packedPath_still.relating s) fun path t naming => ?_
  have named : IsName path.name :=
    (packedPath_ok naming).2 ▸ archiveName_isName proper.clean
  have aside : within (spot here (w.staging.child path.name).text)
      (spot here w.staging.text) = false := by
    rw [Path.spot_child here clean named, Bool.eq_false_iff]
    intro inside
    have length := (within_iff.mp inside).length_le
    rw [List.length_append, List.length_singleton] at length
    omega
  have packing : Obeys (relating here (Upholds (spot here w.staging.text)))
      (w.pack (w.staging.child path.name)) :=
    pack_relating fun _ _ _ _ done => write_upholds done
  have moving : Obeys (relating here (Upholds (spot here w.staging.text)))
      (Files.move (w.staging.child path.name).text path.text) := by
    refine Files.move_relating (fun _ _ _ same _ done => ?_)
      (fun _ _ _ _ _ _ _ done => write_upholds done) (fun _ _ _ done => removeFile_upholds done)
      fun _ _ _ _ _ _ _ done => makeDirectory_upholds done
    subst same
    exact rename_upholds aside done
  exact (packing.bind fun _ => moving.bind fun _ => obeys_pure path) t

/-- Dropping a library that does not own its staging directory leaves that one. -/
theorem discard_upholds (shared : w.ownsStaging = false) :
    Obeys (relating here (Upholds (spot here w.staging.text))) w.discard := by
  have discarding : Obeys (relating here (Upholds (spot here w.staging.text)))
      (Files.discardTree w.root.text) := by
    refine Files.discardTree_relating fun _ _ _ same done => ?_
    subst same
    exact removeTree_upholds (staging_outside clean proper _) done
  rw [discard, shared, if_neg Bool.false_ne_true]
  exact discarding.bind fun _ => w.packedPath_still.relating.bind fun _ =>
    Files.discardFile_relating fun _ _ _ done => removeFile_upholds done

/-- A library that does not own its staging directory leaves it, unless it is published in place of
something above. -/
theorem commit_upholds (shared : w.ownsStaging = false)
    (outside : w.unpacked = true →
      within (spot here w.output.text) (spot here w.staging.text) = false) :
    Obeys (relating here (Upholds (spot here w.staging.text))) w.commit := by
  have publishing : Obeys (relating here (Upholds (spot here w.staging.text))) w.publish := by
    cases unpacked : w.unpacked with
    | true => exact publishTree_upholds clean proper unpacked (outside unpacked)
    | false => exact publishArchive_upholds clean proper unpacked
  rw [commit_eq]
  exact w.sealUp_upholds.bind fun _ =>
    relating_ensuring (reporting_relating publishing) (discard_upholds clean proper shared)

/-- Once the manifest has been written, nothing is left of a staging directory of the library's own,
whether the library is published or not. -/
theorem commit_clears (some : w.staging.parts ≠ [])
    (descends : ".." ∉ Text.split '/' w.staging.text) (owned : w.ownsStaging = true)
    (sound : s.files.Sound) (sealed : w.sealUp s = .ok () t) :
    (w.commit.after s).files.entry? (spot s.files.here w.staging.text) = none := by
  obtain ⟨bytes, a, packing, written⟩ := bind_eq_ok.mp sealed
  obtain ⟨-, rfl⟩ := packedManifest_ok packing
  obtain ⟨fs, done, ended⟩ := Files.change_ok (reporting_ok written)
  have grown : a.files.Extends (fun _ => True) t.files := by
    rw [ended]
    exact write_extends done trivial
  obtain ⟨above, name, found⟩ := write_last done
  have located := ((last_name found).2.2.2 rfl).1
  obtain ⟨reachable, -⟩ := reachable_of_manifest clean some proper
    (locate_stays grown.here (.of_directories fun _ => grown.directory) located)
    (Files.change_whole (reporting_ok written))
  have laid : w.StagedIn t.files.here (spot t.files.here w.staging.text) := by
    refine ⟨clean, proper.clean, within_self _, ?_⟩
    rw [place_of_staging clean proper]
    exact within_append _ _
  have spared := publish_sparing laid t rfl
  have fileless : (w.publish.after t).files.Fileless
      (spot (w.publish.after t).files.here w.staging.text) := by
    rw [spared.changes.here]
    refine spared.fileless ⟨grown.sound sound, fun content file => ?_⟩
    rw [reachable.stands] at file
    nomatch file
  obtain ⟨short, whole⟩ := staging_short reachable proper
  obtain ⟨fs', discarded, -, entries⟩ := Files.discardTree_fileless whole descends
    (reachable.last_staging clean descends short) spared.changes.here fileless
  have dropped : w.discard = Files.discardTree w.staging.text := by rw [discard, owned, if_pos rfl]
  rw [after_commit sealed, dropped, after_of_ok discarded]
  dsimp only
  rw [entries, spared.changes.here, grown.here, if_pos (within_self _)]

/-- A staging directory of the library's own is gone exactly if the manifest could be written. -/
theorem commit_clears_iff (named : w.staging.parts ≠ [])
    (descends : ".." ∉ Text.split '/' w.staging.text) (owned : w.ownsStaging = true)
    (sound : s.files.Sound)
    (stands : s.files.entry? (spot s.files.here w.staging.text) = some .directory) :
    (w.commit.after s).files.entry? (spot s.files.here w.staging.text) = none ↔
      w.sealUp.failure? s = none := by
  cases sealing : w.sealUp s with
  | ok _ t =>
      exact iff_of_true (commit_clears clean proper named descends owned sound sealing)
        (failure?_of_ok sealing)
  | error e t =>
      have upheld := (w.sealUp_upholds s rfl).stands sound stands
      rw [after_of_error sealing] at upheld
      rw [commit_eq, after_bind_of_error sealing]
      exact iff_of_false (by simp [upheld.2]) (by simp [failure?, sealing])

end Commit

end LibraryWriter

end Foundry
