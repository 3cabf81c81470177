import Foundry.Proofs.Library.Leaving

/-! How writing a library ends. Building and committing a library report every refused file operation as
a library that cannot be written. What else they can fail with, and when a staging directory of the
library's own is left behind, is listed in full. -/
namespace Foundry

open FileSystem Run

namespace LibraryWriter

variable {w : LibraryWriter} {s t : Session}

theorem packedPath_of_some {packed : Path} (named : w.packedPath? = some packed) :
    w.packedPath = pure packed ∧ w.staging.child packed.name = w.archivePath := by
  refine ⟨by rw [packedPath, named], ?_⟩
  rw [archivePath, name_of_packedPath? named]

theorem packedPath_of_none (nameless : w.packedPath? = none) :
    w.packedPath = throw (.emptyName w.output) := by
  rw [packedPath, nameless]

theorem publish_of_unnamed (packs : w.unpacked = false) (nameless : w.packedPath? = none) :
    w.publish = throw (.emptyName w.output) := by
  rw [publish, packs, if_neg Bool.false_ne_true, packedPath_of_none nameless]
  rfl

theorem publish_of_named {packed : Path} (packs : w.unpacked = false)
    (named : w.packedPath? = some packed) : w.publish = (do
      w.pack w.archivePath
      Files.move w.archivePath.text packed.text
      pure packed) := by
  obtain ⟨given, there⟩ := packedPath_of_some named
  rw [publish, packs, if_neg Bool.false_ne_true, given, pure_bind, there]

/-- What is laid out can be dropped, unless the library has no name to be packed under, or the archive
beside the layout is no file that can be removed. -/
theorem discard_failure_iff : w.discard.failure? s = some e ↔ w.ownsStaging = false ∧
    (w.packedPath? = none ∧ e = .emptyName w.output ∨ w.packedPath?.isSome ∧
      (Files.discardFile w.archivePath.text).failure? ((Files.discardTree w.root.text).after s) =
        some e) := by
  unfold discard
  cases owned : w.ownsStaging with
  | true =>
      obtain ⟨u, dropped⟩ := Files.discardTree_total w.staging.text s
      simp [failure?, dropped]
  | false =>
      obtain ⟨u, dropped⟩ := Files.discardTree_total w.root.text s
      rw [if_neg Bool.false_ne_true, after_of_ok dropped]
      cases named : w.packedPath? with
      | none => simp [failure?, bind, EStateM.bind, dropped, packedPath_of_none named, eq_comm]
      | some packed =>
          obtain ⟨given, same⟩ := packedPath_of_some named
          rw [given, pure_bind, same]
          simp [failure?, bind, EStateM.bind, dropped]

theorem pack_refuses {archive : Path} (whole : Files.holdsZero archive.text = false) :
    OnFiles Failure.IsRefusal (w.pack archive) := by
  refine (Files.change_refuses whole _).bind fun _ => Files.current_filesOnly.bind fun fs => ?_
  refine OnFiles.bind ?_ fun _ => Files.change_refuses whole _
  cases w.items fs archive with
  | ok items => exact .pure _
  | error refusal => exact Files.refused_refuses refusal

section Publish
variable (clean : w.output.Clean) (whole : Files.holdsZero w.root.text = false)
include clean whole

theorem archivePath_whole : Files.holdsZero w.archivePath.text = false := by
  obtain ⟨slashless, notSelf⟩ := Path.name_clean clean
  have suffix : '\x00' ∉ librarySuffix.toList := by decide
  rw [Bool.eq_false_iff, ne_eq, Files.holdsZero_text] at whole ⊢
  rw [root_eq slashless notSelf] at whole
  rw [archivePath, Path.child_name (archiveName_isName slashless)]
  rintro ⟨part, member, zero⟩
  rcases List.mem_append.mp member with staged | named
  · exact whole ⟨part, List.mem_append_left _ staged, zero⟩
  · rw [List.mem_singleton.mp named, String.toList_append, List.mem_append] at zero
    have zero := zero.resolve_right suffix
    have nonempty : w.output.name ≠ "" := fun empty => by simp [empty] at zero
    exact whole ⟨w.output.name, by simp [nonempty], zero⟩

omit clean in
/-- A directory is not moved to a path with a zero in it. -/
theorem publishTree_failure_iff (unpacked : w.unpacked = true) :
    w.publish.failure? s = some e ∧ ¬ e.IsRefusal ↔
      Files.holdsZero w.output.text = true ∧ e = .zeroInPath := by
  cases zero : Files.holdsZero w.output.text with
  | true =>
      have failed := failure?_eq_some.mpr ⟨s, publishTree_zero unpacked whole zero⟩
      simpa using failure?_iff (K := Failure.IsRefusal) failed id
  | false =>
      have plain : Files.holdsZero (FileName.typed w.output.text).plain = false := by
        rw [FileName.plain]
        exact zero
      have clearing : OnFiles Failure.IsRefusal (clear w.output.text) := by
        refine (Files.lookStrictly_refuses _).bind fun _ => ?_
        split
        · exact Files.removeTree_refuses plain
        · exact .pure _
      have refuses : OnFiles Failure.IsRefusal w.publish := by
        rw [publish_unpacked unpacked]
        exact clearing.bind fun _ => (Files.move_refuses whole zero).bind fun _ => .pure _
      exact iff_of_false refuses.no_other_failure (by simp)

/-- An archive that is packed is not moved to a path with a zero in it. -/
theorem publishArchive_failure_iff {packed : Path} (packs : w.unpacked = false)
    (named : w.packedPath? = some packed) : w.publish.failure? s = some e ∧ ¬ e.IsRefusal ↔
      (w.pack w.archivePath).failure? s = none ∧ Files.holdsZero packed.text = true ∧ e = .zeroInPath := by
  have archived := archivePath_whole clean whole
  rw [publish_of_named packs named, (pack_refuses archived).failure?_bind_iff]
  simp only [bind_pure_comp, failure?_map, Files.move_failure_iff archived, exists_and_right,
    failure?_eq_none]

/-- How a library fails to be published but by a refused file operation: it has no name to be packed
under, or it is ready to be moved to a path with a zero in it. -/
theorem publish_failure_iff : w.publish.failure? s = some e ∧ ¬ e.IsRefusal ↔
    w.published? = none ∧ e = .emptyName w.output ∨
      ∃ path, w.published? = some path ∧ Files.holdsZero path.text = true ∧
        (w.unpacked = false → (w.pack w.archivePath).failure? s = none) ∧ e = .zeroInPath := by
  cases unpacked : w.unpacked with
  | true =>
      have published : w.published? = some w.output := if_pos unpacked
      rw [publishTree_failure_iff whole unpacked, published]
      simp
  | false =>
      have published : w.published? = w.packedPath? := by
        rw [published?, unpacked, if_neg Bool.false_ne_true]
      rw [published]
      cases named : w.packedPath? with
      | none =>
          have failed : w.publish.failure? s = some (.emptyName w.output) := by
            rw [publish_of_unnamed unpacked named, failure?, throw_apply]
          simpa using failure?_iff (K := Failure.IsRefusal) failed id
      | some packed =>
          rw [publishArchive_failure_iff clean whole unpacked named]
          simp [and_left_comm]

end Publish

/-- How a library fails to be committed other than by reporting that it cannot be written. -/
inductive Uncommitted (w : LibraryWriter) (s : Session) : Failure → Prop where
  /-- The manifest holds what cannot be packed. -/
  | unpackable (e : PackError) : MessagePack.pack (.table w.manifest) = .error e →
      Uncommitted w s (.unpackable e)
  /-- The library has no name to be packed under, or to look for its archive by when it is dropped. -/
  | nameless (t : Session) : w.sealUp s = .ok () t → w.packedPath? = none →
      (w.ownsStaging = true → w.unpacked = false) → Uncommitted w s (.emptyName w.output)
  /-- What is beside the layout, where the archive would be, cannot be removed. -/
  | undropped (t : Session) (e : Failure) : w.sealUp s = .ok () t → w.ownsStaging = false →
      w.packedPath?.isSome → (Files.discardFile w.archivePath.text).failure?
        ((Files.discardTree w.root.text).after (w.publish.after t)) = some e → Uncommitted w s e
  /-- The library is ready to be moved to a path with a zero in it. -/
  | zeroInPath (t : Session) (path : Path) : w.sealUp s = .ok () t → w.published? = some path →
      Files.holdsZero path.text = true →
      (w.unpacked = false → (w.pack w.archivePath).failure? t = none) →
      w.discard.failure? (w.publish.after t) = none → Uncommitted w s .zeroInPath

section Commit
variable (clean : w.output.Clean) (whole : Files.holdsZero w.root.text = false)
include clean whole

omit clean in
theorem sealUp_failure_iff : w.sealUp.failure? s = some e ∧ ¬ e.IsUnwritten ↔
    ∃ e', MessagePack.pack (.table w.manifest) = .error e' ∧ e = .unpackable e' := by
  have placed : Files.holdsZero (w.root.child manifestName).text = false :=
    Files.holdsZero_child (by decide) whole
  constructor
  · rintro ⟨failed, other⟩
    rcases failure?_bind.mp failed with unpacked | ⟨_, _, _, unwritten⟩
    · unfold packedManifest at unpacked
      cases packed : MessagePack.pack (.table w.manifest) with
      | ok bytes => simp [packed, failure?, pure, EStateM.pure] at unpacked
      | error e' =>
          simp only [packed, failure?, throw_apply, Option.some.injEq] at unpacked
          exact ⟨e', rfl, unpacked.symm⟩
    · exact absurd (writeFile_unwritten placed unwritten) other
  · rintro ⟨e', packed, rfl⟩
    refine ⟨failure?_bind.mpr (.inl ?_), id⟩
    simp [packedManifest, packed, failure?]

/-- What is reported of a library that is not published are refused file operations. -/
theorem publish_unreported_iff :
    (reporting w.output Refusal.text w.publish).failure? s = some e ∧ ¬ e.IsUnwritten ↔
      w.publish.failure? s = some e ∧ ¬ e.IsRefusal := by
  constructor
  · rintro ⟨failed, other⟩
    rcases failure?_reporting.mp failed with ⟨r, -, rfl⟩ | ends
    · exact absurd trivial other
    · exact ends
  · intro ends
    refine ⟨failure?_reporting.mpr (.inr ends), ?_⟩
    rcases (publish_failure_iff clean whole).mp ends with ⟨-, rfl⟩ | ⟨_, -, -, -, rfl⟩ <;> exact id

omit clean whole in
/-- How publishing and then dropping the layout fails. -/
theorem ensuring_publish_failure_iff :
    (Run.ensuring (reporting w.output Refusal.text w.publish) w.discard).failure? t = some e ↔
      w.discard.failure? (w.publish.after t) = some e ∨
        w.discard.failure? (w.publish.after t) = none ∧
          (reporting w.output Refusal.text w.publish).failure? t = some e := by
  rw [failure?_ensuring, after_reporting, Option.or_eq_some_iff]

theorem Uncommitted.of_failure (failed : w.commit.failure? s = some e) (other : ¬ e.IsUnwritten) :
    w.Uncommitted s e := by
  rw [commit_eq] at failed
  rcases failure?_bind.mp failed with unsealed | ⟨_, t, sealed, failed⟩
  · obtain ⟨e', packed, rfl⟩ := (sealUp_failure_iff whole).mp ⟨unsealed, other⟩
    exact .unpackable e' packed
  rcases ensuring_publish_failure_iff.mp failed with undropped | ⟨dropped, unpublished⟩
  · obtain ⟨shared, ⟨nameless, rfl⟩ | ⟨named, kept⟩⟩ := discard_failure_iff.mp undropped
    · exact .nameless t sealed nameless (by simp [shared])
    · exact .undropped t e sealed shared named kept
  · have unpublished := (publish_unreported_iff clean whole).mp ⟨unpublished, other⟩
    rcases (publish_failure_iff clean whole).mp unpublished with
      ⟨nameless, rfl⟩ | ⟨path, published, zero, ready, rfl⟩
    · unfold published? at nameless
      split at nameless
      · nomatch nameless
      · rename_i packed
        exact .nameless t sealed nameless fun _ => Bool.eq_false_iff.mpr packed
    · exact .zeroInPath t path sealed published zero ready dropped

theorem Uncommitted.failure (uncommitted : w.Uncommitted s e) :
    w.commit.failure? s = some e ∧ ¬ e.IsUnwritten := by
  have ending {t : Session} (sealed : w.sealUp s = .ok () t)
      (failed : w.discard.failure? (w.publish.after t) = some e ∨
        w.discard.failure? (w.publish.after t) = none ∧ w.publish.failure? t = some e ∧ ¬ e.IsRefusal) :
      (w.sealUp >>= fun _ =>
        Run.ensuring (reporting w.output Refusal.text w.publish) w.discard).failure? s = some e := by
    refine failure?_bind.mpr (.inr ⟨(), t, sealed, ensuring_publish_failure_iff.mpr ?_⟩)
    exact failed.imp_right fun ⟨dropped, unpublished⟩ =>
      ⟨dropped, ((publish_unreported_iff clean whole).mpr unpublished).1⟩
  rw [commit_eq]
  cases uncommitted with
  | unpackable e' packed =>
      obtain ⟨unsealed, other⟩ := (sealUp_failure_iff (s := s) whole).mpr ⟨e', packed, rfl⟩
      exact ⟨failure?_bind.mpr (.inl unsealed), other⟩
  | nameless t sealed nameless packs =>
      refine ⟨ending sealed ?_, id⟩
      cases owned : w.ownsStaging with
      | false => exact .inl (discard_failure_iff.mpr ⟨owned, .inl ⟨nameless, rfl⟩⟩)
      | true =>
          have dropped : w.discard.failure? (w.publish.after t) = none := by
            rw [Option.eq_none_iff_forall_ne_some]
            intro e failed
            rw [discard_failure_iff, owned] at failed
            exact absurd failed.1 (by decide)
          have published : w.published? = none := by
            rw [published?, packs owned, if_neg Bool.false_ne_true, nameless]
          exact .inr ⟨dropped, (publish_failure_iff clean whole).mpr (.inl ⟨published, rfl⟩)⟩
  | undropped t _ sealed shared named kept =>
      have kind : e.IsOfFile := (Files.discardFile_filesOnly w.archivePath.text).failure?_kind kept
      exact ⟨ending sealed (.inl (discard_failure_iff.mpr ⟨shared, .inr ⟨named, kept⟩⟩)),
        kind.not_isUnwritten⟩
  | zeroInPath t path sealed published zero ready dropped =>
      refine ⟨ending sealed (.inr ⟨dropped, ?_⟩), id⟩
      exact (publish_failure_iff clean whole).mpr (.inr ⟨path, published, zero, ready, rfl⟩)

theorem commit_failure_iff : w.commit.failure? s = some e ∧ ¬ e.IsUnwritten ↔ w.Uncommitted s e :=
  ⟨fun ⟨failed, other⟩ => .of_failure clean whole failed other, Uncommitted.failure clean whole⟩

end Commit

section Contract
variable {output name : String} {target : Target} {abiVersion : Int} {unpacked : Bool}
  {staging : Option String} {parts : Parts}

/-- A library that was built is the one that was begun, with what it records of its parts. -/
theorem built_of_begun (ran : build output name target abiVersion unpacked staging parts s = .ok w t) :
    ∃ directory u, stagingDirectory staging s = .ok directory u ∧
      w.output = .ofText (Text.dropTail output librarySuffix) ∧ w.staging = .ofText directory ∧
      w.ownsStaging = staging.isNone ∧ w.unpacked = unpacked ∧ Files.holdsZero w.root.text = false := by
  rw [build_eq] at ran
  obtain ⟨w₀, v, began, ran⟩ := bind_eq_ok.mp ran
  obtain ⟨directory, u, found, rfl, laid⟩ := start_begun began
  have whole := layOut_whole laid
  have same := answerEach_ok ran
  rw [same]
  exact ⟨directory, u, found, rfl, rfl, rfl, rfl, whole⟩

/-- What building and committing a library can fail with other than by reporting that it cannot be
written is listed in full. A staging directory that was made for the library stands when it could not be
built. Once the library was committed the directory is gone exactly if the library owns it and its
manifest has been written, whatever became of the rest. -/
theorem reports_and_clears_iff (output name : String) (target : Target) (abiVersion : Int)
    (unpacked : Bool) (staging : Option String) (parts : Parts) (s : Session) :
    let building := build output name target abiVersion unpacked staging parts
    (∀ e, building.failure? s = some e ∧ ¬ e.IsUnwritten ↔
      Unbuilt output name target abiVersion unpacked staging parts s e) ∧
    (∀ w t, building s = .ok w t → ∀ e,
      w.commit.failure? t = some e ∧ ¬ e.IsUnwritten ↔ w.Uncommitted t e) ∧
    ∀ directory u, staging = none ∨ staging = some "" → stagingDirectory staging s = .ok directory u →
      s.files.Sound → ".." ∉ Text.split '/' s.host.temporary →
      IsName (Path.ofText (Text.dropTail output librarySuffix)).name →
      (∀ e t, building s = .error e t →
        t.files.entry? (spot s.files.here directory) = some .directory) ∧
      ∀ w t, building s = .ok w t →
        (staging = some "" → unpacked = true → within (spot s.files.here w.output.text)
          (spot s.files.here directory) = false) →
        ((w.commit.after t).files.entry? (spot s.files.here directory) = none ↔
          staging = none ∧ w.sealUp.failure? t = none) := by
  intro building
  refine ⟨fun e => build_failure_iff, fun w t ran e => ?_,
    fun directory u own found sound descends proper => ?_⟩
  · obtain ⟨_, _, -, output', -, -, -, whole⟩ := built_of_begun ran
    exact commit_failure_iff (output' ▸ Path.ofText_clean _) whole
  have built : (building.after s).files.here = s.files.here ∧ (building.after s).files.Sound ∧
      (building.after s).files.entry? (spot s.files.here directory) = some .directory :=
    build_stands sound own proper found
  refine ⟨fun e t failed => ?_, fun w t ran elsewhere => ?_⟩
  · rw [after_of_error failed] at built
    exact built.2.2
  · rw [after_of_ok ran] at built
    obtain ⟨here, sound', stands⟩ := built
    obtain ⟨directory', u', found', output', staging', owns, packs, -⟩ := built_of_begun ran
    rw [found] at found'
    obtain ⟨rfl, rfl⟩ := EStateM.Result.ok.inj found'
    have clean : w.staging.Clean := staging' ▸ Path.ofText_clean _
    have proper' : IsName w.output.name := output' ▸ proper
    have there : spot s.files.here w.staging.text = spot s.files.here directory := by
      rw [staging', Path.spot_ofText]
    rw [← there] at stands elsewhere ⊢
    rw [← here] at stands elsewhere ⊢
    rcases own with rfl | rfl
    · obtain ⟨named, descends'⟩ := stagingDirectory_descends (.inl rfl) found descends
      rw [← staging'] at named descends'
      rw [commit_clears_iff clean proper' named descends' owns sound' stands]
      simp
    · have outside (unpacks : w.unpacked = true) := elsewhere rfl (packs ▸ unpacks)
      have upheld := (commit_upholds clean proper' owns outside t rfl).stands sound' stands
      exact iff_of_false (by simp [upheld.2]) (by simp)

/-- A library for Linux is built, packed beside the current directory, and committed. -/
def buildAndCommit (parts : Parts) : Run Path := do
  let w ← build "lib" "lib" .linuxX64 1 false none parts
  w.commit

theorem buildAndCommit_empty :
    (buildAndCommit {}).outcome? (fun _ => ()) Session.blank = some (.ofText "lib.klib", ()) := by
  decide +kernel

theorem stagingDirectory_blank : (stagingDirectory none).outcome? (fun _ => ()) Session.blank =
    some ("/tmp/klib-1", ()) := by
  decide +kernel

/-- A library without parts is committed, and nothing is left of the directory in which it was
staged. -/
theorem empty_library_written : ∃ w t path u,
    build "lib" "lib" .linuxX64 1 false none {} Session.blank = .ok w t ∧ w.commit t = .ok path u ∧
      (∀ e, ¬ w.Uncommitted t e) ∧ u.files.entry? ["tmp", "klib-1"] = none := by
  obtain ⟨v, found, -⟩ := outcome?_eq_some.mp stagingDirectory_blank
  obtain ⟨u, ran, -⟩ := outcome?_eq_some.mp buildAndCommit_empty
  obtain ⟨w, t, built, committed⟩ := bind_eq_ok.mp ran
  obtain ⟨-, failing, remains⟩ :=
    reports_and_clears_iff "lib" "lib" .linuxX64 1 false none {} Session.blank
  obtain ⟨-, clears⟩ := remains "/tmp/klib-1" v (.inl rfl) found (.of_entries (by decide) (by decide))
    (by decide) (by decide)
  obtain ⟨_, m, sealed, -⟩ := bind_eq_ok.mp (w.commit_eq ▸ committed)
  have cleared := (clears w t built nofun).mpr ⟨rfl, failure?_of_ok sealed⟩
  rw [after_of_ok committed] at cleared
  refine ⟨w, t, _, u, built, committed, fun e uncommitted => ?_, cleared⟩
  have failed := ((failing w t built e).mpr uncommitted).1
  rw [failure?_of_ok committed] at failed
  nomatch failed

/-- A session with a manifest that holds a date. -/
def withDate : Session :=
  { Session.blank with files := { entries := [(["tmp"], .directory), (["work"], .directory),
      (["work", "m.toml"], .file (Utf8.encode "d = 1979-05-27\n"))], here := ["work"] } }

theorem built_withDate :
    (build "lib" "lib" .linuxX64 1 false none { manifestFile := some "m.toml" }).failure? withDate =
      none := by
  decide +kernel

theorem uncommitted_withDate :
    (buildAndCommit { manifestFile := some "m.toml" }).defeat?
      (·.files.entry? ["tmp", "klib-1"]) withDate =
      some (.unpackable .unpackable, some .directory) := by
  decide +kernel

/-- A date in the manifest of the user is read, but the manifest of the library cannot be packed then:
committing fails otherwise than by reporting that, and the staging directory stays. -/
theorem dated_manifest_unreported : ∃ w t e u,
    build "lib" "lib" .linuxX64 1 false none { manifestFile := some "m.toml" } withDate = .ok w t ∧
      w.commit t = .error e u ∧ ¬ e.IsUnwritten ∧
      u.files.entry? ["tmp", "klib-1"] = some .directory := by
  obtain ⟨u, failed, stands⟩ := defeat?_eq_some.mp uncommitted_withDate
  rcases bind_eq_error.mp failed with unbuilt | ⟨w, t, built, uncommitted⟩
  · have failing := failure?_eq_some.mpr ⟨u, unbuilt⟩
    rw [built_withDate] at failing
    nomatch failing
  · exact ⟨w, t, _, u, built, uncommitted, id, stands⟩

end Contract

end LibraryWriter

end Foundry
