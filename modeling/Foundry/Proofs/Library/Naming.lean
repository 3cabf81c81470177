import Foundry.Proofs.Artifact.Naming
import Foundry.Proofs.Library.Building

/-! Where a packed library is published, beside the file that its output names. The writer takes the suffix
off the text before it reads a path, the name of the file keeps it; the two part where the suffix is all that a
part of the path says. -/
namespace Foundry

open FileSystem Run

theorem ArtifactKind.suffix_library (target : Target) :
    ArtifactKind.library.suffix target = librarySuffix := by
  cases target <;> rfl

theorem ArtifactKind.fileName_library (target : Target) (last : String) :
    ArtifactKind.library.fileName target last = last ++ librarySuffix := by
  have lead : ArtifactKind.library.lead target = "" := by cases target <;> rfl
  have starts : Text.startsWith last "" = true := Text.startsWith_iff.mpr ⟨last, by simp⟩
  rw [fileName, suffix_library, lead, if_pos starts]

/-- What the suffix stands behind is no part of a path: it is empty or `.`. -/
def IsBareSuffix (output : String) : Prop :=
  Text.baseName output = librarySuffix ∨ Text.baseName output = "." ++ librarySuffix

instance (output : String) : Decidable (IsBareSuffix output) :=
  inferInstanceAs (Decidable (_ ∨ _))

theorem librarySuffix_clean : '/' ∉ librarySuffix.toList := by decide

theorem isBareSuffix_append (front : String) : IsBareSuffix (front ++ librarySuffix) ↔
    Text.baseName front = "" ∨ Text.baseName front = "." := by
  rw [IsBareSuffix, Text.baseName_append_tail front librarySuffix_clean, String.append_eq_right_iff,
    String.append_left_inj]

theorem IsBareSuffix.endsWith {output : String} (bare : IsBareSuffix output) :
    Text.endsWith output librarySuffix = true := by
  apply Text.endsWith_of_baseName
  rcases bare with alone | dotted
  · rw [alone]
    decide
  · rw [dotted]
    decide

namespace LibraryWriter

variable {w : LibraryWriter} {output : String} {packed : Path}

/-- Without the suffix both read the same path and give it a longer name. -/
theorem fileFor_of_unsuffixed (given : w.output = .ofText output) (other : Target)
    (unsuffixed : Text.endsWith output librarySuffix = false) :
    ArtifactKind.library.fileFor other output = match w.packedPath? with
      | some packed => .ok packed.text
      | none => .error (.emptyName (.ofText output)) := by
  rw [ArtifactKind.fileFor_unsuffixed (by rwa [ArtifactKind.suffix_library]),
    ArtifactKind.fileName_library, packedPath?_eq (given ▸ Path.ofText_clean output), given]
  split <;> rfl

section Suffixed
variable {front : String} (given : w.output = .ofText front)
include given

/-- A part that the suffix goes on with is what the suffix is taken off from. -/
theorem packedPath?_of_named (named : ¬ IsBareSuffix (front ++ librarySuffix)) :
    w.packedPath? = some (.ofText (front ++ librarySuffix)) := by
  rw [isBareSuffix_append, not_or] at named
  have name : w.output.name = Text.baseName front := given ▸ Path.name_ofText named.1 named.2
  have clean : w.output.Clean := given ▸ Path.ofText_clean front
  have longer := archiveName_isName (Path.name_clean clean).1
  rw [packedPath?_eq clean, name, if_neg named.1, given,
    Path.ofText_append front librarySuffix_clean (name ▸ longer), if_neg (by simp [named])]

/-- The suffix alone is a part of its own. -/
theorem ofText_of_bare (bare : IsBareSuffix (front ++ librarySuffix)) :
    ∃ part, IsName part ∧ (part = librarySuffix ∨ part = "." ++ librarySuffix) ∧
      Path.ofText (front ++ librarySuffix) = w.output.child part := by
  have part : IsName (Text.baseName front ++ librarySuffix) := by
    rcases (isBareSuffix_append front).mp bare with empty | self
    · rw [empty]
      decide
    · rw [self]
      decide
  refine ⟨_, part, ?_, ?_⟩
  · rwa [IsBareSuffix, Text.baseName_append_tail front librarySuffix_clean] at bare
  · rw [Path.ofText_append front librarySuffix_clean part, if_pos ((isBareSuffix_append front).mp bare), given]

/-- Where the suffix is a part of its own the library is published beside the directory that the part is in. -/
theorem packedPath?_of_bare (bare : IsBareSuffix (front ++ librarySuffix)) :
    w.packedPath? = (Path.ofText (front ++ librarySuffix)).parent.withName?
      ((Path.ofText (front ++ librarySuffix)).parent.name ++ librarySuffix) := by
  obtain ⟨part, proper, -, path⟩ := ofText_of_bare given bare
  rw [path, Path.parent_child proper]
  rfl

theorem spot_ne_of_bare (bare : IsBareSuffix (front ++ librarySuffix)) (packs : w.packedPath? = some packed)
    (here : Location) : spot here packed.text ≠ spot here (front ++ librarySuffix) := by
  have clean : w.output.Clean := given ▸ Path.ofText_clean front
  have longer := archiveName_isName (Path.name_clean clean).1
  obtain ⟨part, proper, which, path⟩ := ofText_of_bare given bare
  rw [packedPath?_eq clean] at packs
  split at packs
  · nomatch packs
  · rename_i nonempty
    obtain rfl := Option.some.inj packs
    intro same
    rw [Path.spot_child here ((Path.parent_begins _).clean clean) longer, ← Path.spot_ofText here (front ++ _),
      path, Path.spot_child here clean proper] at same
    have last : w.output.name ++ librarySuffix = part := by simpa using (List.append_inj' same rfl).2
    rw [← last, String.append_eq_right_iff, String.append_left_inj] at which
    rcases which with empty | self
    · exact nonempty empty
    · exact (Path.name_clean clean).2 self

end Suffixed

section Output
variable (given : w.output = .ofText (Text.dropTail output librarySuffix)) (other : Target)
include given

/-- Both refuse the output, or both name the same path. -/
theorem named_alike (named : ¬ IsBareSuffix output) :
    (w.packedPath? = none ∧ ∃ e, ArtifactKind.library.fileFor other output = .error e) ∨
      ∃ file, w.packedPath? = some (.ofText file) ∧ ArtifactKind.library.fileFor other output = .ok file := by
  cases ends : Text.endsWith output librarySuffix with
  | true =>
      obtain ⟨front, rfl⟩ := Text.endsWith_iff.mp ends
      rw [Text.dropTail_append] at given
      exact .inr ⟨_, packedPath?_of_named given named,
        ArtifactKind.fileFor_suffixed (by rwa [ArtifactKind.suffix_library])⟩
  | false =>
      rw [Text.dropTail_of_endsWith ends] at given
      have file := fileFor_of_unsuffixed given other ends
      cases packs : w.packedPath? with
      | none => exact .inl ⟨rfl, _, by rw [file, packs]⟩
      | some packed =>
          have clean := packedPath?_clean (given ▸ Path.ofText_clean output) packs
          exact .inr ⟨packed.text, by rw [Path.ofText_text clean], by rw [file, packs]⟩

/-- The suffix alone is the file, and the library is published elsewhere. -/
theorem named_apart (bare : IsBareSuffix output) :
    ArtifactKind.library.fileFor other output = .ok output ∧
      w.packedPath? = (Path.ofText output).parent.withName?
        ((Path.ofText output).parent.name ++ librarySuffix) ∧
      ∀ packed, w.packedPath? = some packed → ∀ here, spot here packed.text ≠ spot here output := by
  have ends := bare.endsWith
  have file : ArtifactKind.library.fileFor other output = .ok output :=
    ArtifactKind.fileFor_suffixed (by rwa [ArtifactKind.suffix_library])
  obtain ⟨front, rfl⟩ := Text.endsWith_iff.mp ends
  rw [Text.dropTail_append] at given
  exact ⟨file, packedPath?_of_bare given bare, fun packed packs => spot_ne_of_bare given bare packs⟩

end Output

/-- A packed library is published as the file that its output names, for whichever target, unless the output is
the suffix alone. Then it is published beside the directory of that file. -/
theorem packed_as_named_iff {name : String} {target : Target} {abiVersion : Int} {unpacked : Bool}
    {staging : Option String} {s t : Session}
    (ran : start output name target abiVersion unpacked staging s = .ok w t) (other : Target) :
    (∀ packed file, w.packedPath? = some packed → ArtifactKind.library.fileFor other output = .ok file →
      (packed = .ofText file ↔ ¬ IsBareSuffix output) ∧
      ∀ here, spot here packed.text = spot here file ↔ ¬ IsBareSuffix output) ∧
    (¬ IsBareSuffix output → (w.packedPath?.isSome = true ↔
      ∃ file, ArtifactKind.library.fileFor other output = .ok file)) ∧
    (IsBareSuffix output → ArtifactKind.library.fileFor other output = .ok output ∧
      w.packedPath? = (Path.ofText output).parent.withName?
        ((Path.ofText output).parent.name ++ librarySuffix)) := by
  obtain ⟨directory, u, -, begins, -⟩ := start_begun ran
  have given : w.output = .ofText (Text.dropTail output librarySuffix) := by rw [begins, begun]
  by_cases bare : IsBareSuffix output
  · obtain ⟨itself, beside, apart⟩ := named_apart given other bare
    refine ⟨fun packed file packs names => ?_, absurd bare, fun _ => ⟨itself, beside⟩⟩
    obtain rfl := Except.ok.inj (itself.symm.trans names)
    refine ⟨iff_of_false (fun same => ?_) (not_not_intro bare),
      fun here => iff_of_false (apart packed packs here) (not_not_intro bare)⟩
    exact apart packed packs [] (by rw [same, Path.spot_ofText])
  · refine ⟨fun packed file packs names => ?_, fun _ => ?_, fun other => absurd other bare⟩
    · obtain ⟨refused, -⟩ | ⟨file', packs', names'⟩ := named_alike given other bare
      · nomatch refused.symm.trans packs
      · obtain rfl := Except.ok.inj (names'.symm.trans names)
        obtain rfl := Option.some.inj (packs'.symm.trans packs)
        exact ⟨iff_of_true rfl bare, fun here => iff_of_true (Path.spot_ofText here _) bare⟩
    · obtain ⟨refused, e, fails⟩ | ⟨file, packs, names⟩ := named_alike given other bare
      · simp [refused, fails]
      · simp [packs, names]

/-- Where a library that is begun is to be published. -/
def beginPacked (output : String) : Run (Option Path) := do
  let w ← start output "lib" .linuxX64 1 false none
  pure w.packedPath?

theorem beginPacked_ok {s : Session} (ran : (beginPacked output).outcome? (fun _ => ()) s = some (path, ())) :
    ∃ w t, start output "lib" .linuxX64 1 false none s = .ok w t ∧ w.packedPath? = path := by
  obtain ⟨t, ran, -⟩ := outcome?_eq_some.mp ran
  obtain ⟨w, u, begins, given⟩ := bind_eq_ok.mp ran
  exact ⟨w, u, begins, (pure_eq_ok.mp given).1⟩

/-- One of two suffixes is taken off, and put back. -/
theorem suffix_kept : ∃ w t packed,
    start "out/lib.klib.klib" "lib" .linuxX64 1 false none Session.blank = .ok w t ∧
      w.packedPath? = some packed ∧ packed = .ofText "out/lib.klib.klib" ∧
      ArtifactKind.library.fileFor .wasm32 "out/lib.klib.klib" = .ok "out/lib.klib.klib" := by
  have ran : (beginPacked "out/lib.klib.klib").outcome? (fun _ => ()) Session.blank =
      some (some (.ofText "out/lib.klib.klib"), ()) := by decide +kernel
  have names : ArtifactKind.library.fileFor .wasm32 "out/lib.klib.klib" = .ok "out/lib.klib.klib" := by
    decide
  obtain ⟨w, t, begins, packs⟩ := beginPacked_ok ran
  obtain ⟨same, -⟩ := (packed_as_named_iff begins .wasm32).1 _ _ packs names
  exact ⟨w, t, _, begins, packs, same.mpr (by decide), names⟩

/-- The library whose file is hidden in a directory is published beside the directory. -/
theorem hidden_library_beside : ∃ w t,
    start "dir/.klib" "lib" .linuxX64 1 false none Session.blank = .ok w t ∧
      w.packedPath? = some (.ofText "dir.klib") ∧
      ArtifactKind.library.fileFor .linuxX64 "dir/.klib" = .ok "dir/.klib" ∧
      Path.ofText "dir.klib" ≠ .ofText "dir/.klib" ∧
      spot ["work"] "dir.klib" = ["work", "dir.klib"] ∧
      spot ["work"] "dir/.klib" = ["work", "dir", ".klib"] := by
  have ran : (beginPacked "dir/.klib").outcome? (fun _ => ()) Session.blank =
      some (some (.ofText "dir.klib"), ()) := by decide +kernel
  obtain ⟨w, t, begins, packs⟩ := beginPacked_ok ran
  exact ⟨w, t, begins, packs, by decide, by decide, by decide, by decide⟩

end LibraryWriter

end Foundry
