import Foundry.Proofs.Archive.Failure
import Foundry.Proofs.CommandLine.Manifest
import Foundry.Proofs.Document.MessagePack
import Foundry.Proofs.Files.Listing
import Foundry.Proofs.Files.Writable
import Foundry.Proofs.Process.History

/-! How showing a library ends. Whatever there is under the path, the program either tells in one line what
is wrong or prints a manifest that it decoded, unless it fails in one of three ways: where the path cannot
even be looked at, where an archive cannot be read for a reason that has no message, and where a manifest
is of another shape than a library's. -/
namespace Foundry

namespace Manifest
open Run
variable {manifest : Value} {s t : Session} {path : Path}

/-- The bytes of a manifest are found under a path: in a directory, or in an archive that has the suffix of a
library. -/
inductive FoundAt (fs : FileSystem) (path : Path) (bytes : Bytes) : Prop where
  | unpacked : Files.holdsZero path.text = false → fs.stat path.text = .ok .directory →
      fs.Readable (path.child manifestName).text bytes → FoundAt fs path bytes
  | packed (content) : path.suffix = librarySuffix → fs.Readable path.text content →
      inArchive content = .ok (some bytes) → FoundAt fs path bytes

/-- An archive cannot be read for a reason that has no message. -/
inductive Unreadable (content : Bytes) : Failure → Prop where
  | notArchive : inArchive content = .error .notArchive → Unreadable content .notArchive
  | cut : inArchive content = .error (.badStream .cut) → Unreadable content (.badStream .cut)
  | corrupt : inArchive content = .error (.badStream .corrupt) → Unreadable content (.badStream .corrupt)
  | linkNotFound (name) : inArchive content = .error (.linkNotFound name) →
      Unreadable content (.linkNotFound name)
  | linkLoop : inArchive content = .error .linkLoop → Unreadable content .linkLoop

theorem unreadable_iff {content : Bytes} :
    Unreadable content e ↔ inArchive content = .error e ∧ problem? e = none := by
  constructor
  · rintro (failed | failed | failed | ⟨_, failed⟩ | failed) <;> exact ⟨failed, rfl⟩
  · rintro ⟨failed, silent⟩
    cases inArchive_withholds failed with
    | notArchive => exact .notArchive failed
    | linkNotFound name => exact .linkNotFound name failed
    | linkLoop => exact .linkLoop failed
    | badStream incomplete =>
        cases ending : (Gzip.read content).ending with
        | complete => exact absurd ending incomplete
        | cut => exact .cut (ending ▸ failed)
        | corrupt => exact .corrupt (ending ▸ failed)
        | damaged reason =>
            rw [ending] at silent
            cases silent

theorem read_of_readable (readable : s.files.Readable path.text content) :
    Manifest.read path s = (match inArchive content with
      | .error e => throw e
      | .ok (some bytes) => unpack bytes
      | .ok none => Run.fault (.libraryNotWritten path.text s!"no {manifestName} found") : Run Value) s := by
  obtain ⟨located, stands⟩ := FileSystem.read_ok readable.read
  rw [Manifest.read, bind_of_ok (Files.lookStrictly_of_locate readable.whole located), stands]
  exact bind_of_ok (Files.read_of_readable readable)

theorem read_of_directory (whole : Files.holdsZero path.text = false)
    (status : s.files.stat path.text = .ok .directory) :
    Manifest.read path s = (Files.read (path.child manifestName).text >>= unpack) s := by
  obtain ⟨located, stands⟩ := FileSystem.stat_ok status
  rw [Manifest.read, bind_of_ok (Files.lookStrictly_of_locate whole located), stands]

theorem unpack_ok : unpack bytes s = .ok manifest t ↔ MessagePack.unpack? bytes = some manifest ∧ t = s := by
  unfold unpack
  cases MessagePack.unpack? bytes <;> simp [pure, EStateM.pure, eq_comm]

theorem unpack_cases (bytes : Bytes) (s : Session) :
    (∃ manifest, MessagePack.unpack? bytes = some manifest) ∨ unpack bytes s = .error .notPacked s := by
  unfold unpack
  cases MessagePack.unpack? bytes with
  | some manifest => exact .inl ⟨manifest, rfl⟩
  | none => exact .inr rfl

theorem read_of_foundAt (there : FoundAt s.files path bytes)
    (unpacked : MessagePack.unpack? bytes = some manifest) : Manifest.read path s = .ok manifest s := by
  cases there with
  | unpacked whole status readable =>
      rw [read_of_directory whole status, bind_of_ok (Files.read_of_readable readable)]
      exact unpack_ok.mpr ⟨unpacked, rfl⟩
  | packed content suffix readable found =>
      rw [read_of_readable readable, found]
      exact unpack_ok.mpr ⟨unpacked, rfl⟩

theorem read_of_unreadable (readable : s.files.Readable path.text content)
    (unreadable : Unreadable content e) : Manifest.read path s = .error e s := by
  rw [read_of_readable readable, (unreadable_iff.mp unreadable).1]
  rfl

/-- Something is under the path that may be a library. -/
structure Candidate (fs : FileSystem) (path : Path) (entry : Entry) : Prop where
  whole : Files.holdsZero path.text = false
  status : fs.stat path.text = .ok entry
  fits : entry = .directory ∨ path.suffix = librarySuffix

theorem Candidate.of_readable (suffix : path.suffix = librarySuffix)
    (readable : s.files.Readable path.text content) : Candidate s.files path (.file content) :=
  ⟨readable.whole, readable.status, .inr suffix⟩

theorem FoundAt.candidate (there : FoundAt fs path bytes) : ∃ entry, Candidate fs path entry := by
  cases there with
  | unpacked whole status _ => exact ⟨.directory, whole, status, .inl rfl⟩
  | packed content suffix readable _ => exact ⟨.file content, readable.whole, readable.status, .inr suffix⟩

/-- A manifest is found and decoded, or an archive cannot be read, or there is a message for what is wrong. -/
theorem read_cases (candidate : Candidate s.files path entry) :
    (∃ bytes manifest, FoundAt s.files path bytes ∧ MessagePack.unpack? bytes = some manifest) ∨
      (∃ content e, path.suffix = librarySuffix ∧ s.files.Readable path.text content ∧ Unreadable content e) ∨
      ∃ e problem, Manifest.read path s = .error e s ∧ problem? e = some problem := by
  obtain ⟨whole, status, fits⟩ := candidate
  cases entry with
  | directory =>
      have clean : '\x00' ∉ manifestName.toList := by decide
      have whole' := Files.holdsZero_child clean whole
      rw [read_of_directory whole status]
      cases content : s.files.read (path.child manifestName).text with
      | error errno =>
          have refused : Files.read (path.child manifestName).text s =
              .error (.refusal (.system errno (.text (path.child manifestName).text))) s := by
            rw [Files.read, Files.ask_apply, whole', if_neg Bool.false_ne_true, content]
          exact .inr (.inr ⟨_, _, bind_eq_error.mpr (.inl refused), rfl⟩)
      | ok bytes =>
          have readable : s.files.Readable (path.child manifestName).text bytes := ⟨whole', content⟩
          rcases unpack_cases bytes s with ⟨manifest, unpacked⟩ | failed
          · exact .inl ⟨bytes, manifest, .unpacked whole status readable, unpacked⟩
          · exact .inr (.inr ⟨_, _, (bind_of_ok (Files.read_of_readable readable)).trans failed, rfl⟩)
  | file content =>
      have suffix : path.suffix = librarySuffix := fits.resolve_left (by simp)
      have readable : s.files.Readable path.text content :=
        ⟨whole, by simp [FileSystem.read, bind, Except.bind, status]⟩
      rw [read_of_readable readable]
      cases found : inArchive content with
      | error e =>
          cases told : problem? e with
          | none => exact .inr (.inl ⟨content, e, suffix, readable, unreadable_iff.mpr ⟨found, told⟩⟩)
          | some problem => exact .inr (.inr ⟨e, problem, rfl, told⟩)
      | ok bytes? =>
          cases bytes? with
          | none => exact .inr (.inr ⟨_, _, rfl, rfl⟩)
          | some bytes =>
              rcases unpack_cases bytes s with ⟨manifest, unpacked⟩ | failed
              · exact .inl ⟨bytes, manifest, .packed content suffix readable found, unpacked⟩
              · exact .inr (.inr ⟨_, _, failed, rfl⟩)

end Manifest

namespace CommandLine
open Run
variable {s t : Session} {path : Path}

/-- How showing a library ends without an exit status. -/
inductive Unshown (s : Session) (path : Path) : Failure → Prop where
  /-- The path cannot be looked at, for it is too long. -/
  | unseen : Files.holdsZero path.text = false → s.files.stat path.text = .error .nameTooLong →
      Unshown s path (.refusal (.system .nameTooLong (.text path.text)))
  | unread (content e) : path.suffix = librarySuffix → s.files.Readable path.text content →
      Manifest.Unreadable content e → Unshown s path e
  | misshapen (bytes manifest e) : Manifest.FoundAt s.files path bytes →
      MessagePack.unpack? bytes = some manifest → Manifest.Misshapen manifest e → Unshown s path e

/-- The session after one line that tells what is wrong. -/
def refused (s : Session) (problem : String) : Session :=
  { s with errors := s.errors ++ s!"Error: {problem}" ++ "\n" }

section Candidate
variable (candidate : Manifest.Candidate s.files path entry)
include candidate

theorem showLibrary_of_candidate : showLibrary path s = (do
      let found ← tryCatch ((Manifest.read path).map Except.ok) fun failure =>
        match Manifest.problem? failure with
        | some problem => pure (.error problem)
        | none => throw failure
      match found with
      | .error problem => do
        Run.printError s!"Error: {problem}"
        return .failed
      | .ok manifest => do
        Manifest.print manifest
        return .success : Run ExitStatus) s := by
  obtain ⟨whole, status, fits⟩ := candidate
  obtain ⟨located, stands⟩ := FileSystem.stat_ok status
  have fit : ¬ (entry ≠ .directory ∧ path.suffix ≠ librarySuffix) := fun ⟨file, other⟩ => fits.elim file other
  rw [showLibrary, bind_of_ok (Files.lookStrictly_of_locate whole located), stands]
  exact congrFun (if_neg fit) s

theorem showLibrary_of_read (ran : Manifest.read path s = .ok manifest t) :
    showLibrary path s = (Manifest.print manifest >>= fun _ => pure ExitStatus.success) t := by
  have read : (Manifest.read path).map Except.ok s = .ok (.ok manifest : Except String Value) t := by
    simp only [EStateM.map, ran]
  rw [showLibrary_of_candidate candidate, bind_of_ok (tryCatch_of_ok read)]

theorem showLibrary_of_problem (failed : Manifest.read path s = .error e t)
    (told : Manifest.problem? e = some problem) : showLibrary path s = .ok .failed (refused t problem) := by
  have read : (Manifest.read path).map (Except.ok : Value → Except String Value) s = .error e t := by
    simp only [EStateM.map, failed]
  have handled : (match Manifest.problem? e with
      | some problem => pure (.error problem)
      | none => throw e : Run (Except String Value)) t = .ok (.error problem) t := by
    rw [told]
    rfl
  rw [showLibrary_of_candidate candidate, bind_of_ok ((tryCatch_of_error read).trans handled)]
  rfl

theorem showLibrary_of_silent (failed : Manifest.read path s = .error e t)
    (silent : Manifest.problem? e = none) : showLibrary path s = .error e t := by
  have read : (Manifest.read path).map (Except.ok : Value → Except String Value) s = .error e t := by
    simp only [EStateM.map, failed]
  rw [showLibrary_of_candidate candidate]
  refine bind_eq_error.mpr (.inl ((tryCatch_of_error read).trans ?_))
  simp only [silent]
  rfl

end Candidate

theorem showLibrary_of_foundAt (there : Manifest.FoundAt s.files path bytes)
    (unpacked : MessagePack.unpack? bytes = some manifest) :
    showLibrary path s = (Manifest.print manifest >>= fun _ => pure ExitStatus.success) s := by
  obtain ⟨entry, candidate⟩ := there.candidate
  exact showLibrary_of_read candidate (Manifest.read_of_foundAt there unpacked)

theorem Unshown.showLibrary_error (unshown : Unshown s path e) : ∃ t, showLibrary path s = .error e t := by
  cases unshown with
  | unseen whole status =>
      obtain ⟨t, failed⟩ := Files.lookStrictly_fails_iff.mpr ⟨whole, status, rfl⟩
      exact ⟨t, bind_eq_error.mpr (.inl failed)⟩
  | unread content _ suffix readable unreadable =>
      exact ⟨s, showLibrary_of_silent (.of_readable suffix readable)
        (Manifest.read_of_unreadable readable unreadable) (Manifest.unreadable_iff.mp unreadable).2⟩
  | misshapen bytes manifest _ there unpacked misshapen =>
      obtain ⟨t, failed⟩ := failure?_eq_some.mp (Manifest.print_fails_iff.mpr misshapen)
      exact ⟨t, (showLibrary_of_foundAt there unpacked).trans (bind_eq_error.mpr (.inl failed))⟩

/-- Showing a library fails in a way that is known, or tells what is wrong, or prints a manifest. -/
theorem showLibrary_cases (s : Session) (path : Path) :
    (∃ e, Unshown s path e) ∨ (∃ problem, showLibrary path s = .ok .failed (refused s problem)) ∨
      ∃ bytes manifest heading rest, Manifest.FoundAt s.files path bytes ∧
        MessagePack.unpack? bytes = some manifest ∧ Manifest.Heading manifest heading ∧
        showLibrary path s = .ok .success (s.listing (heading ++ rest)) := by
  cases looked : Files.lookStrictly path.text s with
  | error e t =>
      obtain ⟨whole, status, rfl⟩ := Files.lookStrictly_fails_iff.mp ⟨t, looked⟩
      exact .inl ⟨_, .unseen whole status⟩
  | ok seen t =>
      cases seen with
      | none =>
          obtain rfl := (Files.lookStrictly_ok looked).1
          refine .inr (.inl ⟨s!"file not found: {path.text}", ?_⟩)
          rw [showLibrary, bind_of_ok looked]
          simp [refused, printError, bind, EStateM.bind, pure, EStateM.pure, toString, ← String.append_assoc]
      | some entry =>
          obtain ⟨rfl, whole, status⟩ := Files.lookStrictly_some looked
          by_cases fits : entry = .directory ∨ path.suffix = librarySuffix
          · rcases Manifest.read_cases ⟨whole, status, fits⟩ with
              ⟨bytes, manifest, there, unpacked⟩ | ⟨content, e, suffix, readable, unreadable⟩ |
                ⟨e, problem, failed, told⟩
            · cases ran : Manifest.print manifest t with
              | error e u =>
                  have misshapen := Manifest.print_fails_iff.mp (failure?_eq_some.mpr ⟨u, ran⟩)
                  exact .inl ⟨e, .misshapen bytes manifest e there unpacked misshapen⟩
              | ok _ u =>
                  obtain ⟨heading, rest, headed, rfl⟩ := Manifest.print_ok ran
                  refine .inr (.inr ⟨bytes, manifest, heading, rest, there, unpacked, headed, ?_⟩)
                  rw [showLibrary_of_foundAt there unpacked, bind_of_ok ran]
                  rfl
            · exact .inl ⟨e, .unread content e suffix readable unreadable⟩
            · exact .inr (.inl ⟨problem, showLibrary_of_problem ⟨whole, status, fits⟩ failed told⟩)
          · refine .inr (.inl ⟨s!"expected {librarySuffix} file, got: {path.text}", ?_⟩)
            rw [showLibrary, bind_of_ok looked]
            simp [refused, printError, bind, EStateM.bind, pure, EStateM.pure, toString, not_or.mp fits,
              ← String.append_assoc]

/-- Showing a library ends with an exit status, unless it fails in one of the known ways: with 2 after one line
that tells what is wrong, or with 0 after printing a manifest that it decoded, the four fields that every
manifest has first. -/
theorem showLibrary_exits_unless (s : Session) (path : Path) :
    (∀ e, (∃ t, showLibrary path s = .error e t) ↔ Unshown s path e) ∧
      ∀ status t, showLibrary path s = .ok status t →
        (status.code = 2 ∧ ∃ problem, t = refused s problem) ∨
          (status.code = 0 ∧ ∃ bytes manifest heading rest, Manifest.FoundAt s.files path bytes ∧
            MessagePack.unpack? bytes = some manifest ∧ Manifest.Heading manifest heading ∧
            t = s.listing (heading ++ rest)) := by
  refine ⟨fun e => ⟨fun ⟨t, failed⟩ => ?_, Unshown.showLibrary_error⟩, fun status t ran => ?_⟩
  · rcases showLibrary_cases s path with ⟨e', unshown⟩ | ⟨problem, ran⟩ | ⟨_, _, _, _, -, -, -, ran⟩
    · obtain ⟨u, failed'⟩ := unshown.showLibrary_error
      cases failed.symm.trans failed'
      exact unshown
    · cases failed.symm.trans ran
    · cases failed.symm.trans ran
  · rcases showLibrary_cases s path with
      ⟨e, unshown⟩ | ⟨problem, ran'⟩ | ⟨bytes, manifest, heading, rest, there, unpacked, headed, ran'⟩
    · obtain ⟨u, failed⟩ := unshown.showLibrary_error
      cases ran.symm.trans failed
    · cases ran.symm.trans ran'
      exact .inl ⟨rfl, problem, rfl⟩
    · cases ran.symm.trans ran'
      exact .inr ⟨rfl, bytes, manifest, heading, rest, there, unpacked, headed, rfl⟩

/-- A session in a directory `w` in which these entries are. -/
def among (entries : List (Location × Entry)) : Session :=
  { Session.blank with files := { entries := (["w"], .directory) :: entries, here := ["w"] } }

/-- A manifest without anything but the fields that every manifest has. -/
def smallManifest : Value :=
  .table [("unique_name", .text "z"), ("target", .text "wasm32"), ("compiler_version", .text "0.3"),
    ("abi_version", .int 1)]

theorem smallManifest_plain : smallManifest.Plain := by
  refine .table _ (by decide) fun entry member => ?_
  simp only [List.mem_cons, List.not_mem_nil, or_false] at member
  rcases member with rfl | rfl | rfl | rfl
  · exact .text _
  · exact .text _
  · exact .text _
  · exact .int _

/-- A session with a library that is a directory. -/
def withLibrary : Session :=
  among [(["w", "lib"], .directory),
    (["w", "lib", "manifest"], .file ((MessagePack.pack smallManifest).toOption.getD []))]

/-- The manifest in a directory is decoded and printed. -/
theorem small_library_shown : ∃ t, showLibrary (.ofText "lib") withLibrary = .ok .success t ∧
    t.output = "Library: z\nTarget: wasm32\nCompiler: 0.3\nABI: 1\n\n" ∧
    ∃ bytes manifest heading rest, Manifest.FoundAt withLibrary.files (.ofText "lib") bytes ∧
      MessagePack.unpack? bytes = some manifest ∧ Manifest.Heading manifest heading ∧
      t = withLibrary.listing (heading ++ rest) := by
  have printed : (Manifest.print smallManifest).outcome? (·.output) withLibrary =
      some ((), "Library: z\nTarget: wasm32\nCompiler: 0.3\nABI: 1\n\n") := by
    decide +kernel
  obtain ⟨t, printed, output⟩ := outcome?_eq_some.mp printed
  have packs : (MessagePack.pack smallManifest).toOption.isSome = true := by decide +kernel
  obtain ⟨bytes, packed⟩ := Option.isSome_iff_exists.mp packs
  have readable : withLibrary.files.Readable ((Path.ofText "lib").child manifestName).text
      ((MessagePack.pack smallManifest).toOption.getD []) := ⟨by decide, rfl⟩
  rw [packed, Option.getD_some] at readable
  have unpacked := MessagePack.unpack?_pack smallManifest_plain (except_toOption_eq_some.mp packed)
  have ran : showLibrary (.ofText "lib") withLibrary = .ok .success t := by
    rw [showLibrary_of_foundAt (.unpacked (by decide) rfl readable) unpacked, bind_of_ok printed]
    rfl
  rcases (showLibrary_exits_unless withLibrary (.ofText "lib")).2 _ t ran with ⟨never, -⟩ | ⟨-, printed⟩
  · cases never
  · exact ⟨t, ran, output, printed⟩

/-- For a file that is not even compressed there is no exit status and no line that tells so. -/
theorem foreign_file_unshown : ∃ t,
    showLibrary (.ofText "x.klib") (among [(["w", "x.klib"], .file [0x50, 0x4B])]) = .error .notArchive t ∧
      t.errors = "" := by
  have failed : (showLibrary (.ofText "x.klib")).defeat? (·.errors)
      (among [(["w", "x.klib"], .file [0x50, 0x4B])]) = some (.notArchive, "") := by
    decide +kernel
  exact defeat?_eq_some.mp failed

end CommandLine

end Foundry
