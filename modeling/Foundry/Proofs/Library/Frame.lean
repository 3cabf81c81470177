import Foundry.Library.Writer
import Foundry.Proofs.Properties.Load

/-! Writing a library changes files and drawn names alone. It fails with a fault of its own, or with
one of the few failures that are not about a file it may not touch. -/
namespace Foundry

/-- A failure that writing a library can end with. -/
def Failure.IsOfLibrary : Failure → Prop
  | .fault (.libraryNotWritten ..) => True
  | .refusal _ | .zeroInPath | .emptyName _ | .unpackable _ | .notUtf8 | .integerTooLong _ => True
  | _ => False

theorem Failure.IsOfFile.ofLibrary {e : Failure} (kind : e.IsOfFile) : e.IsOfLibrary := by
  cases e with
  | refusal | zeroInPath => trivial
  | _ => exact kind.elim

namespace LibraryWriter
open Run Files

theorem reporting_filesOnly {path : Path} {reason : Refusal → String} {body : Run α}
    (kept : OnFiles Failure.IsOfLibrary body) :
    OnFiles Failure.IsOfLibrary (reporting path reason body) := by
  refine kept.tryCatch fun e kind => ?_
  split
  · exact .throw trivial
  · exact .throw kind

theorem ofFiles {run : Run α} (kept : OnFiles Failure.IsOfFile run) :
    OnFiles Failure.IsOfLibrary run :=
  kept.mono fun _ => Failure.IsOfFile.ofLibrary

theorem layOut_filesOnly (w : LibraryWriter) :
    OnFiles Failure.IsOfLibrary w.layOut := by
  refine ofFiles ((lookStrictly_filesOnly _).bind fun _ => ?_)
  have making : OnFiles Failure.IsOfFile
      ([w.linkData, w.programDirectory, w.nativeDirectory, w.includedDirectory].forM
        Files.makeDirectories) := .forM fun path => makeDirectories_filesOnly path
  split
  · exact (removeTree_filesOnly _).bind fun _ => making
  · exact making

theorem stagingDirectory_filesOnly (staging : Option String) :
    OnFiles Failure.IsOfLibrary (stagingDirectory staging) := by
  unfold stagingDirectory
  split
  · exact ofFiles (makeTemporaryDirectory_filesOnly _)
  · exact ofFiles (makeTemporaryDirectory_filesOnly _)
  · exact .pure _

theorem start_filesOnly (output name : String) (target : Target) (abiVersion : Int)
    (unpacked : Bool) (staging : Option String) :
    OnFiles Failure.IsOfLibrary (start output name target abiVersion unpacked staging) :=
  (stagingDirectory_filesOnly staging).bind fun _ =>
    (reporting_filesOnly (layOut_filesOnly _)).bind fun _ => .pure _

theorem writeFile_filesOnly (w : LibraryWriter) (path : Path) (content : Bytes) :
    OnFiles Failure.IsOfLibrary (w.writeFile path content) :=
  reporting_filesOnly (ofFiles (change_filesOnly _ _))

theorem copyInto_filesOnly (w : LibraryWriter) (source : String) (directory : Path) :
    OnFiles Failure.IsOfLibrary (w.copyInto source directory) :=
  reporting_filesOnly (ofFiles (copy_filesOnly _ _))

theorem addNative_filesOnly (w : LibraryWriter) (library : String) :
    OnFiles Failure.IsOfLibrary (w.addNative library) :=
  (w.copyInto_filesOnly _ _).bind fun _ => .pure _

theorem addNatives_filesOnly (w : LibraryWriter) (libraries : List String) :
    OnFiles Failure.IsOfLibrary (w.addNatives libraries) := by
  induction libraries generalizing w with
  | nil => exact .pure w
  | cons library rest ih => exact (w.addNative_filesOnly library).bind fun w => ih w

theorem addManifest_filesOnly (w : LibraryWriter) (file : String) :
    OnFiles Failure.IsOfLibrary (w.addManifest file) := by
  refine (reporting_filesOnly (ofFiles (ask_filesOnly _ _))).bind fun content => ?_
  split
  · exact .pure _
  · exact .throw trivial
  · rename_i e other failed
    rcases (Properties.parseBytes_error failed).resolve_left other with rfl | ⟨digits, rfl⟩
    · exact .throw trivial
    · exact .throw trivial

theorem addGivenManifest_filesOnly (w : LibraryWriter) (file : Option String) :
    OnFiles Failure.IsOfLibrary (w.addGivenManifest file) := by
  unfold addGivenManifest
  split
  · exact .pure _
  · exact .pure _
  · exact w.addManifest_filesOnly _

theorem packedPath_filesOnly (w : LibraryWriter) :
    OnFiles Failure.IsOfLibrary w.packedPath := by
  unfold packedPath
  split
  · exact .pure _
  · exact .throw trivial

theorem pack_filesOnly (w : LibraryWriter) (archive : Path) :
    OnFiles Failure.IsOfLibrary (w.pack archive) :=
  ofFiles ((change_filesOnly _ _).bind fun _ => current_filesOnly.bind fun fs => by
    refine OnFiles.bind ?_ fun _ => change_filesOnly _ _
    cases w.items fs archive with
    | ok items => exact .pure _
    | error refusal => exact refused_filesOnly refusal)

theorem discard_filesOnly (w : LibraryWriter) :
    OnFiles Failure.IsOfLibrary w.discard := by
  unfold discard
  split
  · exact discardTree_filesOnly _
  · exact (discardTree_filesOnly _).bind fun _ => w.packedPath_filesOnly.bind fun _ =>
      ofFiles (discardFile_filesOnly _)

theorem publish_filesOnly (w : LibraryWriter) :
    OnFiles Failure.IsOfLibrary w.publish := by
  unfold publish
  split
  · refine (ofFiles (lookStrictly_filesOnly _)).bind fun _ => ?_
    have moving := (ofFiles (move_filesOnly w.root.text w.output.text)).bind fun _ =>
      .pure w.output
    split
    · exact (ofFiles (removeTree_filesOnly _)).bind fun _ => moving
    · exact moving
  · exact w.packedPath_filesOnly.bind fun _ => (w.pack_filesOnly _).bind fun _ =>
      (ofFiles (move_filesOnly _ _)).bind fun _ => .pure _

theorem packedManifest_filesOnly (w : LibraryWriter) :
    OnFiles Failure.IsOfLibrary w.packedManifest := by
  unfold packedManifest
  split
  · exact .pure _
  · exact .throw trivial

theorem commit_filesOnly (w : LibraryWriter) :
    OnFiles Failure.IsOfLibrary w.commit :=
  w.packedManifest_filesOnly.bind fun _ => (w.writeFile_filesOnly _ _).bind fun _ =>
    (reporting_filesOnly w.publish_filesOnly).ensuring w.discard_filesOnly

theorem addOptional_filesOnly (w : LibraryWriter) (path : Path) (content : Option Bytes) :
    OnFiles Failure.IsOfLibrary (content.forM (w.writeFile path)) := by
  cases content with
  | none => exact .pure _
  | some content => exact w.writeFile_filesOnly path content

theorem build_filesOnly (output name : String) (target : Target) (abiVersion : Int)
    (unpacked : Bool) (staging : Option String) (parts : Parts) :
    OnFiles Failure.IsOfLibrary
      (build output name target abiVersion unpacked staging parts) :=
  (start_filesOnly _ _ _ _ _ _).bind fun w => (w.writeFile_filesOnly _ _).bind fun _ =>
    (w.writeFile_filesOnly _ _).bind fun _ => (w.addNatives_filesOnly _).bind fun w =>
    (OnFiles.forM fun _ => w.copyInto_filesOnly _ _).bind fun _ =>
    ((w.addDepends _).addGivenManifest_filesOnly _).bind fun w =>
    (w.addOptional_filesOnly _ _).bind fun _ => (w.addOptional_filesOnly _ _).bind fun _ =>
    .pure w

end LibraryWriter

end Foundry
