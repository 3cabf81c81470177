import Foundry.Proofs.Files.Temporary
import Foundry.Proofs.Library.Commit
import Foundry.Proofs.Library.Staging
import Foundry.Proofs.Process.History

/-! Drafting a library: everything that is done for it before it is published. Whatever is asked of it
and in whichever order, nothing changes but its staging directory. A library called `..` is the
exception: it is laid out above its staging directory. -/
namespace Foundry

open FileSystem Run

namespace LibraryWriter

variable {w w' : LibraryWriter} {s t : Session} {here : Location} {D : Location → Prop}

/-- What a refusal is reported as does not matter for what was done before it. -/
theorem after_reporting (path : Path) (reason : Refusal → String) (body : Run α) (s : Session) :
    (reporting path reason body).after s = body.after s := by
  cases ran : body s with
  | ok a t => simp [after, reporting, tryCatch_of_ok ran, ran]
  | error e t =>
      simp only [after, reporting, tryCatch_of_error ran, ran]
      cases e <;> rfl

theorem reporting_relating {R : FileSystem → FileSystem → Prop} {path : Path}
    {reason : Refusal → String} {body : Run α} (kept : Obeys (relating here R) body) :
    Obeys (relating here R) (reporting path reason body) := by
  intro s
  rw [Meets, after_reporting]
  exact kept s

/-- A file in a directory of the layout is in the layout, whatever the name of the file. -/
theorem within_child {top : Location} {path : Path} {first : String} {more : Location}
    (clean : path.Clean) (below : spot here path.text = top ++ first :: more)
    (slashless : '/' ∉ file.toList) : within top (spot here (path.child file).text) = true := by
  have relative : Anchor.ofText file = .none := by
    rw [Path.anchor_ofText, Bool.eq_false_iff]
    intro slash
    obtain ⟨rest, whole⟩ := Text.startsWith_iff.mp slash
    exact slashless (by simp [whole])
  have steps : (path.child file).parts = path.parts ++ Path.partsOf file := by
    simp [Path.child, Path.join, Path.ofText, relative]
  have start : (path.child file).start here = path.start here := by
    simp [Path.start, Path.child, Path.join, Path.ofText, relative]
  rw [Path.spot_text _ (Path.child_clean clean _), steps, start, walk_append,
    ← Path.spot_text _ clean, below, Path.partsOf, Text.split_of_not_mem slashless, walk_filter]
  simp only [walk]
  split
  · exact within_append _ _
  · split
    · rw [List.dropLast_append_of_ne_nil (List.cons_ne_nil first more)]
      exact within_append _ _
    · rw [List.append_assoc]
      exact within_append _ _

section Ways
variable (clean : w.staging.Clean) (slashless : '/' ∉ w.output.name.toList)
  (notSelf : w.output.name ≠ ".") {P : Location → Prop}
  (staging : ∀ place, w.staging.Leads here place → P place)
include slashless notSelf staging

theorem leads_root (there : P (w.place here)) : ∀ place, w.root.Leads here place → P place := by
  have whole := root_eq slashless notSelf
  rintro _ ⟨first, ⟨anchor, parts⟩, rfl⟩
  by_cases empty : w.output.name = ""
  · have same : w.root = w.staging := by simp [whole, empty]
    exact staging _ ⟨first, ⟨same ▸ anchor, same ▸ parts⟩, rfl⟩
  · have steps : w.root.parts = w.staging.parts ++ [w.output.name] := by simp [whole, empty]
    have start : w.root.anchor = w.staging.anchor := by rw [whole]
    rcases List.prefix_concat_iff.mp (steps ▸ parts) with all | before
    · have same : first = w.root := by rw [whole, ← start, ← anchor, if_neg empty, ← all]
      exact same ▸ there
    · exact staging _ ⟨first, ⟨anchor.trans start, before⟩, rfl⟩

include clean

/-- The directories on the way to a directory of the layout are on the way to its staging directory
or belong to the layout. -/
theorem leads_layout (inside : ∀ rest, P (w.place here ++ rest)) :
    ∀ path ∈ [w.linkData, w.programDirectory, w.nativeDirectory, w.includedDirectory],
      ∀ place, path.Leads here place → P place := by
  have rooted : w.root.Clean := root_clean clean
  have targets : IsName "targets" := by decide
  have linkdata : IsName "linkdata" := by decide
  obtain ⟨cleanTarget, target⟩ := targetDirectory_spot clean here
  have root : ∀ place, w.root.Leads here place → P place :=
    leads_root slashless notSelf staging (by simpa using inside [])
  have binaries : ∀ place, w.targetDirectory.Leads here place → P place := by
    refine Path.leads_child w.target.isName (Path.leads_child targets root ?_) ?_
    · rw [Path.spot_child _ rooted targets]
      exact inside ["targets"]
    · have there : spot here ((w.root.child "targets").child w.target.name).text =
          w.place here ++ w.targetSteps := target
      rw [there]
      exact inside w.targetSteps
  have below {step : String} (proper : IsName step) :
      ∀ place, (w.targetDirectory.child step).Leads here place → P place := by
    refine Path.leads_child proper binaries ?_
    rw [Path.spot_child _ cleanTarget proper, target, List.append_assoc]
    exact inside _
  intro path member
  simp only [List.mem_cons, List.not_mem_nil, or_false] at member
  rcases member with rfl | rfl | rfl | rfl
  · refine Path.leads_child linkdata root ?_
    rw [Path.spot_child _ rooted linkdata]
    exact inside ["linkdata"]
  · exact below (by decide)
  · exact below (by decide)
  · exact below (by decide)

end Ways

/-- Both paths of a library are read from texts. -/
structure Clean (w : LibraryWriter) : Prop where
  staging : w.staging.Clean
  output : w.output.Clean

/-- Where a library may be changed while it is drafted: in its layout and in its staging directory. -/
def Ground (w : LibraryWriter) (here place : Location) : Prop :=
  within (w.place here) place = true ∨ within (spot here w.staging.text) place = true

theorem ground_layout (w : LibraryWriter) (here rest : Location) :
    w.Ground here (w.place here ++ rest) := .inl (within_append _ _)

/-- The ground of a library is its staging directory, unless the library is called `..`. -/
theorem Ground.staged (clean : w.Clean) (notAbove : w.output.name ≠ "..")
    (ground : w.Ground here other) : within (spot here w.staging.text) other = true := by
  obtain ⟨slashless, notSelf⟩ := Path.name_clean clean.output
  rcases ground with inside | inside
  · rcases place_cases clean.staging slashless notSelf here with
      ⟨-, same⟩ | ⟨above, -⟩ | ⟨-, same⟩
    · exact same ▸ inside
    · exact absurd above notAbove
    · rw [same] at inside
      exact within_trans (within_append _ _) inside
  · exact inside

/-- The ground of a library does not reach further than the directory above its staging directory. -/
theorem Ground.above (clean : w.Clean) (ground : w.Ground here other) :
    within (spot here w.staging.text).dropLast other = true := by
  have lower {other : Location} (inside : within (spot here w.staging.text) other = true) :
      within (spot here w.staging.text).dropLast other = true := by
    refine within_trans (within_iff.mpr ?_) inside
    exact List.dropLast_prefix _
  obtain ⟨slashless, notSelf⟩ := Path.name_clean clean.output
  rcases ground with inside | inside
  · rcases place_cases clean.staging slashless notSelf here with
      ⟨-, same⟩ | ⟨-, same⟩ | ⟨-, same⟩
    · exact lower (same ▸ inside)
    · exact same ▸ inside
    · rw [same] at inside
      exact lower (within_trans (within_append _ _) inside)
  · exact lower inside

theorem packedPath_still (w : LibraryWriter) : Obeys still w.packedPath := by
  unfold packedPath
  split
  · exact obeys_pure _
  · exact throw_still _

section Steps
variable (clean : w.Clean)

theorem writeFile_changing {path : Path} {content : Bytes}
    (inside : w.Ground here (spot here path.text)) :
    Obeys (changing here (w.Ground here) D) (w.writeFile path content) := by
  have writing : Obeys (changing here (w.Ground here) D) (Files.write path.text content) :=
    Files.write_relating fun fs fs' same done => write_changes done (by rw [same]; exact inside)
  exact reporting_relating writing

theorem copyInto_changing {directory : Path} {first : String} {more : Location}
    (cleanDirectory : directory.Clean)
    (below : spot here directory.text = w.place here ++ first :: more) (source : String) :
    Obeys (changing here (w.Ground here) D) (w.copyInto source directory) := by
  have inside : w.Ground here (spot here (directory.child (Path.ofText source).name).text) :=
    .inl (within_child cleanDirectory below (Path.name_clean (Path.ofText_clean source)).1)
  have copying : Obeys (changing here (w.Ground here) D)
      (Files.copy source (.typed (directory.child (Path.ofText source).name).text)) :=
    Files.copy_relating fun content fs fs' same _ done => by
      rw [FileName.plain] at done
      exact write_changes done (by rw [same]; exact inside)
  exact reporting_relating copying

include clean

theorem layOut_changing (ways : ∀ place, w.staging.Leads here place → D place) :
    Obeys (changing here (w.Ground here) D) w.layOut := by
  obtain ⟨slashless, notSelf⟩ := Path.name_clean clean.output
  have making : Obeys (changing here (w.Ground here) D)
      ([w.linkData, w.programDirectory, w.nativeDirectory, w.includedDirectory].forM
        Files.makeDirectories) := by
    refine obeys_forM fun path member => Files.makeDirectories_relating ?_
    intro first begins fs fs' same done
    have allowed : w.Ground here (spot here first.text) ∨ D (spot here first.text) :=
      leads_layout (P := fun place => w.Ground here place ∨ D place) clean.staging slashless notSelf
        (fun place leads => .inr (ways place leads)) (fun rest => .inl (w.ground_layout here rest))
        path member _ ⟨first, begins, rfl⟩
    exact makeDirectory_changes done (by rw [same]; exact allowed)
  refine (Files.lookStrictly_still _).relating.bind fun _ => ?_
  split
  · exact (Files.removeTree_changing fun place inside => .inl inside).bind fun _ => making
  · exact making

/-- Dropping what is laid out removes trees and one file, all of them on the ground of the library. -/
theorem discard_relating {R : FileSystem → FileSystem → Prop} [Relates R]
    (trees : ∀ (path : String) (fs fs' : FileSystem) (refused : Option Errno), fs.here = here →
      (∀ place, within (spot here path) place = true → w.Ground here place) →
      fs.removeTree path = .ok (fs', refused) → R fs fs')
    (file : ∀ (path : String) (fs fs' : FileSystem), fs.here = here → w.Ground here (spot here path) →
      fs.removeFile path = .ok fs' → R fs fs') : Obeys (relating here R) w.discard := by
  have dropping (path : String)
      (inside : ∀ place, within (spot here path) place = true → w.Ground here place) :
      Obeys (relating here R) (Files.discardTree path) :=
    Files.discardTree_relating fun fs fs' refused same => trees path fs fs' refused same inside
  unfold discard
  split
  · exact dropping _ fun place inside => .inr inside
  · refine (dropping _ fun place inside => .inl inside).bind fun _ s => ?_
    refine (w.packedPath_still.relating s).bind fun packed t named => ?_
    refine Files.discardFile_relating (fun fs fs' same => file _ fs fs' same ?_) t
    rw [(packedPath_ok named).2, Path.spot_child _ clean.staging
      (archiveName_isName (Path.name_clean clean.output).1)]
    exact .inr (within_append _ _)

theorem discard_changing : Obeys (changing here (w.Ground here) D) w.discard :=
  discard_relating clean
    (fun _ _ _ _ same inside done => removeTree_changes done (by rw [same]; exact inside))
    fun _ _ _ same inside done => removeFile_changes done (by rw [same]; exact inside)

end Steps

/-- What can be asked of a library before it is published. -/
inductive Call where
  | writeModule (bitcode : Bytes)
  | addLinkData (data : Bytes)
  | addEscapeAnalysis (data : Bytes)
  | addDataFlowGraph (data : Bytes)
  | addNative (library : String)
  | addIncluded (library : String)
  | addManifest (file : String)
  | addDepends (names : List String)
  | discard

/-- Do what is asked, and give the library with what it records of it. -/
def answer (w : LibraryWriter) : Call → Run LibraryWriter
  | .writeModule bitcode => (fun _ => w) <$> w.writeModule bitcode
  | .addLinkData data => (fun _ => w) <$> w.addLinkData data
  | .addEscapeAnalysis data => (fun _ => w) <$> w.addEscapeAnalysis data
  | .addDataFlowGraph data => (fun _ => w) <$> w.addDataFlowGraph data
  | .addNative library => w.addNative library
  | .addIncluded library => (fun _ => w) <$> w.addIncluded library
  | .addManifest file => w.addManifest file
  | .addDepends names => pure (w.addDepends names)
  | .discard => (fun _ => w) <$> w.discard

/-- Do what is asked, one after another. What fails records nothing and stops nothing. -/
def answerAll (w : LibraryWriter) : List Call → Run LibraryWriter
  | [] => pure w
  | call :: rest => do
    let w ← tryCatch (w.answer call) fun _ => pure w
    w.answerAll rest

/-- The library that is begun in a staging directory. -/
def begun (output name : String) (target : Target) (abiVersion : Int) (unpacked : Bool)
    (staging : Option String) (directory : String) : LibraryWriter where
  output := .ofText (Text.dropTail output librarySuffix)
  name := name
  target := target
  abiVersion := abiVersion
  unpacked := unpacked
  ownsStaging := staging.isNone
  staging := .ofText directory

/-- A library is begun by laying it out in its staging directory. -/
theorem start_eq (output name : String) (target : Target) (abiVersion : Int) (unpacked : Bool)
    (staging : Option String) :
    start output name target abiVersion unpacked staging =
      stagingDirectory staging >>= fun directory =>
        reporting (begun output name target abiVersion unpacked staging directory).root Refusal.reason
          (begun output name target abiVersion unpacked staging directory).layOut >>= fun _ =>
            pure (begun output name target abiVersion unpacked staging directory) := rfl

/-- Begin a library and do what is asked of it. -/
def draft (output name : String) (target : Target) (abiVersion : Int) (unpacked : Bool)
    (staging : Option String) (calls : List Call) : Run LibraryWriter := do
  let w ← start output name target abiVersion unpacked staging
  w.answerAll calls

theorem answer_filesOnly (w : LibraryWriter) (call : Call) :
    OnFiles Failure.IsOfLibrary (w.answer call) := by
  cases call with
  | writeModule | addLinkData | addEscapeAnalysis | addDataFlowGraph =>
      exact (w.writeFile_filesOnly _ _).map _
  | addNative library => exact w.addNative_filesOnly library
  | addIncluded library => exact (w.copyInto_filesOnly _ _).map _
  | addManifest file => exact w.addManifest_filesOnly file
  | addDepends names => exact .pure _
  | discard => exact w.discard_filesOnly.map _

theorem answerAll_filesOnly (w : LibraryWriter) (calls : List Call) :
    OnFiles Failure.IsOfLibrary (w.answerAll calls) := by
  induction calls generalizing w with
  | nil => exact .pure w
  | cons call rest ih =>
      exact ((w.answer_filesOnly call).tryCatch fun _ _ => .pure w).bind fun w => ih w

/-- What is asked of a library changes nothing of it but what it records. -/
theorem answer_ok (ran : w.answer call s = .ok w' t) : w' = { w with
    depends := w'.depends, nativeTargets := w'.nativeTargets, properties := w'.properties } := by
  cases call with
  | writeModule | addLinkData | addEscapeAnalysis | addDataFlowGraph | addIncluded | discard =>
      rw [answer, ← bind_pure_comp] at ran
      obtain ⟨_, _, -, given⟩ := bind_eq_ok.mp ran
      obtain ⟨rfl, -⟩ := pure_eq_ok.mp given
      rfl
  | addNative library =>
      obtain ⟨_, _, -, given⟩ := bind_eq_ok.mp ran
      obtain ⟨rfl, -⟩ := pure_eq_ok.mp given
      rfl
  | addManifest file =>
      obtain ⟨⟨properties, rfl⟩, -⟩ := addManifest_ok ran
      rfl
  | addDepends names =>
      obtain ⟨rfl, -⟩ := pure_eq_ok.mp ran
      rfl

/-- Whatever is asked of a library, it keeps to its ground. -/
theorem answer_changing (clean : w.Clean) (call : Call) :
    Obeys (changing here (w.Ground here) D) (w.answer call) := by
  have writing {path : Path} {steps : Location} (there : spot here path.text = w.place here ++ steps)
      (content : Bytes) : Obeys (changing here (w.Ground here) D) (w.writeFile path content) :=
    writeFile_changing (there ▸ w.ground_layout here steps)
  have linkData {name : String} (proper : IsName name) (data : Bytes) :
      Obeys (changing here (w.Ground here) D) (w.writeFile (w.linkData.child name) data) :=
    writing (linkData_spot clean.staging proper) data
  cases call with
  | writeModule bitcode => exact (writing (mainBitcode_spot clean.staging) bitcode).map _
  | addLinkData data => exact (linkData (by decide) data).map _
  | addEscapeAnalysis data => exact (linkData (by decide) data).map _
  | addDataFlowGraph data => exact (linkData (by decide) data).map _
  | addNative library =>
      obtain ⟨cleanDirectory, there⟩ := nativeDirectory_spot clean.staging here
      exact (copyInto_changing cleanDirectory there library).bind fun _ => obeys_pure _
  | addIncluded library =>
      obtain ⟨cleanDirectory, there⟩ := includedDirectory_spot clean.staging here
      exact (copyInto_changing cleanDirectory there library).map _
  | addManifest file =>
      have reading : Obeys still (Files.read file) := Files.ask_still _ _
      refine (reporting_relating reading.relating).bind fun content => ?_
      split
      · exact obeys_pure _
      · exact (throw_still _).relating
      · exact (throw_still _).relating
  | addDepends names => exact obeys_pure _
  | discard => exact (discard_changing clean).map _

theorem answerAll_changing (clean : w.Clean) (calls : List Call) :
    Obeys (changing here (w.Ground here) D) (w.answerAll calls) := by
  induction calls generalizing w with
  | nil => exact obeys_pure w
  | cons call rest ih =>
      have answering : Obeys (changing here (w.Ground here) D)
          (tryCatch (w.answer call) fun _ => pure w) :=
        Obeys.tryCatch (answer_changing clean call) fun e s t failed =>
          ((answer_changing clean call) s).of_error failed
      refine fun s => (answering s).bind fun w' t given => ?_
      have same : w'.staging = w.staging ∧ w'.output = w.output := by
        cases ran : w.answer call s with
        | ok w'' u =>
            rw [tryCatch_of_ok ran] at given
            cases given
            rw [answer_ok ran]
            exact ⟨rfl, rfl⟩
        | error e u =>
            rw [tryCatch_of_error ran] at given
            cases given
            exact ⟨rfl, rfl⟩
      have ground : w'.Ground here = w.Ground here := by
        funext other
        simp only [Ground, place, root, same.1, same.2]
      exact ground ▸ ih ⟨same.1 ▸ clean.staging, same.2 ▸ clean.output⟩ t

/-- The last name in the path of a fresh staging directory. -/
theorem isName_staging (number : Nat) : IsName (stagingStem ++ toString number) :=
  Files.isName_numbered (by decide) number

/-- The staging directory of a library: the one that is given, or a fresh one. -/
inductive Stages (s : Session) : Option String → String → Prop where
  | given (directory : String) : directory ≠ "" → Stages s (some directory) directory
  | fresh (staging : Option String) (number : Nat) : staging = none ∨ staging = some "" →
      s.files.entry?
        (spot s.files.here (joinPaths s.host.temporary (stagingStem ++ toString number))) = none →
      Stages s staging (joinPaths s.host.temporary (stagingStem ++ toString number))

/-- What is there is not in a fresh staging directory. -/
theorem Stages.outside (stages : Stages s none directory) (sound : s.files.Sound)
    (stands : (s.files.entry? other).isSome) : within (spot s.files.here directory) other = false := by
  cases stages with
  | fresh _ number _ free =>
      rw [Bool.eq_false_iff]
      intro inside
      obtain ⟨rest, rfl⟩ := within_iff.mp inside
      by_cases itself : rest = []
      · rw [itself, List.append_nil, free] at stands
        exact Bool.false_ne_true stands
      · have notDirectory : s.files.entry?
            (spot s.files.here (joinPaths s.host.temporary (stagingStem ++ toString number))) ≠
              some .directory := by
          rw [free]
          exact nofun
        rw [sound.free_below notDirectory itself] at stands
        exact Bool.false_ne_true stands

section Draft
variable {output name : String} {target : Target} {abiVersion : Int} {unpacked : Bool}
  {staging : Option String}

theorem stagingDirectory_ok (ran : stagingDirectory staging s = .ok directory t) :
    Stages s staging directory ∧ s.files.Changes (within (spot s.files.here directory) · = true) D t.files ∧
      (staging = some directory ∨ s.files.HasWay directory) := by
  have making (own : staging = none ∨ staging = some "")
      (made : Files.makeTemporaryDirectory stagingStem s = .ok directory t) :
      Stages s staging directory ∧
        s.files.Changes (within (spot s.files.here directory) · = true) D t.files ∧
        (staging = some directory ∨ s.files.HasWay directory) := by
    obtain ⟨number, fs, draws, rfl, -, done, rfl⟩ := Files.makeTemporaryDirectory_ok made
    have proper := isName_staging number
    have named : Text.baseName (joinPaths s.host.temporary (stagingStem ++ toString number)) ≠ "" := by
      rw [baseName_joinPaths, Text.baseName_of_not_mem proper.clean]
      exact proper.nonempty
    obtain ⟨above, last, found⟩ := last_of_makeDirectory done named
    exact ⟨.fresh staging number own (makeDirectory_ok done).2.1,
      makeDirectory_changes done (.inl (within_self _)), .inr (hasWay_of_last found)⟩
  unfold stagingDirectory at ran
  split at ran
  · exact making (.inl rfl) ran
  · exact making (.inr rfl) ran
  · rename_i given empty
    obtain ⟨rfl, rfl⟩ := pure_eq_ok.mp ran
    exact ⟨.given _ fun same => empty (same ▸ rfl), .refl _, .inl rfl⟩

theorem stagingDirectory_failed (failed : stagingDirectory staging s = .error e t) :
    t.files = s.files := by
  unfold stagingDirectory at failed
  split at failed
  · exact Files.makeTemporaryDirectory_failed failed
  · exact Files.makeTemporaryDirectory_failed failed
  · nomatch failed

theorem draft_filesOnly (calls : List Call) : OnFiles Failure.IsOfLibrary
    (draft output name target abiVersion unpacked staging calls) :=
  (start_filesOnly _ _ _ _ _ _).bind fun w => w.answerAll_filesOnly calls

/-- What drafting a library changes once it has a staging directory. -/
theorem draft_changes (calls : List Call) (found : stagingDirectory staging s = .ok directory u) :
    ∃ w : LibraryWriter, w.Clean ∧ w.output = .ofText (Text.dropTail output librarySuffix) ∧
      w.staging = .ofText directory ∧
      s.files.Changes (w.Ground s.files.here) (w.staging.Leads s.files.here)
        ((draft output name target abiVersion unpacked staging calls).after s).files := by
  have clean : (begun output name target abiVersion unpacked staging directory).Clean :=
    ⟨Path.ofText_clean _, Path.ofText_clean _⟩
  refine ⟨begun output name target abiVersion unpacked staging directory, clean, rfl, rfl, ?_⟩
  have ran : (draft output name target abiVersion unpacked staging calls).after s =
      (reporting (begun output name target abiVersion unpacked staging directory).root Refusal.reason
        (begun output name target abiVersion unpacked staging directory).layOut >>= fun _ =>
          (begun output name target abiVersion unpacked staging directory).answerAll calls).after u := by
    rw [draft, start_eq, bind_assoc, after_bind_of_ok found, bind_assoc]
    simp only [pure_bind]
  have staged : spot s.files.here (begun output name target abiVersion unpacked staging directory).staging.text =
      spot s.files.here directory := Path.spot_ofText _ _
  rw [ran]
  generalize begun output name target abiVersion unpacked staging directory = w at clean staged
  obtain ⟨-, made, -⟩ := stagingDirectory_ok (D := w.staging.Leads s.files.here) found
  have laying : Obeys (changing s.files.here (w.Ground s.files.here) (w.staging.Leads s.files.here))
      (reporting w.root Refusal.reason w.layOut >>= fun _ => w.answerAll calls) :=
    (reporting_relating (layOut_changing clean fun _ leads => leads)).bind fun _ =>
      answerAll_changing clean calls
  exact (made.mono (fun place inside => .inr (staged ▸ inside)) fun _ => id).trans (laying u made.here)

/-- Whatever is asked of a library before it is published, and whether it succeeds or not, nothing
changes but its staging directory. Only a library that is called `..` reaches further, and not further
than the directory above. -/
theorem draft_stays (s : Session) (calls : List Call)
    (way : ∀ directory, staging = some directory → s.files.HasWay directory) :
    let t := (draft output name target abiVersion unpacked staging calls).after s
    t = { s with files := t.files, draws := t.draws } ∧ t.files.here = s.files.here ∧
      (t.files = s.files ∨ ∃ directory, Stages s staging directory ∧
        ((Path.ofText (Text.dropTail output librarySuffix)).name ≠ ".." →
          ∀ place, within (spot s.files.here directory) place = false →
            t.files.entry? place = s.files.entry? place) ∧
        ∀ place, within (spot s.files.here directory).dropLast place = false →
          t.files.entry? place = s.files.entry? place) := by
  refine ⟨((draft_filesOnly calls).obeys s).1, ?_⟩
  cases found : stagingDirectory staging s with
  | error e t =>
      have failed : (draft output name target abiVersion unpacked staging calls).after s = t := by
        rw [draft, start, bind_assoc]
        exact after_bind_of_error found
      rw [failed, stagingDirectory_failed found]
      exact ⟨rfl, .inl rfl⟩
  | ok directory u =>
      obtain ⟨stages, -, reached⟩ := stagingDirectory_ok (D := fun _ => False) found
      obtain ⟨w, clean, output', staging', changed⟩ := draft_changes calls found
      have staged : spot s.files.here w.staging.text = spot s.files.here directory := by
        rw [staging', Path.spot_ofText]
      have way' : s.files.HasWay directory := by
        rcases reached with given | way'
        · exact way directory given
        · exact way'
      have taken (place : Location) (leads : w.staging.Leads s.files.here place) :
          w.Ground s.files.here place ∨ s.files.entry? place = some .directory := by
        refine (way' place (staging' ▸ leads)).imp_left fun same => .inr ?_
        rw [staged, same]
        exact within_self _
      refine ⟨changed.here, .inr ⟨directory, stages, fun notAbove place outside => ?_,
        fun place outside => ?_⟩⟩
      · refine changed.exact taken fun ground => ?_
        have inside := ground.staged clean (output' ▸ notAbove)
        rw [staged, outside] at inside
        exact Bool.false_ne_true inside
      · refine changed.exact taken fun ground => ?_
        have inside := ground.above clean
        rw [staged, outside] at inside
        exact Bool.false_ne_true inside

end Draft

/-- A session with a run directory, and with a library where another one is to be published. -/
def withOlder : Session :=
  { Session.blank with files := { entries := [(["tmp"], .directory), (["tmp", "kiln-1"], .directory),
      (["work"], .directory), (["work", "lib.klib"], .file [7])], here := ["work"] } }

/-- A library that is drafted in the run directory. One of its files is not there. -/
def newer : Run LibraryWriter :=
  draft "lib.klib" "lib" .linuxX64 1 false (some "/tmp/kiln-1/library")
    [.addNative "missing.bc", .addLinkData [2]]

/-- The newer library is laid out, and the older one stays. -/
theorem newer_drafted : withOlder.files.HasWay "/tmp/kiln-1/library" ∧
    (newer.after withOlder).files.file? ["tmp", "kiln-1", "library", "lib", "linkdata", "module"] =
      some [2] ∧
    ∀ place, within ["tmp", "kiln-1", "library"] place = false →
      (newer.after withOlder).files.entry? place = withOlder.files.entry? place := by
  have stands : withOlder.files.stat "/tmp/kiln-1" = .ok .directory := by rfl
  have library : IsName "library" := by decide
  have way : withOlder.files.HasWay "/tmp/kiln-1/library" :=
    hasWay_joinPaths stands (by decide) library
  refine ⟨way, by decide +kernel, ?_⟩
  have drafted := @draft_stays "lib.klib" "lib" .linuxX64 1 false (some "/tmp/kiln-1/library") withOlder
    [.addNative "missing.bc", .addLinkData [2]] fun directory given => Option.some.inj given ▸ way
  rw [← newer] at drafted
  generalize newer.after withOlder = t at drafted ⊢
  obtain ⟨-, -, same | ⟨directory, stages, stays, -⟩⟩ := drafted
  · exact fun place _ => by rw [same]
  · cases stages with
    | given _ _ => exact stays (by decide)
    | fresh _ number own => exact absurd own (by decide)

/-- A session in which a library has been begun in a directory of its own. -/
def withBegun : Session :=
  { Session.blank with
    files := { entries := [(["tmp"], .directory), (["tmp", "klib-1"], .directory),
      (["tmp", "klib-1", "lib"], .directory), (["work"], .directory)], here := ["work"] }
    draws := 1 }

/-- Beginning a library that is called `..` removes what is not in its staging directory: the library
that has been begun before. -/
theorem begun_library_lost :
    (∀ directory, Stages withBegun none directory →
      within (spot withBegun.files.here directory) ["tmp", "klib-1", "lib"] = false) ∧
    withBegun.files.entry? ["tmp", "klib-1", "lib"] = some .directory ∧
    ((draft ".." "up" .linuxX64 1 false none []).after withBegun).files.entry?
      ["tmp", "klib-1", "lib"] = none := by
  have sound : withBegun.files.Sound := .of_entries (by decide) (by decide)
  exact ⟨fun directory stages => stages.outside sound (by decide), by decide, by decide +kernel⟩

end LibraryWriter

end Foundry
