import Foundry.Library.Writer
import Foundry.Proofs.Files.Extension
import Foundry.Proofs.FileSystem.Deposit
import Foundry.Proofs.FileSystem.PathSpot

/-! Laying out a library: copies are put into the directories of native bitcode and of included
binaries under the last names of their paths, and the layout holds what was put there. -/
namespace Foundry

open FileSystem Run

theorem Target.isName (target : Target) : IsName target.name := by
  cases target <;> decide

theorem FileSystem.file?_spot_of_read {fs : FileSystem} (done : fs.read path = .ok content) :
    fs.file? (spot fs.here path) = some content :=
  file?_eq_some.mpr (read_ok done).2

namespace LibraryWriter

/-- Where the library is laid out, seen from the directory `here`. -/
def place (w : LibraryWriter) (here : Location) : Location := spot here w.root.text

/-- Where the binaries for the target are, below the library. -/
def targetSteps (w : LibraryWriter) : Location := ["targets", w.target.name]

/-- The steps to the native bitcode. -/
def nativeSteps (w : LibraryWriter) : Location := w.targetSteps ++ ["native"]

/-- The steps to the included binaries. -/
def includedSteps (w : LibraryWriter) : Location := w.targetSteps ++ ["included"]

variable {w : LibraryWriter} {s t : Session} {natives included : List (String × Bytes)}

theorem root_eq (slashless : '/' ∉ w.output.name.toList) (notSelf : w.output.name ≠ ".") :
    w.root = ⟨w.staging.anchor,
      w.staging.parts ++ if w.output.name = "" then [] else [w.output.name]⟩ := by
  have relative : Anchor.ofText w.output.name = .none := by
    rw [Path.anchor_ofText, Bool.eq_false_iff]
    intro slash
    obtain ⟨rest, whole⟩ := Text.startsWith_iff.mp slash
    exact slashless (by simp [whole])
  have parts : Text.split '/' w.output.name = [w.output.name] := Text.split_of_not_mem slashless
  simp only [root, Path.child, Path.join, Path.ofText, relative, if_true, Path.partsOf, parts]
  by_cases empty : w.output.name = ""
  · simp [empty]
  · simp [empty, notSelf]

/-- A library is laid out in the staging directory, unless its name leads elsewhere. -/
theorem place_cases (clean : w.staging.Clean) (slashless : '/' ∉ w.output.name.toList)
    (notSelf : w.output.name ≠ ".") (here : Location) :
    w.output.name = "" ∧ w.place here = spot here w.staging.text ∨
      w.output.name = ".." ∧ w.place here = (spot here w.staging.text).dropLast ∨
      IsName w.output.name ∧ w.place here = spot here w.staging.text ++ [w.output.name] := by
  have rooted : w.root.Clean := Path.child_clean clean _
  rw [place, Path.spot_text here rooted, root_eq slashless notSelf, Path.spot_text here clean,
    walk_append]
  by_cases empty : w.output.name = ""
  · exact .inl ⟨empty, by simp [empty, walk, Path.start]⟩
  · by_cases above : w.output.name = ".."
    · exact .inr (.inl ⟨above, by simp [above, walk, Path.start]⟩)
    · exact .inr (.inr ⟨⟨empty, notSelf, above, slashless⟩,
        by simp [empty, above, notSelf, walk, Path.start]⟩)

theorem reporting_ok {body : Run α} (ran : reporting path reason body s = .ok a t) :
    body s = .ok a t := by
  unfold reporting at ran
  cases result : body s with
  | ok b u =>
      rwa [tryCatch_of_ok result] at ran
  | error e u =>
      rw [tryCatch_of_error result] at ran
      cases e <;> nomatch ran

section Places
variable (clean : w.staging.Clean) (here : Location)
include clean

theorem root_clean : w.root.Clean := Path.child_clean clean _

theorem targetDirectory_spot :
    w.targetDirectory.Clean ∧ spot here w.targetDirectory.text = w.place here ++ w.targetSteps := by
  have targets : IsName "targets" := by decide
  have first := Path.child_clean (root_clean clean) "targets"
  refine ⟨Path.child_clean first _, ?_⟩
  rw [targetDirectory, Path.spot_child here first w.target.isName,
    Path.spot_child here (root_clean clean) targets]
  simp [place, targetSteps]

theorem nativeDirectory_spot :
    w.nativeDirectory.Clean ∧ spot here w.nativeDirectory.text = w.place here ++ w.nativeSteps := by
  have native : IsName "native" := by decide
  obtain ⟨above, there⟩ := targetDirectory_spot clean here
  refine ⟨Path.child_clean above _, ?_⟩
  rw [nativeDirectory, Path.spot_child here above native, there]
  simp [nativeSteps]

theorem includedDirectory_spot :
    w.includedDirectory.Clean ∧
      spot here w.includedDirectory.text = w.place here ++ w.includedSteps := by
  have included : IsName "included" := by decide
  obtain ⟨above, there⟩ := targetDirectory_spot clean here
  refine ⟨Path.child_clean above _, ?_⟩
  rw [includedDirectory, Path.spot_child here above included, there]
  simp [includedSteps]

end Places

/-- A file can be written in a directory only under a name. -/
theorem name_of_write {fs fs' : FileSystem} {directory : Path} (clean : directory.Clean)
    (stands : fs.entry? (spot fs.here directory.text) = some .directory)
    (done : fs.write (directory.child (Path.ofText source).name).text content = .ok fs') :
    IsName (Path.ofText source).name := by
  obtain ⟨slashless, notSelf⟩ := Path.name_clean (Path.ofText_clean source)
  have nonempty : (Path.ofText source).name ≠ "" := by
    intro empty
    have same : directory.child "" = directory := by
      simp [Path.child, Path.join, Path.ofText, Path.partsOf, Anchor.ofText, Text.split, Text.splitAll]
    rw [empty, same] at done
    exact (write_ok done).2.1 stands
  refine ⟨nonempty, notSelf, fun above => ?_, slashless⟩
  have parts : (directory.child "..").parts = directory.parts ++ [".."] := by
    simp [Path.child, Path.join, Path.ofText, Path.partsOf, Anchor.ofText, Text.split, Text.splitAll]
  have named := (write_name done).1
  rw [above, Path.baseName_text (Path.child_clean clean "..") parts] at named
  exact named.notAbove rfl

/-- What is copied is a file, and not the one that the copy is to become. -/
theorem copyInto_source {directory : Path} (ran : w.copyInto source directory s = .ok u t) :
    ∃ content, s.files.read source = .ok content ∧
      spot s.files.here source ≠
        spot s.files.here (directory.child (Path.ofText source).name).text := by
  obtain ⟨content, fs, readable, -, apart, -⟩ := Files.copy_ok (reporting_ok ran)
  rw [FileName.plain] at apart
  exact ⟨content, readable, apart⟩

/-- A copy puts the content of its source into the directory. -/
theorem copyInto_ok {directory : Path} (clean : directory.Clean)
    (holds : s.files.Holds (spot s.files.here directory.text) puts)
    (ran : w.copyInto source directory s = .ok u t) :
    ∃ content, s.files.read source = .ok content ∧
      t.files.Holds (spot s.files.here directory.text) (puts ++ [((Path.ofText source).name, content)]) ∧
      spot s.files.here source ≠ spot s.files.here directory.text ++ [(Path.ofText source).name] ∧
      s.files.Extends (· = spot s.files.here directory.text ++ [(Path.ofText source).name]) t.files ∧
      t = { s with files := t.files } := by
  obtain ⟨content, fs, readable, done, apart, ended⟩ := Files.copy_ok (reporting_ok ran)
  rw [FileName.plain] at done apart
  have proper := name_of_write clean holds.directory done
  rw [Path.spot_child s.files.here clean proper] at apart
  have files : t.files = fs := by rw [ended]
  obtain ⟨-, -, put⟩ := write_ok done
  rw [Path.spot_child s.files.here clean proper] at put
  refine ⟨content, readable, ?_, apart, ?_, by rw [files, ended]⟩
  · rw [files, put]
    exact holds.put_inside _ content
  · rw [files]
    apply write_extends done
    rw [Path.spot_child s.files.here clean proper]

/-- The layout holds what was put among the native bitcode and among the included binaries. -/
structure Laid (w : LibraryWriter) (s : Session) (natives included : List (String × Bytes)) : Prop where
  natives : s.files.Holds (w.place s.files.here ++ w.nativeSteps) natives
  included : s.files.Holds (w.place s.files.here ++ w.includedSteps) included

theorem nativeSteps_ne (w : LibraryWriter) (place : Location) (name name' : String) :
    place ++ w.nativeSteps ++ [name] ≠ place ++ w.includedSteps ++ [name'] := by
  simp [nativeSteps, includedSteps, targetSteps]

theorem Laid.extend {Z : Location → Prop} (laid : w.Laid s natives included)
    (grown : s.files.Extends Z t.files)
    (native : ∀ name, ¬ Z (w.place s.files.here ++ w.nativeSteps ++ [name]))
    (other : ∀ name, ¬ Z (w.place s.files.here ++ w.includedSteps ++ [name])) :
    w.Laid t natives included := by
  constructor
  · rw [grown.here]
    exact laid.natives.extend grown native
  · rw [grown.here]
    exact laid.included.extend grown other

/-- The last name of a path, under which its file is put. -/
def nameOf (path : String) : String := (Path.ofText path).name

theorem copyNative_ok (clean : w.staging.Clean) (laid : w.Laid s natives included)
    (ran : w.copyInto source w.nativeDirectory s = .ok u t) :
    ∃ content, s.files.read source = .ok content ∧
      w.Laid t (natives ++ [(nameOf source, content)]) included ∧
      s.files.Extends (· = w.place s.files.here ++ w.nativeSteps ++ [nameOf source]) t.files := by
  obtain ⟨cleanDirectory, there⟩ := nativeDirectory_spot clean s.files.here
  obtain ⟨content, source, holds, -, grown, -⟩ := copyInto_ok cleanDirectory (there ▸ laid.natives) ran
  rw [there] at holds grown
  refine ⟨content, source, ⟨grown.here ▸ holds, ?_⟩, grown⟩
  rw [grown.here]
  exact laid.included.extend grown fun name same => nativeSteps_ne w _ _ _ same.symm

theorem addIncluded_ok (clean : w.staging.Clean) (laid : w.Laid s natives included)
    (ran : w.addIncluded source s = .ok u t) :
    ∃ content, s.files.read source = .ok content ∧
      w.Laid t natives (included ++ [(nameOf source, content)]) ∧
      spot s.files.here source ≠ w.place s.files.here ++ w.includedSteps ++ [nameOf source] ∧
      s.files.Extends (· = w.place s.files.here ++ w.includedSteps ++ [nameOf source]) t.files ∧
      t = { s with files := t.files } := by
  obtain ⟨cleanDirectory, there⟩ := includedDirectory_spot clean s.files.here
  obtain ⟨content, source, holds, apart, grown, kept⟩ :=
    copyInto_ok cleanDirectory (there ▸ laid.included) ran
  rw [there] at holds apart grown
  refine ⟨content, source, ⟨?_, grown.here ▸ holds⟩, apart, grown, kept⟩
  rw [grown.here]
  exact laid.natives.extend grown fun name same => nativeSteps_ne w _ _ _ same

section Copies
variable {origin : FileSystem} {Z : Location → Prop}

/-- All native bitcode is put into the layout, with the content that it had at the beginning. -/
theorem addNatives_ok {libraries : List String} (clean : w.staging.Clean)
    (inside : ∀ name, Z (w.place origin.here ++ w.nativeSteps ++ [name]))
    (outside : ∀ library ∈ libraries, ¬ Z (spot origin.here library))
    (grown : origin.Extends Z s.files) (laid : w.Laid s natives included)
    (ran : w.addNatives libraries s = .ok w' t) :
    w' = { w with nativeTargets := w.nativeTargets ++ libraries.map nameOf } ∧
      ∃ contents, libraries.map (fun path => origin.file? (spot origin.here path)) =
          contents.map some ∧
        w.Laid t (natives ++ (libraries.map nameOf).zip contents) included ∧
        origin.Extends Z t.files := by
  induction libraries generalizing w s natives with
  | nil =>
      obtain ⟨rfl, rfl⟩ := pure_eq_ok.mp ran
      exact ⟨by simp, [], by simp, by simpa using laid, grown⟩
  | cons library rest ih =>
      obtain ⟨w₁, u, first, others⟩ := bind_eq_ok.mp ran
      obtain ⟨_, v, copied, given⟩ := bind_eq_ok.mp first
      obtain ⟨rfl, rfl⟩ := pure_eq_ok.mp given
      obtain ⟨content, readable, laid₁, grown₁⟩ := copyNative_ok clean laid copied
      have source := file?_spot_of_read readable
      have grown₂ : origin.Extends Z v.files := by
        refine grown.trans (grown₁.mono fun place same => ?_)
        rw [same, grown.here]
        exact inside _
      have later : ∀ library ∈ rest, ¬ Z (spot origin.here library) :=
        fun library member => outside library (List.mem_cons_of_mem _ member)
      obtain ⟨rfl, contents, sources, laid₂, grown₃⟩ :=
        ih (w := { w with nativeTargets := w.nativeTargets ++ [nameOf library] }) clean inside later
          grown₂ ⟨laid₁.natives, laid₁.included⟩ others
      rw [grown.here, grown.file (outside library (by simp))] at source
      refine ⟨by simp [nameOf], content :: contents, by simp [source, sources], ?_, grown₃⟩
      have puts : natives ++ (nameOf library :: rest.map nameOf).zip (content :: contents) =
          natives ++ [(nameOf library, content)] ++ (rest.map nameOf).zip contents := by simp
      rw [List.map_cons, puts]
      exact ⟨laid₂.natives, laid₂.included⟩

/-- All binaries are put into the layout, with the content that they had at the beginning. -/
theorem addAllIncluded_ok {libraries : List String} (clean : w.staging.Clean)
    (inside : ∀ name, Z (w.place origin.here ++ w.includedSteps ++ [name]))
    (outside : ∀ library ∈ libraries, ¬ Z (spot origin.here library))
    (grown : origin.Extends Z s.files) (laid : w.Laid s natives included)
    (ran : libraries.forM w.addIncluded s = .ok u t) :
    ∃ contents, libraries.map (fun path => origin.file? (spot origin.here path)) =
        contents.map some ∧
      w.Laid t natives (included ++ (libraries.map nameOf).zip contents) ∧
      origin.Extends Z t.files := by
  induction libraries generalizing s included with
  | nil =>
      obtain ⟨-, rfl⟩ := pure_eq_ok.mp ran
      exact ⟨[], by simp, by simpa using laid, grown⟩
  | cons library rest ih =>
      obtain ⟨_, v, copied, others⟩ := bind_eq_ok.mp ran
      obtain ⟨content, readable, laid₁, -, grown₁, -⟩ := addIncluded_ok clean laid copied
      have source := file?_spot_of_read readable
      have grown₂ : origin.Extends Z v.files := by
        refine grown.trans (grown₁.mono fun place same => ?_)
        rw [same, grown.here]
        exact inside _
      have later : ∀ library ∈ rest, ¬ Z (spot origin.here library) :=
        fun library member => outside library (List.mem_cons_of_mem _ member)
      obtain ⟨contents, sources, laid₂, grown₃⟩ := ih later grown₂ laid₁ others
      rw [grown.here, grown.file (outside library (by simp))] at source
      refine ⟨content :: contents, by simp [source, sources], ?_, grown₃⟩
      simpa using laid₂

end Copies

end LibraryWriter

end Foundry
