import Foundry.Proofs.Library.Frame
import Foundry.Proofs.Library.Layout

/-! Laying out a library in an empty run directory: what is put among its native bitcode and its
included binaries, and that nothing but the run directory changes. -/
namespace Foundry.LibraryWriter

open FileSystem Run

variable {w : LibraryWriter} {s t : Session} {top here : Location}

/-- The library is laid out in the run directory `top`, under the last name of its output. -/
structure StagedAt (w : LibraryWriter) (here top : Location) : Prop where
  clean : w.staging.Clean
  staged : spot here w.staging.text = top ++ ["library"]
  slashless : '/' ∉ w.output.name.toList
  notSelf : w.output.name ≠ "."

namespace StagedAt

theorem same {w' : LibraryWriter} (at' : w.StagedAt here top) (staging : w'.staging = w.staging)
    (output : w'.output = w.output) : w'.StagedAt here top :=
  ⟨staging ▸ at'.clean, staging ▸ at'.staged, output ▸ at'.slashless, output ▸ at'.notSelf⟩

theorem root_eq (at' : w.StagedAt here top) :
    w.root = ⟨w.staging.anchor,
      w.staging.parts ++ if w.output.name = "" then [] else [w.output.name]⟩ :=
  LibraryWriter.root_eq at'.slashless at'.notSelf

/-- The library is laid out in the directory for staging, unless its name leads elsewhere. -/
theorem place_cases (at' : w.StagedAt here top) :
    w.place here = top ++ ["library"] ∨ w.place here = top ∨
      w.place here = top ++ ["library", w.output.name] := by
  rcases LibraryWriter.place_cases at'.clean at'.slashless at'.notSelf here with
    ⟨-, same⟩ | ⟨-, same⟩ | ⟨-, same⟩ <;> simp [same, at'.staged]

/-- Where the library is laid out, if its name is a name. -/
theorem place_of_name (at' : w.StagedAt here top) (proper : IsName w.output.name) :
    w.place here = top ++ ["library", w.output.name] := by
  rw [place, root, Path.spot_child _ at'.clean proper, at'.staged]
  simp

theorem within_place (at' : w.StagedAt here top) (rest : Location) :
    within top (w.place here ++ rest) = true := by
  rcases at'.place_cases with same | same | same <;> simp [same, List.append_assoc]

theorem place_below (at' : w.StagedAt here top) (step : String) (rest : Location) :
    ∃ first more, w.place here ++ step :: rest = top ++ first :: more := by
  rcases at'.place_cases with same | same | same
  · exact ⟨"library", step :: rest, by simp [same]⟩
  · exact ⟨step, rest, by rw [same]⟩
  · exact ⟨"library", w.output.name :: step :: rest, by simp [same]⟩

/-- Nothing lies as deep as the files of the layout but the layout itself. -/
theorem length_place (at' : w.StagedAt here top) : top.length ≤ (w.place here).length := by
  rcases at'.place_cases with same | same | same <;> simp [same]

end StagedAt

/-- An older library is not there. -/
theorem root_unseen (at' : w.StagedAt s.files.here top) (vacant : s.files.Vacant top)
    (status : s.files.stat w.root.text = .ok entry) : False := by
  have missing := vacant.2 "library"
  by_cases empty : w.output.name = ""
  · have same : w.root = w.staging := by simp [at'.root_eq, empty]
    have stands := (stat_ok status).2
    rw [same, at'.staged, missing] at stands
    contradiction
  · have parts : w.root.parts = w.staging.parts ++ [w.output.name] := by simp [at'.root_eq, empty]
    have stands :=
      Path.directory_of_locate (root_clean at'.clean) parts (stat_ok status).1
    have staged := at'.staged
    rw [Path.spot_text _ at'.clean, Path.start] at staged
    rw [Path.start, at'.root_eq, staged, missing] at stands
    contradiction

/-- In an empty run directory, an empty library is laid out. -/
theorem layOut_ok (at' : w.StagedAt s.files.here top) (vacant : s.files.Vacant top)
    (sound : s.files.Sound) (ran : w.layOut s = .ok u t) :
    w.Laid t [] [] ∧ s.files.Extends (fun _ => False) t.files := by
  obtain ⟨seen, a, looked, rest⟩ := bind_eq_ok.mp ran
  obtain ⟨rfl, status, -⟩ := Files.lookStrictly_ok looked
  cases seen with
  | some entry => exact (root_unseen at' vacant (status entry rfl)).elim
  | none =>
      have growing (path : Path) : Obeys (extending a.files.here fun _ => False)
          (Files.makeDirectories path) := Files.makeDirectories_extending path
      obtain ⟨_, b, first, rest⟩ := bind_eq_ok.mp rest
      obtain ⟨_, c, second, rest⟩ := bind_eq_ok.mp rest
      obtain ⟨_, d, third, rest⟩ := bind_eq_ok.mp rest
      obtain ⟨_, e, fourth, rest⟩ := bind_eq_ok.mp rest
      obtain ⟨-, rfl⟩ := pure_eq_ok.mp rest
      have grown₁ := (growing _ a).of_ok first rfl
      have grown₂ := grown₁.trans ((growing _ b).of_ok second grown₁.here)
      have grown₃ := grown₂.trans ((growing _ c).of_ok third grown₂.here)
      have last := (growing _ d).of_ok fourth grown₃.here
      have grown := grown₃.trans last
      have native := last.directory (Files.ensureDirectories_ok third)
      have included := Files.ensureDirectories_ok fourth
      rw [grown₂.here, (nativeDirectory_spot at'.clean _).2] at native
      rw [grown₃.here, (includedDirectory_spot at'.clean _).2] at included
      have empty (step : String) (rest : Location) :
          e.files.file? (w.place a.files.here ++ step :: rest) = none := by
        obtain ⟨name, more, same⟩ := at'.place_below step rest
        rw [grown.file (fun impossible => impossible), same, file?, vacant.below sound]
      refine ⟨⟨?_, ?_⟩, grown⟩
      · rw [grown.here]
        exact ⟨native, fun name => by
          simpa [nativeSteps, targetSteps, lastOf] using empty "targets" _⟩
      · rw [grown.here]
        exact ⟨included, fun name => by
          simpa [includedSteps, targetSteps, lastOf] using empty "targets" _⟩

section Parts
variable {origin : FileSystem} {natives included : List (String × Bytes)}

/-- Other files of the layout do not concern what was put into it. -/
theorem writeFile_ok {path : Path} {steps : Location} (at' : w.StagedAt origin.here top)
    (there : spot origin.here path.text = w.place origin.here ++ steps)
    (native : ∀ name, steps ≠ w.nativeSteps ++ [name])
    (other : ∀ name, steps ≠ w.includedSteps ++ [name])
    (grown : origin.Extends (within top · = true) s.files) (laid : w.Laid s natives included)
    (ran : w.writeFile path content s = .ok u t) :
    w.Laid t natives included ∧ origin.Extends (within top · = true) t.files := by
  obtain ⟨fs, done, ended⟩ := Files.change_ok (reporting_ok ran)
  have written : s.files.Extends (· = w.place origin.here ++ steps) t.files := by
    rw [ended]
    apply write_extends done
    rw [grown.here, there]
  constructor
  · apply laid.extend written
    · intro name same
      rw [grown.here, List.append_assoc, List.append_right_inj] at same
      exact native name same.symm
    · intro name same
      rw [grown.here, List.append_assoc, List.append_right_inj] at same
      exact other name same.symm
  · refine grown.trans (written.mono fun place same => ?_)
    rw [same]
    exact at'.within_place steps

theorem linkData_spot (clean : w.staging.Clean) {name : String} (proper : IsName name) :
    spot here (w.linkData.child name).text = w.place here ++ ["linkdata", name] := by
  have linkdata : IsName "linkdata" := by decide
  rw [linkData, Path.spot_child here (Path.child_clean (root_clean clean) _) proper,
    Path.spot_child here (root_clean clean) linkdata]
  simp [place]

theorem mainBitcode_spot (clean : w.staging.Clean) :
    spot here w.mainBitcode.text = w.place here ++ (w.targetSteps ++ ["program", "program.bc"]) := by
  have program : IsName "program" := by decide
  have bitcode : IsName "program.bc" := by decide
  obtain ⟨above, there⟩ := targetDirectory_spot clean here
  rw [mainBitcode, programDirectory, Path.spot_child here (Path.child_clean above _) bitcode,
    Path.spot_child here above program, there]
  simp

theorem writeLinkData_ok {name : String} (proper : IsName name) (at' : w.StagedAt origin.here top)
    (grown : origin.Extends (within top · = true) s.files) (laid : w.Laid s natives included)
    (ran : w.writeFile (w.linkData.child name) content s = .ok u t) :
    w.Laid t natives included ∧ origin.Extends (within top · = true) t.files :=
  writeFile_ok at' (linkData_spot at'.clean proper) (by simp [nativeSteps, targetSteps])
    (by simp [includedSteps, targetSteps]) grown laid ran

theorem writeOptional_ok {name : String} {content : Option Bytes} (proper : IsName name)
    (at' : w.StagedAt origin.here top)
    (grown : origin.Extends (within top · = true) s.files) (laid : w.Laid s natives included)
    (ran : content.forM (w.writeFile (w.linkData.child name)) s = .ok u t) :
    w.Laid t natives included ∧ origin.Extends (within top · = true) t.files := by
  cases content with
  | none =>
      obtain ⟨-, rfl⟩ := pure_eq_ok.mp ran
      exact ⟨laid, grown⟩
  | some content => exact writeLinkData_ok proper at' grown laid ran

/-- Reading a manifest changes the properties of the library alone. -/
theorem addManifest_ok (ran : w.addManifest file s = .ok w' t) :
    (∃ properties, w' = { w with properties }) ∧ t = s := by
  obtain ⟨content, a, asked, rest⟩ := bind_eq_ok.mp ran
  obtain ⟨-, rfl⟩ := Files.ask_ok (reporting_ok asked)
  cases parsed : Properties.parseBytes content with
  | ok table =>
      simp only [parsed] at rest
      obtain ⟨rfl, rfl⟩ := pure_eq_ok.mp rest
      exact ⟨⟨_, rfl⟩, rfl⟩
  | error e =>
      simp only [parsed] at rest
      cases e <;> nomatch rest

theorem addGivenManifest_ok (ran : w.addGivenManifest file s = .ok w' t) :
    (∃ properties, w' = { w with properties }) ∧ t = s := by
  unfold addGivenManifest at ran
  split at ran
  · obtain ⟨rfl, rfl⟩ := pure_eq_ok.mp ran
    exact ⟨⟨w.properties, rfl⟩, rfl⟩
  · obtain ⟨rfl, rfl⟩ := pure_eq_ok.mp ran
    exact ⟨⟨w.properties, rfl⟩, rfl⟩
  · exact addManifest_ok ran

theorem stagingDirectory_given {directory : String} (nonempty : directory ≠ "") :
    stagingDirectory (some directory) = pure directory := by
  unfold stagingDirectory
  split
  · contradiction
  · rename_i empty
    exact absurd (Option.some.inj empty) nonempty
  · rename_i same
    rw [Option.some.inj same]

/-- What a library is that has been begun. -/
structure BegunAs (w : LibraryWriter) (output directory : String) (target : Target)
    (unpacked : Bool) : Prop where
  output : w.output = .ofText (Text.dropTail output librarySuffix)
  target : w.target = target
  unpacked : w.unpacked = unpacked
  staging : w.staging = .ofText directory
  staged : w.ownsStaging = false

/-- A library that was begun is laid out in the directory that was given. -/
theorem BegunAs.stagedAt {output directory : String} {target : Target} {unpacked : Bool}
    (begun : w.BegunAs output (joinPaths directory "library") target unpacked) (here : Location) :
    w.StagedAt here (spot here directory) := by
  have library : IsName "library" := by decide
  obtain ⟨slashless, notSelf⟩ :=
    Path.name_clean (Path.ofText_clean (Text.dropTail output librarySuffix))
  refine ⟨?_, ?_, ?_, ?_⟩
  · rw [begun.staging]
    exact Path.ofText_clean _
  · rw [begun.staging, Path.spot_ofText, spot_joinPaths_name _ _ library]
  · rw [begun.output]
    exact slashless
  · rw [begun.output]
    exact notSelf

theorem start_ok {output name directory : String} {target : Target} {abiVersion : Int}
    {unpacked : Bool} (vacant : s.files.Vacant top) (sound : s.files.Sound)
    (nonempty : directory ≠ "") (staged : spot s.files.here directory = top ++ ["library"])
    (ran : start output name target abiVersion unpacked (some directory) s = .ok w t) :
    w.BegunAs output directory target unpacked ∧ w.nativeTargets = [] ∧ w.StagedAt s.files.here top ∧
      w.Laid t [] [] ∧ s.files.Extends (within top · = true) t.files := by
  obtain ⟨staging, b, given, starting⟩ := bind_eq_ok.mp ran
  rw [stagingDirectory_given nonempty] at given
  obtain ⟨rfl, rfl⟩ := pure_eq_ok.mp given
  obtain ⟨_, c, laying, made⟩ := bind_eq_ok.mp starting
  obtain ⟨same, rfl⟩ := pure_eq_ok.mp made
  rw [same] at laying
  obtain ⟨slashless, notSelf⟩ :=
    Path.name_clean (Path.ofText_clean (Text.dropTail output librarySuffix))
  have at' : w.StagedAt s.files.here top := by
    rw [← same]
    exact ⟨Path.ofText_clean _, (Path.spot_ofText _ _).trans staged, slashless, notSelf⟩
  obtain ⟨laid, grown⟩ := layOut_ok at' vacant sound (reporting_ok laying)
  refine ⟨?_, by rw [← same], at', laid, grown.mono fun _ => False.elim⟩
  rw [← same]
  exact ⟨rfl, rfl, rfl, rfl, rfl⟩

/-- A library that has been built holds each part that was put into it, in order. -/
theorem build_ok {output name directory : String} {target : Target} {abiVersion : Int}
    {unpacked : Bool} {parts : Parts} (vacant : s.files.Vacant top) (sound : s.files.Sound)
    (nonempty : directory ≠ "") (staged : spot s.files.here directory = top ++ ["library"])
    (natives : ∀ library ∈ parts.natives, within top (spot s.files.here library) = false)
    (included : ∀ library ∈ parts.included, within top (spot s.files.here library) = false)
    (ran : build output name target abiVersion unpacked (some directory) parts s = .ok w t) :
    w.BegunAs output directory target unpacked ∧ w.nativeTargets = parts.natives.map nameOf ∧
      w.StagedAt s.files.here top ∧ s.files.Extends (within top · = true) t.files ∧
      ∃ first second,
        parts.natives.map (fun path => s.files.file? (spot s.files.here path)) = first.map some ∧
        parts.included.map (fun path => s.files.file? (spot s.files.here path)) = second.map some ∧
        w.Laid t ((parts.natives.map nameOf).zip first) ((parts.included.map nameOf).zip second) := by
  obtain ⟨w₀, a, started, rest₀⟩ := bind_eq_ok.mp ran
  obtain ⟨begun, bare, at', laid₀, grown₀⟩ := start_ok vacant sound nonempty staged started
  obtain ⟨_, b, module, rest₁⟩ := bind_eq_ok.mp rest₀
  obtain ⟨laid₁, grown₁⟩ := writeFile_ok at' (mainBitcode_spot at'.clean)
    (by simp [nativeSteps, targetSteps]) (by simp [includedSteps, targetSteps]) grown₀ laid₀ module
  obtain ⟨_, c, data, rest₂⟩ := bind_eq_ok.mp rest₁
  obtain ⟨laid₂, grown₂⟩ := writeLinkData_ok (by decide) at' grown₁
    laid₁ data
  obtain ⟨w₁, d, adding, rest₃⟩ := bind_eq_ok.mp rest₂
  have inside (rest : Location) : within top (w₀.place s.files.here ++ rest) = true :=
    at'.within_place rest
  obtain ⟨rfl, first, sources, laid₃, grown₃⟩ := addNatives_ok at'.clean
    (fun name => by simpa using inside (w₀.nativeSteps ++ [name]))
    (fun library member => by simpa using natives library member) grown₂ laid₂ adding
  obtain ⟨_, e, adding', rest₄⟩ := bind_eq_ok.mp rest₃
  obtain ⟨second, sources', laid₄, grown₄⟩ := addAllIncluded_ok at'.clean
    (fun name => by simpa using inside (w₀.includedSteps ++ [name]))
    (fun library member => by simpa using included library member) grown₃
    ⟨laid₃.natives, laid₃.included⟩ adding'
  obtain ⟨w₂, f, reading, rest₅⟩ := bind_eq_ok.mp rest₄
  obtain ⟨⟨properties, rfl⟩, rfl⟩ := addGivenManifest_ok reading
  obtain ⟨_, g, escape, rest₆⟩ := bind_eq_ok.mp rest₅
  obtain ⟨laid₅, grown₅⟩ := writeOptional_ok (by decide)
    (at'.same rfl rfl) grown₄ ⟨laid₄.natives, laid₄.included⟩ escape
  obtain ⟨_, h, graph, rest₇⟩ := bind_eq_ok.mp rest₆
  obtain ⟨laid₆, grown₆⟩ := writeOptional_ok (by decide)
    (at'.same rfl rfl) grown₅ laid₅ graph
  obtain ⟨rfl, rfl⟩ := pure_eq_ok.mp rest₇
  rw [List.nil_append, List.nil_append] at laid₆
  exact ⟨⟨begun.output, begun.target, begun.unpacked, begun.staging, begun.staged⟩, by simp [addDepends, bare],
    at'.same rfl rfl, grown₆, first, second, sources, sources', laid₆.natives, laid₆.included⟩

end Parts

end Foundry.LibraryWriter
