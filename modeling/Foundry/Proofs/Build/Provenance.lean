import Foundry.Proofs.Build.Archives
import Foundry.Proofs.Build.Steps
import Foundry.Proofs.Build.Workspace

/-! Where the files of a compilation come from: the processes that a successful compilation started are
the steps of its pipeline, and their outputs are fresh files of the run directory. -/
namespace Foundry

open FileSystem Run

namespace Session

/-- The path lies directly in the run directory. -/
def InRun (s : Session) (path : String) : Prop :=
  ∃ directory name, s.runDirectory = some directory ∧
    spot s.files.here path = spot s.files.here directory ++ [name]

theorem inRun_kept {s t : Session} (here : t.files.here = s.files.here)
    (kept : ∀ directory, s.runDirectory = some directory → t.runDirectory = some directory)
    (inside : s.InRun path) : t.InRun path := by
  obtain ⟨directory, name, opened, place⟩ := inside
  exact ⟨directory, name, kept directory opened, by rw [here, place]⟩

/-- Work between two sessions: processes with these arguments were started, and these files were made
in the run directory, in places where nothing was. -/
structure Works (s t : Session) (argvs : List (List String)) (paths : List String) : Prop where
  started : t.started.map (·.argv) = s.started.map (·.argv) ++ argvs
  grown : s.files.Extends (fun _ => True) t.files
  kept : ∀ directory, s.runDirectory = some directory → t.runDirectory = some directory
  distinct : paths.Nodup
  new : ∀ path ∈ paths, s.files.entry? (spot s.files.here path) = none
  standing : ∀ path ∈ paths, (t.files.entry? (spot s.files.here path)).isSome = true
  inside : ∀ path ∈ paths, t.InRun path

namespace Works

variable {s t u : Session}

theorem refl (s : Session) : Works s s [] [] :=
  ⟨by simp, .refl _, fun _ => id, .nil, by simp, by simp, by simp⟩

/-- What is made later was not there when the first files stood already. -/
theorem trans (first : Works s t argvs paths) (second : Works t u argvs' paths') :
    Works s u (argvs ++ argvs') (paths ++ paths') where
  started := by rw [second.started, first.started, List.append_assoc]
  grown := first.grown.trans second.grown
  kept directory opened := second.kept directory (first.kept directory opened)
  distinct := by
    refine List.nodup_append.mpr ⟨first.distinct, second.distinct, ?_⟩
    rintro path inFirst _ inSecond rfl
    have stands := first.standing path inFirst
    have free := second.new path inSecond
    rw [first.grown.here] at free
    simp [free] at stands
  new path member := by
    rcases List.mem_append.mp member with member | member
    · exact first.new path member
    · exact first.grown.free (first.grown.here ▸ second.new path member)
  standing path member := by
    rcases List.mem_append.mp member with member | member
    · exact second.grown.isSome (first.standing path member)
    · exact first.grown.here ▸ second.standing path member
  inside path member := by
    rcases List.mem_append.mp member with member | member
    · exact inRun_kept second.grown.here second.kept (first.inside path member)
    · exact second.inside path member

/-- The same work, with nothing said of the files that were made. -/
theorem starts (works : Works s t argvs paths) : Works s t argvs [] :=
  ⟨works.started, works.grown, works.kept, .nil, by simp, by simp, by simp⟩

end Works

end Session

namespace RunDirectory

variable {s t : Session}

theorem path_works (ran : path stem s = .ok directory t) :
    s.Works t [] [] ∧ t.runDirectory = some directory := by
  refine ⟨?_, path_current ran⟩
  cases opened : s.runDirectory with
  | some other =>
      obtain ⟨rfl, rfl⟩ := path_ok opened ran
      exact .refl t
  | none =>
      obtain ⟨number, fs, draws, -, -, done, rfl⟩ := path_new opened ran
      exact ⟨by simp, makeDirectory_extends done, by simp [opened], .nil, by simp, by simp, by simp⟩

end RunDirectory

namespace Setup

open Session

variable {setup : Setup} {s t : Session}

/-- A fresh file has the name that was asked for, around a number. -/
theorem fresh_works (sound : s.files.Sound) (cleanName : '/' ∉ name.toList)
    (cleanSuffix : '/' ∉ suffix.toList) (ran : fresh name suffix s = .ok path t) :
    s.Works t [] [path] ∧ ∃ number : Nat, Text.baseName path = name ++ toString number ++ suffix := by
  obtain ⟨directory, u, opening, making⟩ := bind_eq_ok.mp ran
  obtain ⟨opened, runDirectory⟩ := RunDirectory.path_works opening
  have proper := (opened.grown.sound sound).here
  obtain ⟨number, fs, draws, base, -, place, free, written, grown, rfl⟩ :=
    Files.makeTemporaryFile_drawn proper cleanName cleanSuffix making
  have below : spot u.files.here path ≠ [] := by simp [place]
  have made : u.Works { u with files := fs, draws := draws } [] [path] := by
    refine ⟨by simp, grown.mono fun _ _ => trivial, fun _ => id, by simp, ?_, ?_, ?_⟩
    · simpa using free
    · simp [written, entry?_put_self _ below]
    · intro other member
      obtain rfl := List.mem_singleton.mp member
      exact ⟨directory, _, runDirectory, grown.here.symm ▸ place⟩
  exact ⟨opened.trans made, number, base⟩

theorem runTool_works {executor : Executor} {command : Command}
    (ran : executor.runTool command s = .ok u t) : s.Works t [command.argv] [] := by
  obtain ⟨stderr, product, piped, -, files, -, started, kept⟩ := Executor.runTool_succeeded ran
  refine ⟨by simp [started], ?_, fun _ => kept ▸ id, .nil, by simp, by simp, by simp⟩
  rw [files]
  exact writeEach_extends (fun _ _ => trivial) product

/-- The steps were taken between the sessions. All that they wrote is fresh, and none of it is named
like an archive. -/
structure Takes (setup : Setup) (s t : Session) (steps : List Step) : Prop where
  works : s.Works t (steps.map setup.argv) (steps.flatMap Step.writes)
  unarchived : ∀ path ∈ steps.flatMap Step.writes, Text.endsWith path ".a" = false

namespace Takes

theorem refl (s : Session) : setup.Takes s s [] := ⟨.refl s, by simp⟩

theorem trans (first : setup.Takes s t steps) (second : setup.Takes t u steps') :
    setup.Takes s u (steps ++ steps') where
  works := by
    rw [List.map_append, List.flatMap_append]
    exact first.works.trans second.works
  unarchived path member := by
    rw [List.flatMap_append, List.mem_append] at member
    exact member.elim (first.unarchived path) (second.unarchived path)

theorem sound (taken : setup.Takes s t steps) (sound : s.files.Sound) : t.files.Sound :=
  taken.works.grown.sound sound

end Takes

theorem endsWith_archive {name digits suffix : String} (base : Text.baseName path = name ++ digits ++ suffix)
    (other : suffix.toList.getLast?.any (· ≠ 'a') = true) : Text.endsWith path ".a" = false := by
  rw [Bool.eq_false_iff]
  intro archive
  obtain ⟨front, rfl⟩ := Text.endsWith_iff.mp archive
  rw [Text.baseName_append_tail front (by decide), ← String.toList_inj] at base
  have last := congrArg List.getLast? base
  cases tail : suffix.toList.getLast? with
  | none => simp [tail] at other
  | some c =>
      simp [List.getLast?_append, tail] at last other
      exact other last.symm

/-- A tool that is told to write a fresh file. -/
theorem tool_takes {executor : Executor} {command : Command} {step : Step} (sound : s.files.Sound)
    (made : fresh name suffix s = .ok step.output t) (single : step.sourceMap = none)
    (ran : executor.runTool command t = .ok x u) (same : command.argv = setup.argv step)
    (cleanName : '/' ∉ name.toList) (cleanSuffix : '/' ∉ suffix.toList)
    (other : suffix.toList.getLast?.any (· ≠ 'a') = true) : setup.Takes s u [step] := by
  obtain ⟨first, number, base⟩ := fresh_works sound cleanName cleanSuffix made
  have works := first.trans (runTool_works ran)
  rw [same] at works
  refine ⟨by simpa [Step.writes, single] using works, ?_⟩
  simpa [Step.writes, single] using endsWith_archive base other

theorem linkBitcode_takes {files : List String} (sound : s.files.Sound)
    (ran : setup.linkBitcode files s = .ok path t) :
    setup.Takes s t [{ stage := .link, given := files, output := path }] := by
  obtain ⟨linked, u, made, rest⟩ := bind_eq_ok.mp ran
  obtain ⟨_, v, linking, returned⟩ := bind_eq_ok.mp rest
  obtain ⟨rfl, rfl⟩ := pure_eq_ok.mp returned
  exact tool_takes sound made rfl linking (by simp [argv, Command.argv, Step.reads]) (by decide)
    (by decide) (by decide)

/-- Whether the file was given or made does not matter to the optimizer. -/
theorem optimizeBitcode_takes {given made : List String} (sound : s.files.Sound)
    (single : given ++ made = [file]) (ran : setup.optimizeBitcode file s = .ok path t) :
    setup.Takes s t [{ stage := .optimize, given := given, made := made, output := path }] := by
  obtain ⟨optimized, u, fresh, rest⟩ := bind_eq_ok.mp ran
  obtain ⟨_, v, optimizing, returned⟩ := bind_eq_ok.mp rest
  obtain ⟨rfl, rfl⟩ := pure_eq_ok.mp returned
  refine tool_takes sound fresh rfl optimizing ?_ (by decide) (by decide) (by decide)
  simp [argv, Command.argv, Step.reads, single, optimizationLevel_eq]

theorem compileBitcode_takes (sound : s.files.Sound) (ran : setup.compileBitcode file s = .ok path t) :
    setup.Takes s t [{ stage := .compile, made := [file], output := path }] := by
  obtain ⟨compiled, u, fresh, rest⟩ := bind_eq_ok.mp ran
  obtain ⟨_, v, compiling, returned⟩ := bind_eq_ok.mp rest
  obtain ⟨rfl, rfl⟩ := pure_eq_ok.mp returned
  refine tool_takes sound fresh rfl compiling ?_ (by decide) (by decide) (by decide)
  simp [argv, Command.argv, Step.reads, codeFlags_eq]

theorem objectOf_takes {given made : List String} (sound : s.files.Sound)
    (single : given ++ made = [file]) (ran : setup.objectOf file s = .ok object t) :
    ∃ optimized, setup.Takes s t [
      { stage := .optimize, given := given, made := made, output := optimized },
      { stage := .compile, made := [optimized], output := object }] := by
  obtain ⟨optimized, u, optimizing, compiling⟩ := bind_eq_ok.mp ran
  have first := optimizeBitcode_takes sound single optimizing
  exact ⟨optimized, first.trans (compileBitcode_takes (first.sound sound) compiling)⟩

theorem wasmOf_takes {files : List String} (sound : s.files.Sound)
    (ran : setup.wasmOf files s = .ok object t) :
    ∃ bitcode assembly text map, setup.Takes s t [
      { stage := .link, given := files, output := bitcode },
      { stage := .assemble, made := [bitcode], output := assembly },
      { stage := .convert, made := [assembly], output := text },
      { stage := .encode, made := [text], output := object, sourceMap := some map }] := by
  obtain ⟨bitcode, a, made, rest⟩ := bind_eq_ok.mp ran
  obtain ⟨_, b, linking, rest⟩ := bind_eq_ok.mp rest
  have linked : setup.Takes s b [{ stage := .link, given := files, output := bitcode }] :=
    tool_takes sound made rfl linking (by simp [argv, Command.argv, Step.reads]) (by decide) (by decide)
      (by decide)
  obtain ⟨assembly, c, made, rest⟩ := bind_eq_ok.mp rest
  obtain ⟨_, d, assembling, rest⟩ := bind_eq_ok.mp rest
  have assembled : setup.Takes b d [{ stage := .assemble, made := [bitcode], output := assembly }] :=
    tool_takes (linked.sound sound) made rfl assembling (by simp [argv, Command.argv, Step.reads])
      (by decide) (by decide) (by decide)
  have first := linked.trans assembled
  obtain ⟨text, e, made, rest⟩ := bind_eq_ok.mp rest
  obtain ⟨_, f, converting, rest⟩ := bind_eq_ok.mp rest
  have converted : setup.Takes d f [{ stage := .convert, made := [assembly], output := text }] :=
    tool_takes (first.sound sound) made rfl converting (by simp [argv, Command.argv, Step.reads])
      (by decide) (by decide) (by decide)
  have second := first.trans converted
  obtain ⟨wasm, g, made, rest⟩ := bind_eq_ok.mp rest
  obtain ⟨map, h, mapped, rest⟩ := bind_eq_ok.mp rest
  obtain ⟨_, i, encoding, returned⟩ := bind_eq_ok.mp rest
  obtain ⟨rfl, rfl⟩ := pure_eq_ok.mp returned
  obtain ⟨wasmWorks, _, wasmBase⟩ := fresh_works (second.sound sound) (by decide) (by decide) made
  obtain ⟨mapWorks, _, mapBase⟩ := fresh_works (wasmWorks.grown.sound (second.sound sound)) (by decide)
    (by decide) mapped
  have encoded : setup.Takes f i [
      { stage := .encode, made := [text], output := wasm, sourceMap := some map }] := by
    refine ⟨(wasmWorks.trans mapWorks).trans (runTool_works encoding), ?_⟩
    simp only [List.flatMap_cons, List.flatMap_nil, List.append_nil, Step.writes, Option.toList,
      List.forall_mem_cons]
    exact ⟨endsWith_archive wasmBase (by decide), endsWith_archive mapBase (by decide), by simp⟩
  exact ⟨bitcode, assembly, text, map, second.trans encoded⟩

/-- By induction on the files, each of which is compiled after those before it. -/
theorem objectsOf_takes {files objects : List String} (sound : s.files.Sound)
    (ran : setup.objectsOf files s = .ok objects t) :
    ∃ compiled : List Compiled, compiled.map (·.file) = files ∧ compiled.map (·.object) = objects ∧
      setup.Takes s t (compiled.flatMap Compiled.steps) := by
  induction files generalizing s objects with
  | nil =>
      obtain ⟨rfl, rfl⟩ := pure_eq_ok.mp ran
      exact ⟨[], rfl, rfl, .refl s⟩
  | cons file rest ih =>
      obtain ⟨object, u, first, others⟩ := bind_eq_ok.mp ran
      obtain ⟨optimized, taken⟩ := objectOf_takes sound (List.append_nil [file]) first
      obtain ⟨objects, v, later, returned⟩ := bind_eq_ok.mp others
      obtain ⟨rfl, rfl⟩ := pure_eq_ok.mp returned
      obtain ⟨compiled, rfl, rfl, further⟩ := ih (taken.sound sound) later
      exact ⟨⟨file, optimized, object⟩ :: compiled, rfl, rfl, taken.trans further⟩

theorem objectFiles_takes {files objects : List String} (sound : s.files.Sound)
    (ran : setup.objectFiles files s = .ok objects t) :
    ∃ object steps, objects = [object] ∧ ObjectSteps setup.config.target files object steps ∧
      setup.Takes s t steps := by
  have unlinked (ran : (do return [← setup.objectOf (← setup.linkBitcode files)]) s = .ok objects t)
      (native : setup.config.target ≠ .wasm32) (several : files.length ≠ 1) :
      ∃ object steps, objects = [object] ∧ ObjectSteps setup.config.target files object steps ∧
        setup.Takes s t steps := by
    obtain ⟨bitcode, u, linking, rest⟩ := bind_eq_ok.mp ran
    obtain ⟨object, v, compiling, returned⟩ := bind_eq_ok.mp rest
    obtain ⟨rfl, rfl⟩ := pure_eq_ok.mp returned
    have linked := linkBitcode_takes sound linking
    obtain ⟨optimized, taken⟩ := objectOf_takes (linked.sound sound) (List.nil_append [bitcode]) compiling
    exact ⟨object, _, rfl, .linked bitcode optimized native several, linked.trans taken⟩
  unfold objectFiles at ran
  split at ran
  · rename_i wasm
    obtain ⟨object, u, made, returned⟩ := bind_eq_ok.mp ran
    obtain ⟨rfl, rfl⟩ := pure_eq_ok.mp returned
    obtain ⟨bitcode, assembly, text, map, taken⟩ := wasmOf_takes sound made
    exact ⟨object, _, rfl, .wasm bitcode assembly text map wasm, taken⟩
  · rename_i native
    match files with
    | [file] =>
        obtain ⟨object, u, made, returned⟩ := bind_eq_ok.mp ran
        obtain ⟨rfl, rfl⟩ := pure_eq_ok.mp returned
        obtain ⟨optimized, taken⟩ := objectOf_takes sound (List.append_nil [file]) made
        exact ⟨object, _, rfl, .single file optimized native rfl, taken⟩
    | [] => exact unlinked ran native (by simp)
    | first :: second :: rest => exact unlinked ran native (by simp)

theorem isName_archive {name : String} (suffixed : Text.endsWith name ".a" = true)
    (clean : '/' ∉ name.toList) : IsName name := by
  obtain ⟨front, rfl⟩ := Text.endsWith_iff.mp suffixed
  have inside : 'a' ∈ (front ++ ".a").toList := by simp
  exact .of_mem inside (by decide) clean

/-- The path of an archive is new among the files of the run directory, and lies there. -/
theorem archivePath_places {name : Option String} (sound : s.files.Sound)
    (archive : ∀ given, name = some given → given ≠ "" →
      Text.endsWith given ".a" = true ∧ '/' ∉ given.toList)
    (taken : setup.Takes s t steps) (ran : archivePath name t = .ok path u) :
    t.Works u [] [] ∧ (steps.flatMap Step.writes ++ [path]).Nodup ∧ u.InRun path := by
  have drawn (made : fresh "lib" ".a" t = .ok path u) :
      t.Works u [] [] ∧ (steps.flatMap Step.writes ++ [path]).Nodup ∧ u.InRun path := by
    obtain ⟨works, -⟩ := fresh_works (taken.sound sound) (by decide) (by decide) made
    exact ⟨works.starts, (taken.works.trans works).distinct, works.inside path (by simp)⟩
  unfold archivePath at ran
  split at ran
  · exact drawn ran
  · exact drawn ran
  · rename_i given nonempty
    obtain ⟨directory, v, opening, returned⟩ := bind_eq_ok.mp ran
    obtain ⟨rfl, rfl⟩ := pure_eq_ok.mp returned
    obtain ⟨works, opened⟩ := RunDirectory.path_works opening
    obtain ⟨suffixed, clean⟩ := archive given rfl nonempty
    refine ⟨works, ?_, directory, _, opened, spot_joinPaths_name _ _ (isName_archive suffixed clean)⟩
    refine List.nodup_append.mpr ⟨taken.works.distinct, by simp, ?_⟩
    rintro other member _ inside rfl
    have unarchived := taken.unarchived other member
    rw [List.mem_singleton.mp inside, endsWith_joinPaths suffixed] at unarchived
    contradiction

/-- What the processes of a compilation have to do with one another: they are these steps, each of which
reads given files or outputs of the steps before it. Each given file is read once, in order, and so is,
by a later step, each output but the last one, which is returned. All files that are written are
different and lie in the run directory. -/
structure Provenance (setup : Setup) (files : List String) (s t : Session) (steps : List Step)
    (returned : String) : Prop where
  started : t.started.map (·.argv) = s.started.map (·.argv) ++ steps.map setup.argv
  reads : ∀ earlier step later, steps = earlier ++ step :: later →
    ∀ file ∈ step.made, file ∈ earlier.map (·.output)
  given : steps.flatMap (·.given) = files
  used : ∀ earlier step later, steps = earlier ++ step :: later → later ≠ [] →
    (later.flatMap (·.made)).count step.output = 1
  distinct : (steps.flatMap Step.writes).Nodup
  inside : ∀ path ∈ steps.flatMap Step.writes, t.InRun path
  last : (steps.map (·.output)).getLast? = some returned

theorem outputs_sublist (steps : List Step) :
    (steps.map (·.output)).Sublist (steps.flatMap Step.writes) := by
  induction steps with
  | nil => exact .slnil
  | cons step rest ih =>
      rw [List.map_cons, List.flatMap_cons, Step.writes, List.cons_append]
      exact (ih.trans (List.sublist_append_right _ _)).cons_cons _

/-- A flow of files through steps that all write files of their own accounts for each of them. -/
theorem provenance_of_flow {files : List String} {steps : List Step} (flow : Flow [] steps [returned])
    (given : steps.flatMap (·.given) = files) (last : (steps.map (·.output)).getLast? = some returned)
    (started : t.started.map (·.argv) = s.started.map (·.argv) ++ steps.map setup.argv)
    (distinct : (steps.flatMap Step.writes).Nodup)
    (inside : ∀ path ∈ steps.flatMap Step.writes, t.InRun path) :
    setup.Provenance files s t steps returned where
  started := started
  reads := by
    rintro earlier step later rfl
    exact flow.reads
  given := given
  used := by
    rintro earlier step later rfl more
    have apart := (outputs_sublist _).nodup distinct
    -- the output that is left is the last one, and all outputs differ
    refine flow.used apart fun single => ?_
    rw [List.map_append, List.map_cons] at apart last
    have final : (later.map (·.output)).getLast? = some returned := by
      obtain ⟨next, rest, rfl⟩ := List.exists_cons_of_ne_nil more
      simpa [List.getLast?_append, List.getLast?_cons_cons] using last
    have once := (List.nodup_cons.mp (List.nodup_append.mp apart).2.1).1
    exact once (List.mem_singleton.mp single ▸ List.mem_of_getLast? final)
  distinct := distinct
  inside := inside
  last := last

theorem archivedObjects_takes {files objects : List String} (sound : s.files.Sound)
    (ran : setup.archivedObjects files s = .ok objects t) (library : String) :
    ∃ steps, setup.Takes s t steps ∧ LibrarySteps setup.config.target files library
      (steps ++ [{ stage := .archive, made := objects, output := library }]) := by
  unfold archivedObjects at ran
  split at ran
  · rename_i wasm
    obtain ⟨object, u, made, returned⟩ := bind_eq_ok.mp ran
    obtain ⟨rfl, rfl⟩ := pure_eq_ok.mp returned
    obtain ⟨bitcode, assembly, text, map, taken⟩ := wasmOf_takes sound made
    exact ⟨_, taken, .wasm object _ wasm (.wasm bitcode assembly text map wasm)⟩
  · rename_i native
    obtain ⟨compiled, rfl, rfl, taken⟩ := objectsOf_takes sound ran
    exact ⟨_, taken, .native compiled native rfl⟩

/-- Compiling to objects or to an archive takes the steps of its pipeline, in which every file is
accounted for. -/
theorem compiling_provenance (setup : Setup) (files : List String) (sound : s.files.Sound) :
    (∀ objects t, setup.objectFiles files s = .ok objects t →
      ∃ object steps, objects = [object] ∧ ObjectSteps setup.config.target files object steps ∧
        setup.Provenance files s t steps object) ∧
    (∀ name library t, (∀ given, name = some given → given ≠ "" →
        Text.endsWith given ".a" = true ∧ '/' ∉ given.toList) →
      setup.staticLibrary files name s = .ok library t →
      ∃ steps, LibrarySteps setup.config.target files library steps ∧
        setup.Provenance files s t steps library) := by
  constructor
  · intro objects t ran
    obtain ⟨object, steps, rfl, shape, taken⟩ := objectFiles_takes sound ran
    exact ⟨object, steps, rfl, shape, provenance_of_flow shape.flow shape.given
      (by cases shape <;> rfl) taken.works.started taken.works.distinct taken.works.inside⟩
  · intro name library t archive ran
    obtain ⟨objects, u, compiling, archiving⟩ := bind_eq_ok.mp ran
    obtain ⟨path, v, placing, rest⟩ := bind_eq_ok.mp archiving
    obtain ⟨_, w, running, returned⟩ := bind_eq_ok.mp rest
    obtain ⟨rfl, rfl⟩ := pure_eq_ok.mp returned
    obtain ⟨steps, taken, shape⟩ := archivedObjects_takes sound compiling path
    obtain ⟨placed, distinct, inside⟩ := archivePath_places sound archive taken placing
    have archived := placed.trans (runTool_works running)
    refine ⟨_, shape, provenance_of_flow shape.flow shape.given (by simp) ?_ ?_ ?_⟩
    · rw [archived.started, taken.works.started]
      simp [argv, Command.argv, Step.reads]
    · simpa [Step.writes] using distinct
    · intro file member
      rw [List.flatMap_append, List.mem_append] at member
      rcases member with member | member
      · exact inRun_kept archived.grown.here archived.kept (taken.works.inside file member)
      · obtain rfl : file = path := by simpa [Step.writes] using member
        have kept := runTool_works running
        exact inRun_kept kept.grown.here kept.kept inside

/-- A program for Linux that is built for debugging. -/
def forDebuggers : Setup := { withArchives with config := { withArchives.config with debug := true } }

/-- Two files go into an archive one by one, and into an object together. -/
theorem provenance_of_two : (∃ library t steps,
      forDebuggers.staticLibrary ["a.bc", "b.bc"] (some "libz.a") Session.blank = .ok library t ∧
      steps.map (·.stage) = [.optimize, .compile, .optimize, .compile, .archive] ∧
      forDebuggers.Provenance ["a.bc", "b.bc"] Session.blank t steps library) ∧
    ∃ object t steps, forDebuggers.objectFiles ["a.bc", "b.bc"] Session.blank = .ok [object] t ∧
      steps.map (·.stage) = [.link, .optimize, .compile] ∧
      forDebuggers.Provenance ["a.bc", "b.bc"] Session.blank t steps object := by
  have sound : Session.blank.files.Sound := Sound.of_entries (by decide) (by decide)
  obtain ⟨toObjects, toLibrary⟩ := compiling_provenance forDebuggers ["a.bc", "b.bc"] sound
  constructor
  · have archived : ((forDebuggers.staticLibrary ["a.bc", "b.bc"] (some "libz.a")).outcome?
        (fun _ => ()) Session.blank).isSome = true := by
      decide +kernel
    obtain ⟨⟨library, _⟩, ran⟩ := Option.isSome_iff_exists.mp archived
    obtain ⟨t, ran, -⟩ := outcome?_eq_some.mp ran
    obtain ⟨steps, shape, provenance⟩ := toLibrary (some "libz.a") library t
      (fun given same _ => Option.some.inj same ▸ by decide) ran
    refine ⟨library, t, steps, ran, ?_, provenance⟩
    cases shape with
    | wasm object steps wasm => cases wasm
    | native compiled _ same =>
        obtain ⟨first, rest, rfl, -, same⟩ := List.map_eq_cons_iff.mp same
        obtain ⟨second, rest, rfl, -, same⟩ := List.map_eq_cons_iff.mp same
        obtain rfl := List.map_eq_nil_iff.mp same
        rfl
  · have compiled : ((forDebuggers.objectFiles ["a.bc", "b.bc"]).outcome?
        (fun _ => ()) Session.blank).isSome = true := by
      decide +kernel
    obtain ⟨⟨objects, _⟩, ran⟩ := Option.isSome_iff_exists.mp compiled
    obtain ⟨t, ran, -⟩ := outcome?_eq_some.mp ran
    obtain ⟨object, steps, rfl, shape, provenance⟩ := toObjects objects t ran
    refine ⟨object, t, steps, ran, ?_, provenance⟩
    cases shape with
    | wasm _ _ _ _ wasm => cases wasm
    | single file _ _ same => simp at same
    | linked => rfl

end Setup

end Foundry
