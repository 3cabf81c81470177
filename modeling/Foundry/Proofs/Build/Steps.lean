import Foundry.Build.Compile
import Mathlib.Data.List.Perm.Basic

/-! The steps of a compilation, each one start of a tool, and the way of the files through them: a step
takes intermediate files away and leaves one of its own, so that in the end every file but the last one
was read exactly once. -/
namespace Foundry

/-- What a tool is started for. -/
inductive Stage where
  | link
  | optimize
  | compile
  | assemble
  | convert
  | encode
  | archive
deriving DecidableEq, Repr

/-- A start of a tool: which of the given files and which outputs of other tools it reads, and what it
writes. -/
structure Step where
  stage : Stage
  given : List String := []
  made : List String := []
  output : String
  sourceMap : Option String := none
deriving DecidableEq, Repr

namespace Step

/-- The files that are read, in the order in which the tool gets them. -/
def reads (step : Step) : List String := step.given ++ step.made

/-- The files that are written. -/
def writes (step : Step) : List String := step.output :: step.sourceMap.toList

end Step

/-- How the files of a build are compiled, all of them alike. -/
inductive Effort where
  | optimized
  | debug
  | plain
deriving DecidableEq, Repr

/-- Optimizing counts before debugging. -/
def Config.effort (config : Config) : Effort :=
  if config.optimize then .optimized else if config.debug then .debug else .plain

namespace Effort

/-- The level of optimization. -/
def level : Effort → String
  | optimized => "-O3"
  | debug => "-O0"
  | plain => "-O1"

/-- The flags for generating code. -/
def flags : Effort → FlagSet
  | optimized => .compileOptimized
  | debug => .compileDebug
  | plain => .compilePlain

end Effort

namespace Setup

variable (setup : Setup)

/-- The arguments with which the tool of a step is started. -/
def argv (step : Step) : List String :=
  let host (tool : String) (args : List String) := s!"{setup.toolchain.llvmBin}/{tool}" :: args
  let target (tool : String) (args : List String) := s!"{setup.toolchain.target}/bin/{tool}" :: args
  match step.stage with
  | .link => host "llvm-link" (step.reads ++ ["-o", step.output])
  | .optimize => host "opt" (step.reads ++ [setup.config.effort.level, "-o", step.output])
  | .compile =>
    host "llc" (step.reads ++ setup.platform.flags setup.config.effort.flags ++
      ["-filetype=obj", "-o", step.output])
  | .assemble => target "llc" (step.reads ++ ["-o", step.output])
  | .convert =>
    target "s2wasm" (step.reads ++ ["-o", step.output] ++ setup.platform.flags .assembler)
  | .encode =>
    target "wasm-as" (step.reads ++ ["-o", step.output, "-g", "-s"] ++ step.sourceMap.toList)
  | .archive => host "llvm-ar" ("rcs" :: step.output :: step.reads)

theorem optimizationLevel_eq : setup.optimizationLevel = setup.config.effort.level := by
  unfold optimizationLevel Config.effort
  split
  · rfl
  · split <;> rfl

theorem codeFlags_eq : setup.codeFlags = setup.platform.flags setup.config.effort.flags := by
  unfold codeFlags Config.effort
  split
  · rfl
  · split <;> rfl

end Setup

/-! ### Files on their way through steps -/

/-- Steps that start with these intermediate files and end with those: a step takes away what it
reads and leaves its output. -/
inductive Flow : List String → List Step → List String → Prop where
  | done (files) : Flow files [] files
  | step (step : Step) (others : List String) : before.Perm (step.made ++ others) →
      Flow (others ++ [step.output]) steps after → Flow before (step :: steps) after

namespace Flow

variable {before between after : List String} {steps first second earlier later : List Step} {step : Step}

theorem append (flow : Flow before first between) (next : Flow between second after) :
    Flow before (first ++ second) after := by
  induction flow with
  | done => exact next
  | step step others taken _ ih => exact .step step others taken (ih next)

/-- Files that no step takes stay where they are. -/
theorem frame (flow : Flow before steps after) (aside : List String) :
    Flow (aside ++ before) steps (aside ++ after) := by
  induction flow with
  | done files => exact .done _
  | @step before steps after step others taken _ ih =>
      refine .step step (aside ++ others) ?_ (by simpa using ih)
      rw [← List.append_assoc]
      exact (taken.append_left aside).trans ((List.perm_append_comm_assoc _ _ _).trans (by simp))

/-- No file is read more often than it was there, or left over otherwise. -/
theorem conserves (flow : Flow before steps after) (file : String) :
    before.count file + (steps.map (·.output)).count file =
      (steps.flatMap (·.made)).count file + after.count file := by
  induction flow with
  | done => simp
  | step step others taken _ ih =>
      rw [taken.count_eq]
      simp only [List.count_append, List.map_cons, List.flatMap_cons] at ih ⊢
      rw [← List.singleton_append, List.count_append]
      omega

theorem split (flow : Flow before (first ++ second) after) :
    ∃ between, Flow before first between ∧ Flow between second after := by
  induction first generalizing before with
  | nil => exact ⟨before, .done before, flow⟩
  | cons step rest ih =>
      cases flow with
      | step _ others taken next =>
          obtain ⟨between, front, back⟩ := ih next
          exact ⟨between, .step step others taken front, back⟩

/-- What is there was there before or was written. -/
theorem subset (flow : Flow before steps after) : ∀ file ∈ after, file ∈ before ++ steps.map (·.output) := by
  intro file member
  have balance := flow.conserves file
  have here : 0 < after.count file := List.count_pos_iff.mpr member
  rw [← List.count_pos_iff, List.count_append]
  omega

/-- A step reads outputs of the steps before it. -/
theorem reads (flow : Flow [] (earlier ++ step :: later) after) :
    ∀ file ∈ step.made, file ∈ earlier.map (·.output) := by
  intro file member
  obtain ⟨between, front, back⟩ := flow.split
  cases back with
  | step _ others taken _ =>
      have there : file ∈ between := taken.mem_iff.mpr (List.mem_append_left _ member)
      simpa using front.subset file there

/-- An output is read exactly once, and later, unless it is what is left. -/
theorem used (flow : Flow [] (earlier ++ step :: later) after)
    (distinct : ((earlier ++ step :: later).map (·.output)).Nodup) (gone : step.output ∉ after) :
    (later.flatMap (·.made)).count step.output = 1 := by
  obtain ⟨between, front, back⟩ := flow.split
  cases back with
  | step _ others taken rest =>
      rw [List.map_append, List.map_cons, List.nodup_append] at distinct
      obtain ⟨-, new, apart⟩ := distinct
      have unread : step.output ∉ others := by
        intro member
        have there := front.subset _ (taken.mem_iff.mpr (List.mem_append_right _ member))
        exact apart _ (by simpa using there) _ List.mem_cons_self rfl
      have unwritten : step.output ∉ later.map (·.output) := (List.nodup_cons.mp new).1
      -- the later steps read as often what they find as it is there, and none of it is left over
      have balance := rest.conserves step.output
      rw [List.count_append, List.count_eq_zero.mpr unread, List.count_eq_zero.mpr unwritten,
        List.count_eq_zero.mpr gone] at balance
      simpa using balance.symm

end Flow

/-! ### The steps of the pipelines -/

/-- The steps from bitcode files to one object file. -/
inductive ObjectSteps (target : Target) (files : List String) (object : String) : List Step → Prop where
  | wasm (bitcode assembly text map : String) : target = .wasm32 →
      ObjectSteps target files object [
        { stage := .link, given := files, output := bitcode },
        { stage := .assemble, made := [bitcode], output := assembly },
        { stage := .convert, made := [assembly], output := text },
        { stage := .encode, made := [text], output := object, sourceMap := some map }]
  | single (file optimized : String) : target ≠ .wasm32 → files = [file] →
      ObjectSteps target files object [
        { stage := .optimize, given := [file], output := optimized },
        { stage := .compile, made := [optimized], output := object }]
  | linked (bitcode optimized : String) : target ≠ .wasm32 → files.length ≠ 1 →
      ObjectSteps target files object [
        { stage := .link, given := files, output := bitcode },
        { stage := .optimize, made := [bitcode], output := optimized },
        { stage := .compile, made := [optimized], output := object }]

/-- A bitcode file that is compiled by itself. -/
structure Compiled where
  file : String
  optimized : String
  object : String

/-- The steps of a file that is compiled by itself. -/
def Compiled.steps (c : Compiled) : List Step := [
  { stage := .optimize, given := [c.file], output := c.optimized },
  { stage := .compile, made := [c.optimized], output := c.object }]

/-- The steps from bitcode files to an archive: to one object on WebAssembly, and elsewhere to one for
each file; the archive holds the objects in the order of the files. -/
inductive LibrarySteps (target : Target) (files : List String) (library : String) : List Step → Prop where
  | wasm (object : String) (steps : List Step) : target = .wasm32 →
      ObjectSteps target files object steps →
      LibrarySteps target files library
        (steps ++ [{ stage := .archive, made := [object], output := library }])
  | native (compiled : List Compiled) : target ≠ .wasm32 → compiled.map (·.file) = files →
      LibrarySteps target files library
        (compiled.flatMap Compiled.steps ++
          [{ stage := .archive, made := compiled.map (·.object), output := library }])

section Pipelines

variable {target : Target} {files : List String} {object library : String} {steps : List Step}

/-- A step that takes the one file there is. -/
theorem Flow.single {step : Step} (taken : step.made = [file])
    (next : Flow [step.output] steps after) : Flow [file] (step :: steps) after :=
  .step step [] (by simp [taken]) next

/-- A step that reads given files alone. -/
theorem Flow.first {step : Step} (untaken : step.made = []) (next : Flow [step.output] steps after) :
    Flow [] (step :: steps) after :=
  .step step [] (by simp [untaken]) next

theorem ObjectSteps.flow (shape : ObjectSteps target files object steps) : Flow [] steps [object] := by
  cases shape with
  | wasm => exact .first rfl (.single rfl (.single rfl (.single rfl (.done _))))
  | single => exact .first rfl (.single rfl (.done _))
  | linked => exact .first rfl (.single rfl (.single rfl (.done _)))

theorem ObjectSteps.given (shape : ObjectSteps target files object steps) :
    steps.flatMap (·.given) = files := by
  cases shape <;> simp_all

/-- By induction on the files: what was compiled waits while the others are compiled. -/
theorem Compiled.flow (compiled : List Compiled) :
    Flow [] (compiled.flatMap Compiled.steps) (compiled.map (·.object)) := by
  induction compiled with
  | nil => exact .done _
  | cons c rest ih =>
      have own : Flow [] c.steps [c.object] := .first rfl (.single rfl (.done _))
      exact own.append (ih.frame [c.object])

theorem LibrarySteps.flow (shape : LibrarySteps target files library steps) :
    Flow [] steps [library] := by
  cases shape with
  | wasm object steps _ shape => exact shape.flow.append (.single rfl (.done _))
  | native compiled => exact (Compiled.flow compiled).append (.step _ [] (by simp) (.done _))

theorem LibrarySteps.given (shape : LibrarySteps target files library steps) :
    steps.flatMap (·.given) = files := by
  cases shape with
  | wasm object steps _ shape => simpa using shape.given
  | native compiled _ same =>
      have own : compiled.flatMap (fun c => c.steps.flatMap (·.given)) = compiled.map (·.file) :=
        List.map_eq_flatMap.symm
      simp [← same, List.flatMap_assoc, own]

end Pipelines

end Foundry
