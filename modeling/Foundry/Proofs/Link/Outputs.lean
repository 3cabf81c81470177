import Foundry.Build.Job
import Foundry.Proofs.Link.LateProperties
import Foundry.Proofs.Process.Archiver

/-! Which files the tools of a link are told to write. As long as no setting is the flag that names an
output, the linker writes the artifact that the build names and no other file. -/
namespace Foundry

/-- No setting of the target is the flag that names an output. -/
structure TargetProperties.FlagFree (p : TargetProperties) : Prop where
  text : ∀ name text, p.text name = .ok text → text ≠ "-o"
  list : ∀ name items, p.list name = .ok items → "-o" ∉ items
  libLto : p.distribution.libLto ≠ "-o"

/-- The command tells its tool to write this file, and nothing else. -/
structure Command.Writes (command : Command) (output : String) : Prop where
  other : Text.baseName command.tool ≠ "llvm-ar"
  notFlag : command.tool ≠ "-o"
  args : ∃ before rest, "-o" ∉ before ∧ command.args = before ++ "-o" :: output :: rest

namespace Command

theorem Writes.outputs {command : Command} (writes : command.Writes output) :
    Toolset.outputs command.argv = [output] := by
  obtain ⟨before, rest, absent, args⟩ := writes.args
  rw [argv, args, Toolset.outputs_of_named absent writes.other writes.notFlag]

/-- More arguments behind those that name the output do not matter. -/
theorem Writes.withFlags {command : Command} (writes : command.Writes output) (flags : List String) :
    (command.withFlags flags).Writes output := by
  obtain ⟨before, rest, absent, args⟩ := writes.args
  refine ⟨writes.other, writes.notFlag, before, rest ++ flags, absent, ?_⟩
  simp [Command.withFlags, args]

theorem Writes.withLibraries {command : Command} (writes : command.Writes output)
    (libs : List String) : (command.withLibraries libs).Writes output :=
  ⟨writes.other, writes.notFlag, writes.args⟩

/-- A tool that is in a directory, and is not the archiver. -/
theorem writes_of_tool (directory tool : String) {path : String} (before : List String)
    {rest : List String}
    (inDirectory : path = directory ++ "/" ++ tool) (clean : '/' ∉ tool.toList)
    (other : tool ≠ "llvm-ar") (absent : "-o" ∉ before) (libs : List String) :
    Command.Writes ⟨path, before ++ "-o" :: output :: rest, libs⟩ output := by
  refine ⟨?_, ?_, before, rest, absent, rfl⟩
  · rw [inDirectory, Text.baseName_append directory clean]
    exact other
  · rintro rfl
    have slash : '/' ∈ (directory ++ "/" ++ tool).toList := by simp
    rw [← inDirectory] at slash
    contradiction

end Command

namespace TargetProperties

variable {p : TargetProperties}

/-- The directory of the system files is a path with slashes, or is set to an absolute one. -/
theorem sysroot_notFlag (free : p.FlagFree) (read : p.sysroot = .ok root) : root ≠ "-o" := by
  unfold sysroot at read
  cases given : p.text "target_sysroot" with
  | error e =>
      rw [given] at read
      nomatch read
  | ok text =>
      rw [given] at read
      obtain rfl := Except.ok.inj read
      unfold Distribution.absolute
      split
      · exact free.text _ _ given
      · intro same
        have slash : '/' ∈ s!"{p.distribution.dependenciesDir}/{text}".toList := by simp [toString]
        rw [same] at slash
        contradiction

/-- It is enough that no value in the table reads as the flag. -/
theorem flagFree_of_values (tabled : p.table = .table entries)
    (values : ∀ entry ∈ entries, textOf entry.2 ≠ "-o" ∧ "-o" ∉ listOf entry.2)
    (libLto : p.distribution.libLto ≠ "-o") : p.FlagFree := by
  have given (name : String) : p.value? name = .ok (Table.get? entries name) := by
    simp only [value?, tabled]
  have set {name : String} {value : Value} (found : Table.get? entries name = some value) :
      textOf value ≠ "-o" ∧ "-o" ∉ listOf value := by
    obtain ⟨front, back, whole, -⟩ := List.lookup_eq_some_iff.mp found
    exact values (name, value) (by simp [whole])
  refine ⟨fun name text read => ?_, fun name items read => ?_, libLto⟩
  · simp only [TargetProperties.text, given, bind, Except.bind] at read
    split at read
    · contradiction
    · contradiction
    · rename_i value _ found
      exact Except.ok.inj read ▸ (set found).1
  · simp only [TargetProperties.list, given, bind, Except.bind] at read
    split at read
    · rw [← Except.ok.inj read]
      simp
    · rw [← Except.ok.inj read]
      simp
    · rename_i value _ found
      exact Except.ok.inj read ▸ (set found).2

end TargetProperties

namespace Platform

variable {p : Platform} {properties : TargetProperties}

/-- The flags and the directory of a platform are those of its properties. -/
theorem ofProperties_reads (made : ofProperties properties = .ok p) :
    (∀ set, properties.flags set = .ok (p.flags set)) ∧ properties.sysroot = .ok p.sysroot := by
  obtain ⟨plain, plainRead, made⟩ := except_bind_eq_ok.mp made
  obtain ⟨optimized, optimizedRead, made⟩ := except_bind_eq_ok.mp made
  obtain ⟨selector, selectorRead, made⟩ := except_bind_eq_ok.mp made
  obtain ⟨linkOptimized, linkOptimizedRead, made⟩ := except_bind_eq_ok.mp made
  obtain ⟨linkAlways, linkAlwaysRead, made⟩ := except_bind_eq_ok.mp made
  obtain ⟨linkNoDebug, linkNoDebugRead, made⟩ := except_bind_eq_ok.mp made
  obtain ⟨linkDynamic, linkDynamicRead, made⟩ := except_bind_eq_ok.mp made
  obtain ⟨debug, debugRead, made⟩ := except_bind_eq_ok.mp made
  obtain ⟨assembler, assemblerRead, made⟩ := except_bind_eq_ok.mp made
  obtain ⟨clang, clangRead, made⟩ := except_bind_eq_ok.mp made
  obtain ⟨toolchain, -, made⟩ := except_bind_eq_ok.mp made
  obtain ⟨sysroot, sysrootRead, made⟩ := except_bind_eq_ok.mp made
  obtain ⟨libffi, -, made⟩ := except_bind_eq_ok.mp made
  obtain ⟨recipe, -, made⟩ := except_bind_eq_ok.mp made
  cases made
  refine ⟨fun set => ?_, sysrootRead⟩
  cases set <;> assumption

theorem flags_free (made : ofProperties properties = .ok p) (free : properties.FlagFree)
    (set : FlagSet) : "-o" ∉ p.flags set :=
  free.list _ _ ((ofProperties_reads made).1 set)

/-- The recipe of a family is for that family. -/
theorem recipe_of_family (made : ofProperties properties = .ok p) :
    (p.recipe = .copy ↔ properties.target.family = .wasm) ∧
      ∀ dsymutil libLto, p.recipe = .apple dsymutil libLto →
        dsymutil ≠ "-o" ∧ libLto = properties.distribution.libLto := by
  obtain ⟨-, -, chosen⟩ := ofProperties_of_ok made
  have family := recipeFor_family chosen
  refine ⟨?_, fun dsymutil libLto recipe => ?_⟩
  · rw [← family]
    cases p.recipe <;> simp [Recipe.family]
  · rw [recipe] at family chosen
    simp only [recipeFor, ← family, Recipe.family] at chosen
    obtain ⟨rfl, rfl⟩ := Recipe.apple.inj (except_pure_eq_ok.mp chosen)
    refine ⟨fun equal => ?_, rfl⟩
    have slash : '/' ∈ s!"{properties.distribution.llvmBin}/llvm-dsymutil".toList := by simp [toString]
    rw [equal] at slash
    contradiction

/-- What the arguments for gold begin with is fixed or comes from the properties. -/
theorem goldArguments_writes (inDirectory : tool = p.toolchain ++ "/bin" ++ "/" ++ "ld.gold")
    (linker : dynamicLinker ≠ "-o") :
    Command.Writes ⟨tool, p.goldArguments llvmLib libGcc pluginFlags specificLibs dynamicLinker objects
      output switches archives, []⟩ output := by
  have root : s!"--sysroot={p.sysroot}" ≠ "-o" := by
    intro equal
    have chars := congrArg String.toList equal
    simp [toString] at chars
  have first : "-o" ∉ [s!"--sysroot={p.sysroot}", "-export-dynamic", "-z", "relro", "--build-id",
      "--eh-frame-hdr", "-dynamic-linker", dynamicLinker] := by
    simp [Ne.symm linker, Ne.symm root]
  simp only [goldArguments, List.append_assoc]
  exact Command.writes_of_tool _ _ _ inDirectory (by decide) (by decide) first []

theorem osVersionFlags_notFlag (free : p.properties.FlagFree) (read : p.osVersionFlags = .ok given) :
    "-o" ∉ given := by
  obtain ⟨flag, flagRead, read⟩ := except_bind_eq_ok.mp read
  obtain ⟨version, -, read⟩ := except_bind_eq_ok.mp read
  obtain rfl := except_pure_eq_ok.mp read
  have flag' := free.text _ _ flagRead
  have version' : version ++ ".0" ≠ "-o" := by
    intro equal
    have last := congrArg (·.toList.getLast?) equal
    simp at last
  simp [Ne.symm flag', Ne.symm version']

/-- So is what the arguments for the linker of Apple begin with. -/
theorem appleArguments_writes (inDirectory : tool = p.toolchain ++ "/usr/bin" ++ "/" ++ "ld")
    (lto : libLto ≠ "-o") (arch : architecture ≠ "-o") (osVersion : "-o" ∉ versionFlags)
    (sysroot : p.sysroot ≠ "-o") :
    Command.Writes ⟨tool, p.appleArguments libLto architecture versionFlags objects output switches
      archives, []⟩ output := by
  have first : "-o" ∉ ["-demangle", "-object_path_lto", "temporary.o", "-lto_library", libLto,
      "-dynamic", "-arch", architecture] ++ (versionFlags ++ ["-syslibroot", p.sysroot]) := by
    simp [Ne.symm lto, Ne.symm arch, osVersion, Ne.symm sysroot]
  have behind : p.appleArguments libLto architecture versionFlags objects output switches archives =
      ["-demangle", "-object_path_lto", "temporary.o", "-lto_library", libLto, "-dynamic", "-arch",
        architecture] ++ (versionFlags ++ ["-syslibroot", p.sysroot]) ++ "-o" :: output :: (objects ++
          (archives.flatMap (fun archive => ["-force_load", archive]) ++
            (p.switchFlags switches ++ (p.flags .linkAlways ++ ["-lSystem"])))) := by
    simp [appleArguments]
  rw [behind]
  exact Command.writes_of_tool _ _ _ inDirectory (by decide) (by decide) first []

/-- The link command tells the linker to write the artifact. -/
theorem linkCommand_writes (made : ofProperties properties = .ok p) (free : properties.FlagFree)
    (linked : p.recipe ≠ .copy)
    (given : p.linkCommand objects output switches archives = .ok command) :
    command.Writes output := by
  have same : p.properties = properties := (ofProperties_of_ok made).1
  have free' : p.properties.FlagFree := same ▸ free
  have path (directory tool : String) (linker : p.linker? = some (directory ++ "/" ++ tool)) :
      p.linker?.getD "" = directory ++ "/" ++ tool := by rw [linker, Option.getD_some]
  unfold linkCommand at given
  cases recipe : p.recipe with
  | gold llvmLib libGcc pluginFlags specificLibs =>
      simp only [recipe] at given
      obtain ⟨dynamicLinker, read, given⟩ := except_bind_eq_ok.mp given
      rw [← except_pure_eq_ok.mp given]
      refine goldArguments_writes (path (p.toolchain ++ "/bin") "ld.gold" ?_) (free'.text _ _ read)
      simp [linker?, recipe, toString, String.append_assoc]
  | apple dsymutil libLto =>
      simp only [recipe] at given
      obtain ⟨arch, archRead, given⟩ := except_bind_eq_ok.mp given
      obtain ⟨osVersion, osVersionRead, given⟩ := except_bind_eq_ok.mp given
      rw [← except_pure_eq_ok.mp given]
      have lto : libLto ≠ "-o" := ((recipe_of_family made).2 _ _ recipe).2 ▸ free.libLto
      refine appleArguments_writes (path (p.toolchain ++ "/usr/bin") "ld" ?_) lto (free'.text _ _ archRead)
        (osVersionFlags_notFlag free' osVersionRead)
        (TargetProperties.sysroot_notFlag free (ofProperties_reads made).2)
      simp [linker?, recipe, toString, String.append_assoc]
  | android =>
      simp only [recipe] at given
      rw [← except_pure_eq_ok.mp given]
      simp only [List.append_assoc]
      refine Command.writes_of_tool (p.toolchain ++ "/bin") "clang" [] (path _ _ ?_) (by decide) (by decide)
        (by simp) []
      simp [linker?, recipe, toString, String.append_assoc]
  | mingw =>
      simp only [recipe] at given
      rw [← except_pure_eq_ok.mp given]
      simp only [List.append_assoc]
      refine Command.writes_of_tool (p.toolchain ++ "/bin") "clang++" [] (path _ _ ?_) (by decide) (by decide)
        (by simp) []
      simp [linker?, recipe, toString, String.append_assoc]
  | copy => contradiction

/-- The tool that extracts debug symbols is told to write nothing. -/
theorem extractCommand_outputs (dsymutil artifact : String) (notFlag : dsymutil ≠ "-o") :
    Toolset.outputs (extractCommand dsymutil artifact).argv = [] := by
  simp only [extractCommand, Command.argv, Toolset.outputs, Toolset.namedOutput, if_neg notFlag]
  split <;> simp

end Platform

end Foundry
