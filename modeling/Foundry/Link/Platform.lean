import Foundry.Process.Command
import Foundry.Properties.TargetProperties

/-! How each family of targets is linked: which tool does it, which files it takes as static
libraries, and the command line of the link. -/
namespace Foundry

/-- Whether a file is a static library by the naming of Unix. -/
def isUnixArchive (path : String) : Bool := Text.endsWith path ".a"

/-- Whether a file is a static library by the naming of Windows. -/
def isWindowsArchive (path : String) : Bool := Text.endsWith path ".lib"

/-- What a family needs for its link command beside what all have. -/
inductive Recipe where
  /-- The linker of Linux, run by itself. -/
  | gold (llvmLib libGcc : String) (pluginFlags specificLibs : List String)
  /-- The linker of Apple's systems, run by itself, and the tool that extracts debug symbols. -/
  | apple (dsymutil libLto : String)
  | android
  | mingw
  /-- Nothing is run: the object is the artifact. -/
  | copy
deriving DecidableEq, Repr

/-- What is known about linking for one target. -/
structure Platform where
  properties : TargetProperties
  flags : FlagSet → List String
  toolchain : String
  sysroot : String
  libffi : List String
  recipe : Recipe

namespace Platform

def target (p : Platform) : Target := p.properties.target

def recipeFor (properties : TargetProperties) (sysroot : String) : Except Failure Recipe := do
  let distribution := properties.distribution
  match properties.target.family with
  | .linux => do
    let libGcc ← properties.text "lib_gcc"
    let pluginFlags ← properties.list "plugin_optimization_flags"
    let specific ← properties.list "abi_specific_libraries"
    pure (.gold distribution.llvmLib s!"{sysroot}/{libGcc}" pluginFlags
      (specific.map fun lib => s!"-L{sysroot}/{lib}"))
  | .apple => pure (.apple s!"{distribution.llvmBin}/llvm-dsymutil" distribution.libLto)
  | .android => pure .android
  | .mingw => pure .mingw
  | .wasm => pure .copy

def ofProperties (properties : TargetProperties) : Except Failure Platform := do
  let plain ← properties.flags .compilePlain
  let optimized ← properties.flags .compileOptimized
  let selector ← properties.flags .entrySelector
  let linkOptimized ← properties.flags .linkOptimized
  let linkAlways ← properties.flags .linkAlways
  let linkNoDebug ← properties.flags .linkNoDebug
  let linkDynamic ← properties.flags .linkDynamic
  let debug ← properties.flags .compileDebug
  let assembler ← properties.flags .assembler
  let clang ← properties.flags .clang
  let toolchain ← properties.toolchain
  let sysroot ← properties.sysroot
  let libffi ← properties.absoluteLibffi?
  let recipe ← recipeFor properties sysroot
  let flags : FlagSet → List String
    | .compilePlain => plain
    | .compileOptimized => optimized
    | .compileDebug => debug
    | .entrySelector => selector
    | .linkOptimized => linkOptimized
    | .linkAlways => linkAlways
    | .linkNoDebug => linkNoDebug
    | .linkDynamic => linkDynamic
    | .assembler => assembler
    | .clang => clang
  pure {
    properties, flags, toolchain, sysroot, recipe
    libffi := libffi.toList.map fun dir => s!"{dir}/lib/libffi.a" }

/-- The tool that links, if one does. -/
def linker? (p : Platform) : Option String :=
  match p.recipe with
  | .gold .. => some s!"{p.toolchain}/bin/ld.gold"
  | .apple .. => some s!"{p.toolchain}/usr/bin/ld"
  | .android => some s!"{p.toolchain}/bin/clang"
  | .mingw => some s!"{p.toolchain}/bin/clang++"
  | .copy => none

/-- Whether a compiler calls the linker, so that it understands flags for it. -/
def linksByCompiler (p : Platform) : Bool := p.recipe = .android || p.recipe = .mingw

/-- The warning about the missing start symbol, which another tool than the linker cannot know to
be an alias. -/
def harmlessWarning : String := "warning: could not find object file symbol for symbol _main"

/-- For which tools which text marks a line of diagnostics as harmless. -/
def filters (p : Platform) : List (String × String) :=
  match p.recipe with
  | .apple dsymutil _ => [(dsymutil, harmlessWarning)]
  | _ => []

/-- Whether a file is a static library that the platform links. -/
def acceptsArchive (p : Platform) (path : String) : Bool :=
  match p.recipe with
  | .gold .. | .apple .. | .android => isUnixArchive path
  | .mingw => isWindowsArchive path || isUnixArchive path
  | .copy => false

def staticLibraries (p : Platform) (files : List String) : List String :=
  files.filter p.acceptsArchive

/-- What a link is about beside its files. -/
structure Switches where
  optimize : Bool
  debug : Bool
  dynamic : Bool
deriving DecidableEq, Repr

/-- The flags that depend on the switches alone. -/
def switchFlags (p : Platform) (s : Switches) : List String :=
  (if s.optimize then p.flags .linkOptimized else []) ++
  (if s.debug then [] else p.flags .linkNoDebug) ++
  (if s.dynamic then p.flags .linkDynamic else [])

def goldArguments (p : Platform) (llvmLib libGcc : String) (pluginFlags specificLibs : List String)
    (dynamicLinker : String) (objects : List String) (output : String) (s : Switches)
    (archives : List String) : List String :=
  let sysroot := p.sysroot
  [s!"--sysroot={sysroot}", "-export-dynamic", "-z", "relro", "--build-id", "--eh-frame-hdr",
    "-dynamic-linker", dynamicLinker, "-o", output] ++
  archives.flatMap (fun archive => ["--whole-archive", archive]) ++
  (if s.dynamic then [] else [s!"{sysroot}/usr/lib64/crt1.o"]) ++
  [s!"{sysroot}/usr/lib64/crti.o",
    if s.dynamic then s!"{libGcc}/crtbeginS.o" else s!"{libGcc}/crtbegin.o",
    s!"-L{llvmLib}", s!"-L{libGcc}"] ++
  (if p.target.isMips then [] else ["--hash-style=gnu"]) ++
  specificLibs ++
  [s!"-L{sysroot}/../lib", s!"-L{sysroot}/lib", s!"-L{sysroot}/usr/lib"] ++
  (if s.optimize then ["-plugin", s!"{llvmLib}/LLVMgold.so"] ++ pluginFlags else []) ++
  p.switchFlags s ++
  objects ++
  p.flags .linkAlways ++
  ["-lgcc", "--as-needed", "-lgcc_s", "--no-as-needed", "-lc", "-lgcc", "--as-needed", "-lgcc_s",
    "--no-as-needed"] ++
  [if s.dynamic then s!"{libGcc}/crtendS.o" else s!"{libGcc}/crtend.o",
    s!"{sysroot}/usr/lib64/crtn.o"]

/-- The flag for the oldest version of the system, and that version. -/
def osVersionFlags (p : Platform) : Except Failure (List String) := do
  let flag ← p.properties.text "os_version_min_flag_ld"
  let version ← p.properties.osVersionMin
  pure [flag, version ++ ".0"]

def appleArguments (p : Platform) (libLto arch : String) (osVersion objects : List String)
    (output : String) (s : Switches) (archives : List String) : List String :=
  ["-demangle", "-object_path_lto", "temporary.o", "-lto_library", libLto, "-dynamic", "-arch",
    arch] ++
  osVersion ++
  ["-syslibroot", p.sysroot, "-o", output] ++
  objects ++
  archives.flatMap (fun archive => ["-force_load", archive]) ++
  p.switchFlags s ++
  p.flags .linkAlways ++
  ["-lSystem"]

def linkCommand (p : Platform) (objects : List String) (output : String) (s : Switches)
    (archives : List String) : Except Failure Command :=
  let tool := p.linker?.getD ""
  match p.recipe with
  | .gold llvmLib libGcc pluginFlags specificLibs => do
    let dynamicLinker ← p.properties.text "dynamic_linker"
    pure ⟨tool, p.goldArguments llvmLib libGcc pluginFlags specificLibs dynamicLinker objects
      output s archives, []⟩
  | .apple _ libLto => do
    let arch ← p.properties.text "arch"
    let osVersion ← p.osVersionFlags
    pure ⟨tool, p.appleArguments libLto arch osVersion objects output s archives, []⟩
  | .android =>
    pure ⟨tool, ["-o", output, "-fPIC", "-shared", "-llog"] ++ objects ++ p.switchFlags s ++
      p.flags .linkAlways, []⟩
  | .mingw => pure ⟨tool, ["-o", output] ++ objects ++ p.switchFlags s, []⟩
  | .copy => pure ⟨tool, [], []⟩

/-- The flags that stand behind those of the linked program. -/
def commandTail (p : Platform) : List String :=
  if p.recipe = .mingw then p.flags .linkAlways else []

def extractCommand (dsymutil artifact : String) : Command := ⟨dsymutil, [artifact], []⟩

/-- The command that shows which debug symbols a linked artifact refers to. -/
def debugMapCommand (dsymutil artifact : String) : Command :=
  ⟨dsymutil, ["-dump-debug-map", artifact], []⟩

end Platform

end Foundry
