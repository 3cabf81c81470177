import Foundry.Proofs.Link.LateProperties

/-! What the switches of a build change in a link command. Each of them has one block of flags, which
stands at one place whatever the others are; on Linux a dynamic link has other files of the C runtime at
its two ends besides. -/
namespace Foundry

/-- The second list is the first one with a block put in at one place. -/
def Inserts (block without whole : List String) : Prop :=
  ∃ front back, without = front ++ back ∧ whole = front ++ (block ++ back)

/-- The files of the C runtime in front of what is linked on Linux. -/
def startFiles (sysroot libGcc : String) (dynamic : Bool) : List String :=
  if dynamic then [s!"{sysroot}/usr/lib64/crti.o", s!"{libGcc}/crtbeginS.o"]
  else [s!"{sysroot}/usr/lib64/crt1.o", s!"{sysroot}/usr/lib64/crti.o", s!"{libGcc}/crtbegin.o"]

/-- The files of the C runtime behind what is linked on Linux. -/
def endFiles (sysroot libGcc : String) (dynamic : Bool) : List String :=
  [if dynamic then s!"{libGcc}/crtendS.o" else s!"{libGcc}/crtend.o", s!"{sysroot}/usr/lib64/crtn.o"]

/-- How the arguments of a link of these objects change when it is made a dynamic one: the flags for it
are put in, on Linux in front of the objects, and there the files of the C runtime around them are
exchanged. -/
def Recipe.TurnsDynamic (sysroot : String) (flags objects static dynamic : List String) : Recipe → Prop
  | .gold _ libGcc _ _ => ∃ front between back,
      static = front ++ startFiles sysroot libGcc false ++ between ++ objects ++ back ++
        endFiles sysroot libGcc false ∧
      dynamic = front ++ startFiles sysroot libGcc true ++ between ++ flags ++ objects ++ back ++
        endFiles sysroot libGcc true
  | _ => Inserts flags static dynamic

namespace Platform

/-- What an optimized link has in its command and another one has not. -/
def optimizing (p : Platform) : List String :=
  match p.recipe with
  | .gold llvmLib _ pluginFlags _ =>
    ["-plugin", s!"{llvmLib}/LLVMgold.so"] ++ pluginFlags ++ p.flags .linkOptimized
  | _ => p.flags .linkOptimized

/-- The blocks of the switches in a link command. -/
def switched (p : Platform) (s : Switches) : List String :=
  (if s.optimize then p.optimizing else []) ++
  ((if s.debug then [] else p.flags .linkNoDebug) ++
  (if s.dynamic then p.flags .linkDynamic else []))

/-- What stands in front of the blocks of the switches and behind them, in a static link and in a
dynamic one. -/
structure Surroundings where
  front : Bool → List String
  back : Bool → List String

/-- The arguments of a link with these switches. -/
def Surroundings.args (around : Surroundings) (p : Platform) (s : Switches) : List String :=
  around.front s.dynamic ++ (p.switched s ++ around.back s.dynamic)

/-- Only on Linux is a dynamic link surrounded by something else than a static one, and that by the files
of the C runtime alone. -/
def Surroundings.Suits (around : Surroundings) (sysroot : String) (objects : List String) :
    Recipe → Prop
  | .gold _ libGcc _ _ => ∃ front between back, ∀ dynamic,
      around.front dynamic = front ++ startFiles sysroot libGcc dynamic ++ between ∧
      around.back dynamic = objects ++ back ++ endFiles sysroot libGcc dynamic
  | _ => ∃ front back, ∀ dynamic, around.front dynamic = front ∧ around.back dynamic = back

section
variable (p : Platform) (objects : List String) (output : String) (archives : List String)

/-- A property that the link command needs cannot be read, so that there is no command whatever the
switches are. -/
def Unlinkable : Prop :=
  ∃ name ∈ p.recipe.lateProperties, ∃ e, p.properties.text name = .error e ∧
    ∀ s, p.linkCommand objects output s archives = .error e

/-- There is a command for all switches, with the same tool and the same surroundings of their
blocks. -/
def Surrounded : Prop :=
  ∃ (tool : String) (around : Surroundings),
    (∀ s, p.linkCommand objects output s archives = .ok ⟨tool, around.args p s, []⟩) ∧
    around.Suits p.sysroot objects p.recipe

theorem gold_surrounded (recipe : p.recipe = .gold llvmLib libGcc pluginFlags specificLibs) :
    p.Unlinkable objects output archives ∨ p.Surrounded objects output archives := by
  cases given : p.properties.text "dynamic_linker" with
  | error e =>
      refine .inl ⟨"dynamic_linker", by simp [recipe, Recipe.lateProperties], e, given, fun s => ?_⟩
      simp [linkCommand, recipe, given, bind, Except.bind]
  | ok dynamicLinker =>
      let front := [s!"--sysroot={p.sysroot}", "-export-dynamic", "-z", "relro", "--build-id",
        "--eh-frame-hdr", "-dynamic-linker", dynamicLinker, "-o", output] ++
        archives.flatMap fun archive => ["--whole-archive", archive]
      let between := [s!"-L{llvmLib}", s!"-L{libGcc}"] ++
        (if p.target.isMips then [] else ["--hash-style=gnu"]) ++ specificLibs ++
        [s!"-L{p.sysroot}/../lib", s!"-L{p.sysroot}/lib", s!"-L{p.sysroot}/usr/lib"]
      let back := p.flags .linkAlways ++
        ["-lgcc", "--as-needed", "-lgcc_s", "--no-as-needed", "-lc", "-lgcc", "--as-needed", "-lgcc_s",
          "--no-as-needed"]
      refine .inr ⟨s!"{p.toolchain}/bin/ld.gold",
        ⟨fun dynamic => front ++ startFiles p.sysroot libGcc dynamic ++ between,
          fun dynamic => objects ++ back ++ endFiles p.sysroot libGcc dynamic⟩, fun s => ?_, ?_⟩
      · obtain ⟨optimize, debug, dynamic⟩ := s
        simp only [linkCommand, recipe, given, linker?, Option.getD_some, bind, Except.bind, pure,
          Except.pure, Except.ok.injEq, Command.mk.injEq, true_and, and_true]
        cases optimize <;> cases dynamic <;>
          simp [goldArguments, Surroundings.args, switched, switchFlags, optimizing, recipe, startFiles,
            endFiles, front, between, back]
      · rw [recipe]
        exact ⟨front, between, back, fun _ => ⟨rfl, rfl⟩⟩

theorem apple_surrounded (recipe : p.recipe = .apple dsymutil libLto) :
    p.Unlinkable objects output archives ∨ p.Surrounded objects output archives := by
  have late : p.recipe.lateProperties = ["arch", "os_version_min_flag_ld", "os_version_min"] := by
    rw [recipe]
    rfl
  cases arch : p.properties.text "arch" with
  | error e =>
      refine .inl ⟨"arch", by simp [late], e, arch, fun s => ?_⟩
      simp [linkCommand, recipe, arch, bind, Except.bind]
  | ok arch' =>
      cases flag : p.properties.text "os_version_min_flag_ld" with
      | error e =>
          refine .inl ⟨_, by simp [late], e, flag, fun s => ?_⟩
          simp [linkCommand, recipe, arch, osVersionFlags, flag, bind, Except.bind]
      | ok flag' =>
          cases version : p.properties.text "os_version_min" with
          | error e =>
              refine .inl ⟨_, by simp [late], e, version, fun s => ?_⟩
              simp [linkCommand, recipe, arch, osVersionFlags, flag, TargetProperties.osVersionMin, version,
                bind, Except.bind]
          | ok version' =>
              let front := ["-demangle", "-object_path_lto", "temporary.o", "-lto_library", libLto,
                "-dynamic", "-arch", arch', flag', version' ++ ".0", "-syslibroot", p.sysroot, "-o",
                output] ++ objects ++ archives.flatMap fun archive => ["-force_load", archive]
              refine .inr ⟨s!"{p.toolchain}/usr/bin/ld",
                ⟨fun _ => front, fun _ => p.flags .linkAlways ++ ["-lSystem"]⟩, fun s => ?_, ?_⟩
              · simp [linkCommand, recipe, arch, osVersionFlags, flag, TargetProperties.osVersionMin,
                  version, linker?, appleArguments, Surroundings.args, switched, switchFlags, optimizing,
                  front, bind, Except.bind, pure, Except.pure]
              · rw [recipe]
                exact ⟨front, _, fun _ => ⟨rfl, rfl⟩⟩

/-- The blocks of the switches stand side by side in a command whose other arguments do not depend on
them, but for the files of the C runtime. -/
theorem linkCommand_surrounded (linked : p.recipe ≠ .copy) :
    p.Unlinkable objects output archives ∨ p.Surrounded objects output archives := by
  cases recipe : p.recipe with
  | gold => exact p.gold_surrounded objects output archives recipe
  | apple => exact p.apple_surrounded objects output archives recipe
  | android =>
      refine .inr ⟨s!"{p.toolchain}/bin/clang",
        ⟨fun _ => ["-o", output, "-fPIC", "-shared", "-llog"] ++ objects,
          fun _ => p.flags .linkAlways⟩, fun s => ?_, recipe ▸ ⟨_, _, fun _ => ⟨rfl, rfl⟩⟩⟩
      simp [linkCommand, recipe, linker?, Surroundings.args, switched, switchFlags, optimizing, pure,
        Except.pure]
  | mingw =>
      refine .inr ⟨s!"{p.toolchain}/bin/clang++",
        ⟨fun _ => ["-o", output] ++ objects, fun _ => []⟩, fun s => ?_,
        recipe ▸ ⟨_, _, fun _ => ⟨rfl, rfl⟩⟩⟩
      simp [linkCommand, recipe, linker?, Surroundings.args, switched, switchFlags, optimizing, pure,
        Except.pure]
  | copy => contradiction

end

variable {p : Platform} {around : Surroundings}

theorem Surroundings.inserts_optimizing (around : Surroundings) (p : Platform) (debug dynamic : Bool) :
    Inserts p.optimizing (around.args p ⟨false, debug, dynamic⟩) (around.args p ⟨true, debug, dynamic⟩) :=
  ⟨around.front dynamic, _, rfl, by simp [args, switched]⟩

theorem Surroundings.inserts_noDebug (around : Surroundings) (p : Platform) (optimize dynamic : Bool) :
    Inserts (p.flags .linkNoDebug) (around.args p ⟨optimize, true, dynamic⟩)
      (around.args p ⟨optimize, false, dynamic⟩) :=
  ⟨around.front dynamic ++ (if optimize then p.optimizing else []),
    (if dynamic then p.flags .linkDynamic else []) ++ around.back dynamic,
    by simp [args, switched], by simp [args, switched]⟩

theorem Surroundings.turnsDynamic (suits : around.Suits p.sysroot objects p.recipe)
    (optimize debug : Bool) :
    p.recipe.TurnsDynamic p.sysroot (p.flags .linkDynamic) objects (around.args p ⟨optimize, debug, false⟩)
      (around.args p ⟨optimize, debug, true⟩) := by
  let blocks := (if optimize then p.optimizing else []) ++ (if debug then [] else p.flags .linkNoDebug)
  have alike (front back : List String)
      (fixed : ∀ dynamic, around.front dynamic = front ∧ around.back dynamic = back) :
      Inserts (p.flags .linkDynamic) (around.args p ⟨optimize, debug, false⟩)
        (around.args p ⟨optimize, debug, true⟩) :=
    ⟨front ++ blocks, back, by simp [args, switched, fixed, blocks], by simp [args, switched, fixed, blocks]⟩
  cases recipe : p.recipe with
  | gold llvmLib libGcc pluginFlags specificLibs =>
      obtain ⟨front, between, back, fixed⟩ := recipe ▸ suits
      exact ⟨front, between ++ blocks, back, by simp [args, switched, fixed, blocks],
        by simp [args, switched, fixed, blocks]⟩
  | apple | android | mingw | copy =>
      obtain ⟨front, back, fixed⟩ := recipe ▸ suits
      exact alike front back fixed

/-- Each switch of a build acts on the link command alone and in one place. An optimized link has one
block of flags more, a link with debug information one less, whatever the other switches are; a dynamic
link has one block more, and on Linux the files of the C runtime for libraries. -/
theorem switches_independent (linked : p.recipe ≠ .copy) (objects : List String) (output : String)
    (archives : List String) :
    p.Unlinkable objects output archives ∨ ∃ (tool : String) (args : Switches → List String),
      (∀ s, p.linkCommand objects output s archives = .ok ⟨tool, args s, []⟩) ∧
      (∀ debug dynamic,
        Inserts p.optimizing (args ⟨false, debug, dynamic⟩) (args ⟨true, debug, dynamic⟩)) ∧
      (∀ optimize dynamic,
        Inserts (p.flags .linkNoDebug) (args ⟨optimize, true, dynamic⟩) (args ⟨optimize, false, dynamic⟩)) ∧
      ∀ optimize debug, p.recipe.TurnsDynamic p.sysroot (p.flags .linkDynamic) objects
        (args ⟨optimize, debug, false⟩) (args ⟨optimize, debug, true⟩) := by
  rcases p.linkCommand_surrounded objects output archives linked with unlinkable | ⟨tool, around, made, suits⟩
  · exact .inl unlinkable
  · exact .inr ⟨tool, around.args p, made, around.inserts_optimizing p, around.inserts_noDebug p,
      Surroundings.turnsDynamic suits⟩

/-- A platform on Linux that has the same flag for every switch. -/
def oneFlagged : Platform where
  properties := {
    target := .linuxX64
    table := .table [("dynamic_linker", .text "ld.so")]
    distribution := { home := "/home", llvmHome := "/llvm" } }
  flags := fun _ => ["-s"]
  toolchain := "/toolchain"
  sysroot := "/sysroot"
  libffi := []
  recipe := .gold "/llvm/lib" "/sysroot/lib/gcc" ["-s"] []

/-- Though all blocks are the same flag, the switches put in and take out one block each. -/
theorem switches_with_one_flag : oneFlagged.recipe ≠ .copy ∧
    oneFlagged.optimizing = ["-plugin", "/llvm/lib/LLVMgold.so", "-s", "-s"] ∧
    ∃ (tool : String) (args : Switches → List String),
      (∀ s, oneFlagged.linkCommand ["-s", "m.o"] "out" s ["z.a"] = .ok ⟨tool, args s, []⟩) ∧
      (∀ debug dynamic, Inserts ["-plugin", "/llvm/lib/LLVMgold.so", "-s", "-s"]
        (args ⟨false, debug, dynamic⟩) (args ⟨true, debug, dynamic⟩)) ∧
      (∀ optimize dynamic,
        Inserts ["-s"] (args ⟨optimize, true, dynamic⟩) (args ⟨optimize, false, dynamic⟩)) ∧
      ∀ optimize debug, oneFlagged.recipe.TurnsDynamic "/sysroot" ["-s"] ["-s", "m.o"]
        (args ⟨optimize, debug, false⟩) (args ⟨optimize, debug, true⟩) := by
  have linked : oneFlagged.recipe ≠ .copy := by decide
  have block : oneFlagged.optimizing = ["-plugin", "/llvm/lib/LLVMgold.so", "-s", "-s"] := by decide
  refine ⟨linked, block, ?_⟩
  rcases switches_independent linked ["-s", "m.o"] "out" ["z.a"] with ⟨name, late, e, unread, -⟩ | acting
  · obtain rfl := List.mem_singleton.mp late
    nomatch unread
  · rwa [block] at acting

end Platform

end Foundry
