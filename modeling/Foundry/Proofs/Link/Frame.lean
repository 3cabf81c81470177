import Foundry.Link.Platform
import Foundry.Proofs.Run

/-! The frame of a link command. What a platform gives its linker beside the objects and the name of the
output does not depend on them, and the static libraries have their places in it. -/
namespace Foundry

/-- What stands around the name of the output and the objects in a link command. -/
structure LinkFrame where
  before : List String
  between : List String
  after : List String

/-- The arguments of a link of these objects to this output. -/
def LinkFrame.args (frame : LinkFrame) (objects : List String) (output : String) : List String :=
  frame.before ++ "-o" :: output :: (frame.between ++ (objects ++ frame.after))

/-- Static libraries, each right behind a flag. -/
def flagged (flag : String) (archives : List String) : List String :=
  archives.flatMap fun archive => [flag, archive]

/-- Where the linkers that are run by themselves find the static libraries: right behind the name of
the output, or right behind the objects. -/
def Recipe.Places (archives : List String) (frame : LinkFrame) : Recipe → Prop
  | .gold .. => flagged "--whole-archive" archives <+: frame.between
  | .apple .. => frame.between = [] ∧ flagged "-force_load" archives <+: frame.after
  | .android | .mingw | .copy => True

namespace Platform

/-- A link command that can be had is this tool in this frame. -/
def Frames (p : Platform) (s : Switches) (archives : List String) (tool : String) (frame : LinkFrame) :
    Prop :=
  p.linker? = some tool ∧ p.recipe.Places archives frame ∧
    ∀ objects output command, p.linkCommand objects output s archives = .ok command →
      command = ⟨tool, frame.args objects output, []⟩

theorem gold_framed (p : Platform) (s : Switches) (archives : List String)
    (recipe : p.recipe = .gold llvmLib libGcc pluginFlags specificLibs) :
    ∃ tool frame, p.Frames s archives tool frame := by
  cases given : p.properties.text "dynamic_linker" with
  | error e =>
      refine ⟨s!"{p.toolchain}/bin/ld.gold", ⟨[], flagged "--whole-archive" archives, []⟩, ?_⟩
      simp [Frames, linker?, linkCommand, recipe, Recipe.Places, given, bind, Except.bind]
  | ok dynamicLinker =>
      let between := (if s.dynamic then [] else [s!"{p.sysroot}/usr/lib64/crt1.o"]) ++
        [s!"{p.sysroot}/usr/lib64/crti.o",
          if s.dynamic then s!"{libGcc}/crtbeginS.o" else s!"{libGcc}/crtbegin.o",
          s!"-L{llvmLib}", s!"-L{libGcc}"] ++
        (if p.target.isMips then [] else ["--hash-style=gnu"]) ++ specificLibs ++
        [s!"-L{p.sysroot}/../lib", s!"-L{p.sysroot}/lib", s!"-L{p.sysroot}/usr/lib"] ++
        (if s.optimize then ["-plugin", s!"{llvmLib}/LLVMgold.so"] ++ pluginFlags else []) ++
        p.switchFlags s
      let after := p.flags .linkAlways ++
        ["-lgcc", "--as-needed", "-lgcc_s", "--no-as-needed", "-lc", "-lgcc", "--as-needed", "-lgcc_s",
          "--no-as-needed"] ++
        [if s.dynamic then s!"{libGcc}/crtendS.o" else s!"{libGcc}/crtend.o",
          s!"{p.sysroot}/usr/lib64/crtn.o"]
      refine ⟨s!"{p.toolchain}/bin/ld.gold", ⟨[s!"--sysroot={p.sysroot}", "-export-dynamic", "-z", "relro",
        "--build-id", "--eh-frame-hdr", "-dynamic-linker", dynamicLinker],
        flagged "--whole-archive" archives ++ between, after⟩, by simp [linker?, recipe], ?_, ?_⟩
      · rw [recipe]
        exact List.prefix_append _ _
      · intro objects output command made
        simp only [linkCommand, recipe, given] at made
        rw [← except_pure_eq_ok.mp made]
        simp [LinkFrame.args, goldArguments, flagged, between, after, linker?, recipe]

theorem apple_framed (p : Platform) (s : Switches) (archives : List String)
    (recipe : p.recipe = .apple dsymutil libLto) : ∃ tool frame, p.Frames s archives tool frame := by
  have tool : p.linker? = some s!"{p.toolchain}/usr/bin/ld" := by simp [linker?, recipe]
  have missing (never : ∀ objects output command, p.linkCommand objects output s archives ≠ .ok command) :
      ∃ tool frame, p.Frames s archives tool frame := by
    refine ⟨_, ⟨[], [], flagged "-force_load" archives⟩, tool, ?_, fun objects output command made =>
      absurd made (never objects output command)⟩
    rw [recipe]
    exact ⟨rfl, List.prefix_refl _⟩
  cases given : p.properties.text "arch" with
  | error e => exact missing (by simp [linkCommand, recipe, given, bind, Except.bind])
  | ok arch =>
      cases version : p.osVersionFlags with
      | error e => exact missing (by simp [linkCommand, recipe, given, version, bind, Except.bind])
      | ok osVersion =>
          refine ⟨_, ⟨["-demangle", "-object_path_lto", "temporary.o", "-lto_library", libLto, "-dynamic",
            "-arch", arch] ++ osVersion ++ ["-syslibroot", p.sysroot], [],
            flagged "-force_load" archives ++ (p.switchFlags s ++ p.flags .linkAlways ++ ["-lSystem"])⟩,
            tool, ?_, ?_⟩
          · rw [recipe]
            exact ⟨rfl, List.prefix_append _ _⟩
          · intro objects output command made
            simp only [linkCommand, recipe, given, version, tool] at made
            rw [← except_pure_eq_ok.mp made]
            simp [LinkFrame.args, appleArguments, flagged]

/-- Where a linker is run, its command has a frame. -/
theorem linkCommand_framed (p : Platform) (linked : p.recipe ≠ .copy) (s : Switches)
    (archives : List String) : ∃ tool frame, p.Frames s archives tool frame := by
  cases recipe : p.recipe with
  | gold => exact p.gold_framed s archives recipe
  | apple => exact p.apple_framed s archives recipe
  | android =>
      refine ⟨s!"{p.toolchain}/bin/clang", ⟨[], ["-fPIC", "-shared", "-llog"],
        p.switchFlags s ++ p.flags .linkAlways⟩, by simp [linker?, recipe], by rw [recipe]; trivial, ?_⟩
      intro objects output command made
      simp only [linkCommand, recipe] at made
      rw [← except_pure_eq_ok.mp made]
      simp [LinkFrame.args, linker?, recipe]
  | mingw =>
      refine ⟨s!"{p.toolchain}/bin/clang++", ⟨[], [], p.switchFlags s⟩, by simp [linker?, recipe],
        by rw [recipe]; trivial, ?_⟩
      intro objects output command made
      simp only [linkCommand, recipe] at made
      rw [← except_pure_eq_ok.mp made]
      simp [LinkFrame.args, linker?, recipe]
  | copy => contradiction

end Platform

end Foundry
