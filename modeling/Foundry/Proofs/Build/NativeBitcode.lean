import Foundry.Proofs.Build.LateFailure
import Foundry.Proofs.Build.Workspace
import Foundry.Proofs.Files.Operation
import Foundry.Proofs.FileSystem.Deposit
import Foundry.Proofs.FileSystem.PathSpot

/-! Linking native bitcode. The libraries are linked into the module one after another, each as it is in
its file, and the first one that cannot be is what ends the build. -/
namespace Foundry

open FileSystem Run

/-- A module with another one behind it. -/
def Module.joined (module other : Bytes) : Bytes := module ++ Utf8.encode "+" ++ other

/-- Whether a module can be linked does not depend on what it is linked into. -/
theorem Module.link_any (other : Bytes) :
    (∀ module, Module.link module other = .ok (Module.joined module other)) ∨
      ∃ reason, ∀ module, Module.link module other = .error reason := by
  by_cases refused : (Utf8.encode "NOLINK").isPrefixOf other = true
  · exact .inr ⟨_, fun module => if_pos refused⟩
  · exact .inl fun module => if_neg refused

namespace Job

/-- A library whose file can be read, and its bitcode. -/
def Reads (fs : FileSystem) (library : String) (bitcode : Bytes) : Prop :=
  Files.holdsZero (Path.ofText library).text = false ∧ fs.read (Path.ofText library).text = .ok bitcode

/-- A library that can be read, parsed and linked into any module. -/
inductive Accepted (fs : FileSystem) (library : String) : Bytes → Prop where
  | linked (bitcode content) : Reads fs library bitcode → Module.parse bitcode = .ok content →
      (∀ module, Module.link module content = .ok (Module.joined module content)) →
      Accepted fs library content

/-- A library that cannot be, and the failure that this is. -/
inductive Rejected (fs : FileSystem) (library : String) : Failure → Prop where
  | unreadable (errno) : Files.holdsZero (Path.ofText library).text = false →
      fs.read (Path.ofText library).text = .error errno →
      Rejected fs library (.fault (.bitcodeNotLinked library
        (Refusal.system errno (.text (Path.ofText library).text)).text))
  | unparsed (bitcode reason) : Reads fs library bitcode → Module.parse bitcode = .error reason →
      Rejected fs library (.fault (.bitcodeNotLinked library reason))
  | unlinked (bitcode content reason) : Reads fs library bitcode → Module.parse bitcode = .ok content →
      (∀ module, Module.link module content = .error reason) →
      Rejected fs library (.fault (.bitcodeNotLinked library reason))
  /-- The system cannot even be asked about the path. -/
  | unaskable : Files.holdsZero (Path.ofText library).text = true → Rejected fs library .zeroInPath

theorem accepted_or_rejected (fs : FileSystem) (library : String) :
    (∃ content, Accepted fs library content) ∨ ∃ e, Rejected fs library e := by
  cases whole : Files.holdsZero (Path.ofText library).text with
  | true => exact .inr ⟨_, .unaskable whole⟩
  | false =>
      cases readable : fs.read (Path.ofText library).text with
      | error errno => exact .inr ⟨_, .unreadable errno whole readable⟩
      | ok bitcode =>
          cases parsed : Module.parse bitcode with
          | error reason => exact .inr ⟨_, .unparsed bitcode reason ⟨whole, readable⟩ parsed⟩
          | ok content =>
              rcases Module.link_any content with linked | ⟨reason, refused⟩
              · exact .inl ⟨content, .linked bitcode content ⟨whole, readable⟩ parsed linked⟩
              · exact .inr ⟨_, .unlinked bitcode content reason ⟨whole, readable⟩ parsed refused⟩

theorem Reads.run (reads : Reads s.files library bitcode) :
    Files.read (Path.ofText library).text s = .ok bitcode s := by
  rw [Files.read, Files.ask_apply, if_neg (by simp [reads.1]), reads.2]

/-- A library is linked behind what is there already. -/
theorem linkNative_accepted (accepted : Accepted s.files library content) :
    linkNative library s = .ok () { s with module := Module.joined s.module content } := by
  obtain ⟨bitcode, _, reads, parsed, linked⟩ := accepted
  have into : linkInto s.module bitcode = .ok (Module.joined s.module content) :=
    except_bind_eq_ok.mpr ⟨content, parsed, linked _⟩
  rw [linkNative, bind_of_ok (tryCatch_of_ok reads.run), bind_of_ok (get_apply s), into]
  rfl

/-- A library that is refused changes nothing. -/
theorem linkNative_rejected (rejected : Rejected s.files library e) :
    linkNative library s = .error e s := by
  have refused {bitcode : Bytes} {reason : String} (reads : Reads s.files library bitcode)
      (into : linkInto s.module bitcode = .error reason) :
      linkNative library s = .error (.fault (.bitcodeNotLinked library reason)) s := by
    rw [linkNative, bind_of_ok (tryCatch_of_ok reads.run), bind_of_ok (get_apply s), into]
    rfl
  cases rejected with
  | unreadable errno whole unreadable =>
      have read : Files.read (Path.ofText library).text s =
          .error (.refusal (.system errno (.text (Path.ofText library).text))) s := by
        rw [Files.read, Files.ask_apply, if_neg (by simp [whole]), unreadable]
      exact bind_eq_error.mpr (.inl (tryCatch_of_error read))
  | unparsed bitcode reason reads parsed =>
      exact refused reads (except_bind_eq_error.mpr (.inl parsed))
  | unlinked bitcode content reason reads parsed unlinked =>
      exact refused reads (except_bind_eq_error.mpr (.inr ⟨content, parsed, unlinked _⟩))
  | unaskable zero =>
      have read : Files.read (Path.ofText library).text s = .error .zeroInPath s := by
        rw [Files.read, Files.ask_apply, if_pos zero]
      exact bind_eq_error.mpr (.inl (tryCatch_of_error read))

/-- Libraries that are all accepted are linked in their order, each once. -/
theorem linkNatives_accepted (files : s.files = fs)
    (accepted : List.Forall₂ (Accepted fs) libraries contents) :
    libraries.forM linkNative s = .ok () { s with module := contents.foldl Module.joined s.module } := by
  induction accepted generalizing s with
  | nil => rfl
  | cons first _ ih =>
      exact bind_eq_ok.mpr ⟨(), _, linkNative_accepted (files ▸ first), ih files⟩

/-- The first library that is refused is what linking ends with. -/
theorem linkNatives_rejected (files : s.files = fs)
    (accepted : List.Forall₂ (Accepted fs) before contents) (rejected : Rejected fs library e)
    (after : List String) :
    (before ++ library :: after).forM linkNative s =
      .error e { s with module := contents.foldl Module.joined s.module } := by
  induction accepted generalizing s with
  | nil => exact bind_eq_error.mpr (.inl (linkNative_rejected (files ▸ rejected)))
  | cons first _ ih =>
      exact bind_eq_error.mpr (.inr ⟨(), _, linkNative_accepted (files ▸ first), ih files⟩)

/-- Either all libraries are accepted, or there is a first one that is refused. -/
theorem all_accepted_or_first_rejected (fs : FileSystem) (libraries : List String) :
    (∃ contents, List.Forall₂ (Accepted fs) libraries contents) ∨
      ∃ before library after contents e, libraries = before ++ library :: after ∧
        List.Forall₂ (Accepted fs) before contents ∧ Rejected fs library e := by
  induction libraries with
  | nil => exact .inl ⟨[], .nil⟩
  | cons first rest ih =>
      rcases accepted_or_rejected fs first with ⟨content, accepted⟩ | ⟨e, rejected⟩
      · rcases ih with ⟨contents, all⟩ | ⟨before, library, after, contents, e, rfl, all, rejected⟩
        · exact .inl ⟨content :: contents, .cons accepted all⟩
        · exact .inr ⟨first :: before, library, after, content :: contents, e, rfl, .cons accepted all,
            rejected⟩
      · exact .inr ⟨[], first, rest, [], e, rfl, .nil, rejected⟩

/-- Compiling the adapter: there is nothing to do but for a dynamic library with an adapter, and then the
compiler is started and succeeds. -/
inductive Adapts (job : Job) (s : Session) : Option String → Session → Prop where
  | nothing : (∀ source, job.config.adapterSource = some source →
      source = "" ∨ job.config.produce ≠ .kind .dynamic) → Adapts job s none s
  | compiled (source setup directory argv piped t) : job.config.adapterSource = some source →
      source ≠ "" → job.config.produce = .kind .dynamic → job.setup = .ok setup →
      t.runDirectory = some directory →
      argv = job.properties.distribution.clang :: (["-x", "c++", "-c", "-emit-llvm"] ++
        setup.platform.flags .clang ++ [source, "-o", joinPaths directory "api.cpp.bc"]) →
      t.started = s.started ++ [⟨argv, piped⟩] → (s.outcome argv).exitCode = 0 →
      t.module = s.module → Adapts job s (some (joinPaths directory "api.cpp.bc")) t

/-- A file of the run directory is named in the run directory, which is all that may have been made. -/
theorem named_run (ran : RunDirectory.named stem name s = .ok path t) :
    ∃ directory, path = joinPaths directory name ∧ t.runDirectory = some directory ∧
      t.host = s.host ∧ t.started = s.started ∧ t.module = s.module := by
  cases works : s.runDirectory with
  | some directory =>
      obtain ⟨rfl, rfl⟩ := RunDirectory.named_ok works ran
      exact ⟨directory, rfl, works, rfl, rfl, rfl⟩
  | none =>
      obtain ⟨directory, u, there, given⟩ := bind_eq_ok.mp ran
      obtain ⟨rfl, rfl⟩ := pure_eq_ok.mp given
      obtain ⟨number, fs, draws, rfl, -, -, rfl⟩ := RunDirectory.path_new works there
      exact ⟨_, rfl, rfl, rfl, rfl, rfl⟩

variable {job : Job}

theorem adapterBitcode_compiling (given : job.config.adapterSource = some source) (nonempty : source ≠ "")
    (dynamic : job.config.produce = .kind .dynamic) : job.adapterBitcode = (do
      let setup ← job.setUp
      let output ← RunDirectory.adapterBitcode RunDirectory.buildStem
      setup.toolchain.runTool ⟨job.properties.distribution.clang,
        ["-x", "c++", "-c", "-emit-llvm"] ++ setup.platform.flags .clang ++ [source, "-o", output], []⟩
      return some output) := by
  unfold adapterBitcode
  simp [given, dynamic]

theorem adapterBitcode_ok (adapted : job.adapterBitcode s = .ok adapter t) : job.Adapts s adapter t := by
  have idle (none : job.adapterBitcode = pure .none) (unasked : ∀ source,
      job.config.adapterSource = some source → source = "" ∨ job.config.produce ≠ .kind .dynamic) :
      job.Adapts s adapter t := by
    rw [none] at adapted
    obtain ⟨rfl, rfl⟩ := pure_eq_ok.mp adapted
    exact .nothing unasked
  cases given : job.config.adapterSource with
  | none => exact idle (by simp only [adapterBitcode, given]) (by simp [given])
  | some source =>
      by_cases empty : source = ""
      · subst empty
        exact idle (by simp only [adapterBitcode, given]) (by simp [given])
      by_cases dynamic : job.config.produce = .kind .dynamic
      · rw [adapterBitcode_compiling given empty dynamic] at adapted
        obtain ⟨setup, u, ready, rest⟩ := bind_eq_ok.mp adapted
        obtain ⟨set, rfl⟩ := ofExcept_eq_ok.mp ready
        obtain ⟨output, v, named, rest⟩ := bind_eq_ok.mp rest
        obtain ⟨_, w, ran, rest⟩ := bind_eq_ok.mp rest
        obtain ⟨rfl, rfl⟩ := pure_eq_ok.mp rest
        obtain ⟨directory, rfl, works, host, started, module⟩ := named_run named
        have passed := (Executor.runTool_passed ran).1
        obtain ⟨piped, _, _, _, ended⟩ := Executor.runTool_after _ _ v
        rw [after_of_ok ran] at ended
        rw [Session.outcome, host, started] at passed
        subst ended
        exact .compiled source setup directory _ piped _ given empty dynamic set works rfl
          (congrArg (· ++ _) started) passed module
      · exact idle (by unfold adapterBitcode; simp [given, dynamic]) (by simp [dynamic])

/-- The libraries that are linked into the module, in their order. -/
def nativeBitcode (job : Job) (adapter : Option String) : List String :=
  job.config.nativeLibraries ++ job.config.defaultNativeLibraries ++ adapter.toList

/-- The module becomes a file of the run directory. -/
def storeModule : Run String := do
  let program ← RunDirectory.programBitcode RunDirectory.buildStem
  Files.write (Path.ofText program).text (← get).module
  return program

/-- What a build that links does with the bitcode of the program. -/
def compileProgram (job : Job) (program : String) : Run (Option String) := do
  let setup ← job.setUp
  let objects ← setup.objectFiles [program]
  setup.finishLink (← setup.libraryInputs job.properties.distribution.home objects)

theorem produceLinked_bitcode (job : Job) : job.produceLinked = (do
    let adapter ← job.adapterBitcode
    (job.nativeBitcode adapter).forM linkNative
    storeModule >>= job.compileProgram) := by
  rw [produceLinked_stages]
  simp only [produceProgram, storeModule, nativeBitcode, compileProgram, bind_assoc, pure_bind]

/-- A module that was stored is in its file. -/
theorem storeModule_ok (stored : storeModule s = .ok program t) :
    t.files.file? (spot t.files.here program) = some s.module ∧ t.started = s.started := by
  obtain ⟨path, u, named, rest⟩ := bind_eq_ok.mp stored
  obtain ⟨directory, -, -, -, started, module⟩ := named_run named
  obtain ⟨_, v, found, rest⟩ := bind_eq_ok.mp rest
  cases found
  obtain ⟨_, w, written, rest⟩ := bind_eq_ok.mp rest
  obtain ⟨rfl, rfl⟩ := pure_eq_ok.mp rest
  obtain ⟨fs, done, rfl⟩ := Files.change_ok written
  obtain ⟨standing, -, rfl⟩ := write_ok done
  refine ⟨?_, started⟩
  rw [Path.spot_ofText] at standing ⊢
  rw [Holds.file?_put standing.below]
  exact (if_pos rfl).trans (congrArg some module)

/-- The bitcode that a program is compiled from is the module with every library linked in behind it in
order: the native ones, the default ones and the adapter. If a library cannot be read, parsed or linked,
the build ends with the failure of the first such library, and no process has been started but the
compiler of the adapter. -/
theorem native_bitcode_linked (linked : job.producer = .ok .linked)
    (adapted : job.adapterBitcode s = .ok adapter t) :
    job.Adapts s adapter t ∧
      (∀ contents, List.Forall₂ (Accepted t.files) (job.nativeBitcode adapter) contents →
        let module := contents.foldl Module.joined s.module
        job.produce s =
            Run.ensuring (storeModule >>= job.compileProgram) RunDirectory.remove { t with module } ∧
          ∀ program u, storeModule { t with module } = .ok program u →
            u.files.file? (spot u.files.here program) = some module ∧ u.started = t.started) ∧
      ((¬ ∃ contents, List.Forall₂ (Accepted t.files) (job.nativeBitcode adapter) contents) →
        ∃ before library after contents e u, job.nativeBitcode adapter = before ++ library :: after ∧
          List.Forall₂ (Accepted t.files) before contents ∧
          Rejected t.files library e ∧ job.produce s = .error e u ∧ u.started = t.started) := by
  have adapts := adapterBitcode_ok adapted
  have module : t.module = s.module := by
    cases adapts with
    | nothing => rfl
    | compiled => assumption
  refine ⟨adapts, fun contents accepted => ⟨?_, fun program u stored => storeModule_ok stored⟩, fun refused => ?_⟩
  · have linkedAll := linkNatives_accepted rfl accepted
    rw [module] at linkedAll
    have same : job.produceLinked s = (storeModule >>= job.compileProgram)
        { t with module := contents.foldl Module.joined s.module } := by
      rw [produceLinked_bitcode, bind_of_ok adapted, bind_of_ok linkedAll]
    rw [produce_of_way linked]
    simp only [Run.ensuring, produceBy, same]
  · obtain ⟨before, library, after, contents, e, split, accepted, rejected⟩ :=
      (all_accepted_or_first_rejected _ _).resolve_left refused
    have failed : job.produceLinked s =
        .error e { t with module := contents.foldl Module.joined t.module } := by
      rw [produceLinked_bitcode, bind_of_ok adapted]
      exact bind_eq_error.mpr (.inl (split ▸ linkNatives_rejected rfl accepted rejected after))
    obtain ⟨u, removed, -, started, -⟩ := RunDirectory.remove_ok
      { t with module := contents.foldl Module.joined t.module }
    exact ⟨before, library, after, contents, e, u, split, accepted, rejected,
      (produce_error_iff linked).mpr ⟨_, failed, removed⟩, started⟩

/-- A dynamic library for Linux with native bitcode of its own and of the runtime. -/
def ofNatives (nativeLibraries : List String) (adapterSource : Option String) : Job where
  config := {
    target := .linuxX64
    produce := .kind .dynamic
    outputName := "lib"
    nativeLibraries
    defaultNativeLibraries := ["runtime.bc"]
    adapterSource }
  properties := {
    data := [("targets", .table [("linux_x64", .table [
      ("target_toolchain", .text "toolchain"), ("target_sysroot", .text "sysroot"),
      ("lib_gcc", .text "gcc")])])]
    path := "kiln.toml"
    sources := ["kiln.toml"]
    distribution := { home := "/home", llvmHome := "/llvm" } }

/-- A session with two files of bitcode. -/
def withBitcode : Session :=
  { Session.blank with
    host := { Session.blank.host with tools := ⟨fun _ _ => .finished 0 [] [3]⟩ }
    files := { entries := [(["tmp"], .directory), (["a.bc"], .file [1]), (["runtime.bc"], .file [2])] }
    module := [0] }

/-- The bitcode of the adapter comes last. -/
theorem adapter_linked_last : ∃ t program u,
    (ofNatives ["a.bc"] (some "api.cpp")).Adapts withBitcode (some "/tmp/kiln-1/api.cpp.bc") t ∧
      storeModule { t with module := [0, 43, 1, 43, 2, 43, 3] } = .ok program u ∧
      u.files.file? (spot u.files.here program) = some [0, 43, 1, 43, 2, 43, 3] ∧
      u.started = t.started := by
  have seen : ((ofNatives ["a.bc"] (some "api.cpp")).adapterBitcode.outcome? (fun t =>
      (["a.bc", "runtime.bc", "/tmp/kiln-1/api.cpp.bc"].map fun file => (t.files.read file).toOption,
        (storeModule.outcome? (fun _ => ()) { t with module := [0, 43, 1, 43, 2, 43, 3] }).isSome)) withBitcode) =
    some (some "/tmp/kiln-1/api.cpp.bc", [some [1], some [2], some [3]], true) := by decide
  obtain ⟨t, adapted, seen⟩ := outcome?_eq_some.mp seen
  simp only [List.map_cons, List.map_nil, Prod.mk.injEq, List.cons.injEq, except_toOption_eq_some] at seen
  obtain ⟨⟨native, runtime, adapter, -⟩, stores⟩ := seen
  obtain ⟨⟨program, _⟩, stored⟩ := Option.isSome_iff_exists.mp stores
  obtain ⟨u, stored, -⟩ := outcome?_eq_some.mp stored
  obtain ⟨adapts, all, -⟩ :=
    @native_bitcode_linked (ofNatives ["a.bc"] (some "api.cpp")) _ _ _ rfl adapted
  have accepted : List.Forall₂ (Accepted t.files)
      ((ofNatives ["a.bc"] (some "api.cpp")).nativeBitcode (some "/tmp/kiln-1/api.cpp.bc")) [[1], [2], [3]] :=
    .cons (.linked [1] [1] ⟨by decide, native⟩ rfl fun _ => rfl)
      (.cons (.linked [2] [2] ⟨by decide, runtime⟩ rfl fun _ => rfl)
        (.cons (.linked [3] [3] ⟨by decide, adapter⟩ rfl fun _ => rfl) .nil))
  obtain ⟨-, program⟩ := all _ accepted
  exact ⟨t, _, u, adapts, stored, program _ u stored⟩

/-- A path that no file can have is not reported as the path of a library. -/
theorem zero_in_path_of_library :
    (ofNatives ["a\x00b"] none).producer = .ok .linked ∧
      (¬ ∃ content, Accepted withBitcode.files "a\x00b" content) ∧
      (ofNatives ["a\x00b"] none).produce.failure? withBitcode = some .zeroInPath := by
  refine ⟨rfl, ?_, by decide⟩
  rintro ⟨content, ⟨_, _, reads, _, _⟩⟩
  exact absurd reads.1 (by decide)

end Job

end Foundry
