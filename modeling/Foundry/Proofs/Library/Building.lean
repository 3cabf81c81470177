import Foundry.Proofs.Files.Refusal
import Foundry.Proofs.Library.Drafting

/-! Building a library, as what is asked of it one after another, and how that can fail other than by
reporting that the library cannot be written. -/
namespace Foundry

open FileSystem Run

/-- The failure reports that a library cannot be written. -/
def Failure.IsUnwritten : Failure → Prop
  | .fault (.libraryNotWritten ..) => True
  | _ => False

theorem Failure.IsOfFile.not_isUnwritten {e : Failure} (kind : e.IsOfFile) : ¬ e.IsUnwritten := by
  cases e with
  | refusal | zeroInPath => exact id
  | _ => exact kind.elim

namespace LibraryWriter

variable {w : LibraryWriter} {s t : Session}

theorem failure?_reporting {path : Path} {reason : Refusal → String} {body : Run α} :
    (reporting path reason body).failure? s = some e ↔
      (∃ r, body.failure? s = some (.refusal r) ∧
        e = .fault (.libraryNotWritten path.text (reason r))) ∨
      body.failure? s = some e ∧ ¬ e.IsRefusal := by
  cases ran : body s with
  | ok a t => simp [failure?, reporting, tryCatch_of_ok ran, ran]
  | error e' t =>
      simp only [failure?, reporting, tryCatch_of_error ran, ran, Option.some.injEq]
      cases e' with
      | refusal r =>
          simp only [Run.fault, throw_apply, Option.some.injEq, Failure.refusal.injEq]
          constructor
          · rintro rfl
            exact .inl ⟨r, rfl, rfl⟩
          · rintro (⟨_, rfl, rfl⟩ | ⟨rfl, other⟩)
            · rfl
            · exact absurd trivial other
      | _ =>
          simp only [throw_apply, Option.some.injEq, reduceCtorEq, false_and, exists_false, false_or]
          refine ⟨?_, And.left⟩
          rintro rfl
          exact ⟨rfl, id⟩

/-- Refused file operations are reported, and nothing else is. -/
theorem reporting_unwritten {path : Path} {reason : Refusal → String} {body : Run α}
    (refuses : OnFiles Failure.IsRefusal body)
    (failed : (reporting path reason body).failure? s = some e) : e.IsUnwritten := by
  rcases failure?_reporting.mp failed with ⟨r, -, rfl⟩ | ⟨failed, other⟩
  · trivial
  · exact absurd (refuses.failure?_kind failed) other

/-- How a call fails other than by reporting that the library cannot be written: it is given a path
with a zero in it, or a manifest that is read but is no text or holds an integer that is too long. -/
inductive Call.Halts (s : Session) : Call → Failure → Prop where
  | native (library : String) : Files.holdsZero library = true →
      Halts s (.addNative library) .zeroInPath
  | included (library : String) : Files.holdsZero library = true →
      Halts s (.addIncluded library) .zeroInPath
  | manifestPath (file : String) : Files.holdsZero file = true → Halts s (.addManifest file) .zeroInPath
  | manifest (file : String) (content : Bytes) (e : Failure) : Files.read file s = .ok content s →
      Properties.parseBytes content = .error e → e ≠ .notToml → Halts s (.addManifest file) e

section Calls
variable (whole : Files.holdsZero w.root.text = false)
include whole

theorem targetDirectory_whole : Files.holdsZero w.targetDirectory.text = false := by
  have named : '\x00' ∉ w.target.name.toList := by cases w.target <;> decide
  exact Files.holdsZero_child named (Files.holdsZero_child (by decide) whole)

omit whole in
theorem writeFile_unwritten {path : Path} {content : Bytes} (placed : Files.holdsZero path.text = false)
    (failed : (w.writeFile path content).failure? s = some e) : e.IsUnwritten :=
  reporting_unwritten (Files.change_refuses placed _) failed

omit whole in
theorem copyInto_failure_iff {directory : Path} (placed : Files.holdsZero directory.text = false) :
    (w.copyInto source directory).failure? s = some e ∧ ¬ e.IsUnwritten ↔
      Files.holdsZero source = true ∧ e = .zeroInPath := by
  cases zero : Files.holdsZero source with
  | true =>
      have refused : Files.copy source (.typed (directory.child (Path.ofText source).name).text) s =
          .error .zeroInPath s := by
        refine bind_eq_error.mpr (.inl (bind_eq_error.mpr (.inl ?_)))
        rw [Files.checked, if_pos zero]
        rfl
      have failed : (w.copyInto source directory).failure? s = some .zeroInPath :=
        failure?_reporting.mpr (.inr ⟨failure?_eq_some.mpr ⟨s, refused⟩, id⟩)
      simpa using failure?_iff (K := Failure.IsUnwritten) failed id
  | false =>
      have named : '\x00' ∉ (Path.ofText source).name.toList := by
        unfold Path.name
        cases last : (Path.ofText source).parts.getLast? with
        | none => simp
        | some part =>
            have member : part ∈ Path.partsOf source := List.mem_of_getLast? last
            exact Files.not_mem_of_partsOf (Files.not_mem_of_holdsZero zero) member
      have inside : Files.holdsZero (FileName.typed (directory.child (Path.ofText source).name).text).plain =
          false := by
        rw [FileName.plain]
        exact Files.holdsZero_child named placed
      constructor
      · rintro ⟨failed, other⟩
        exact absurd (reporting_unwritten (Files.copy_refuses zero inside) failed) other
      · rintro ⟨impossible, -⟩
        cases impossible

omit whole in
theorem addManifest_failure_iff : (w.addManifest file).failure? s = some e ∧ ¬ e.IsUnwritten ↔
    (Call.addManifest file).Halts s e := by
  constructor
  · rintro ⟨failed, other⟩
    rcases failure?_bind.mp failed with unread | ⟨content, t, read, unparsed⟩
    · cases zero : Files.holdsZero file with
      | false => exact absurd (reporting_unwritten (Files.ask_refuses zero _) unread) other
      | true =>
          rcases failure?_reporting.mp unread with ⟨r, -, rfl⟩ | ⟨unread, -⟩
          · exact absurd trivial other
          · rw [Files.read, failure?, Files.ask_apply, if_pos zero] at unread
            cases unread
            exact .manifestPath file zero
    · have read := reporting_ok read
      obtain rfl := (Files.ask_ok read).2
      split at unparsed
      · cases unparsed
      · cases unparsed
        exact absurd trivial other
      · rename_i e' different parsed
        cases unparsed
        exact .manifest file content e read parsed fun same => different same
  · intro halts
    cases halts with
    | manifestPath _ zero =>
        refine ⟨failure?_bind.mpr (.inl (failure?_reporting.mpr (.inr ⟨?_, id⟩))), id⟩
        rw [Files.read, failure?, Files.ask_apply, if_pos zero]
    | manifest _ content _ read parsed different =>
        have kind := (Properties.parseBytes_error parsed).resolve_left different
        constructor
        · refine failure?_bind.mpr (.inr ⟨content, s, tryCatch_of_ok read, ?_⟩)
          rcases kind with rfl | ⟨digits, rfl⟩ <;> simp [parsed, failure?]
        · rcases kind with rfl | ⟨digits, rfl⟩ <;> exact id

theorem answer_failure_iff {call : Call} (drafting : call ≠ .discard) :
    (w.answer call).failure? s = some e ∧ ¬ e.IsUnwritten ↔ call.Halts s e := by
  have writing {path : Path} {content : Bytes} (placed : Files.holdsZero path.text = false) :
      ¬ ((w.writeFile path content).failure? s = some e ∧ ¬ e.IsUnwritten) :=
    not_and_not_right.mpr (writeFile_unwritten placed)
  have linkData {name : String} (named : '\x00' ∉ name.toList) :
      Files.holdsZero (w.linkData.child name).text = false :=
    Files.holdsZero_child named (Files.holdsZero_child (by decide) whole)
  cases call with
  | writeModule =>
      rw [answer, failure?_map]
      refine iff_of_false (writing ?_) fun halts => by cases halts
      exact Files.holdsZero_child (by decide)
        (Files.holdsZero_child (by decide) (targetDirectory_whole whole))
  | addLinkData | addEscapeAnalysis | addDataFlowGraph =>
      rw [answer, failure?_map]
      exact iff_of_false (writing (linkData (by decide))) fun halts => by cases halts
  | addNative library =>
      have placed : Files.holdsZero w.nativeDirectory.text = false :=
        Files.holdsZero_child (by decide) (targetDirectory_whole whole)
      have copying : (w.addNative library).failure? s =
          (w.copyInto library w.nativeDirectory).failure? s := by
        rw [addNative, bind_pure_comp, failure?_map]
      rw [answer, copying, copyInto_failure_iff placed]
      constructor
      · rintro ⟨zero, rfl⟩
        exact .native library zero
      · rintro ⟨⟩
        exact ⟨‹_›, rfl⟩
  | addIncluded library =>
      have placed : Files.holdsZero w.includedDirectory.text = false :=
        Files.holdsZero_child (by decide) (targetDirectory_whole whole)
      rw [answer, failure?_map, addIncluded, copyInto_failure_iff placed]
      constructor
      · rintro ⟨zero, rfl⟩
        exact .included library zero
      · rintro ⟨⟩
        exact ⟨‹_›, rfl⟩
  | addManifest file => exact addManifest_failure_iff
  | addDepends names =>
      refine iff_of_false ?_ fun halts => by cases halts
      rintro ⟨failed, -⟩
      cases failed
  | discard => exact absurd rfl drafting

end Calls

/-- Do what is asked, one after another. What fails ends it. -/
def answerEach (w : LibraryWriter) : List Call → Run LibraryWriter
  | [] => pure w
  | call :: rest => do
    let w ← w.answer call
    w.answerEach rest

theorem answerEach_append (w : LibraryWriter) (first rest : List Call) :
    w.answerEach (first ++ rest) = w.answerEach first >>= fun w => w.answerEach rest := by
  induction first generalizing w with
  | nil => rfl
  | cons call first ih => simp only [List.cons_append, answerEach, ih, bind_assoc]

theorem answer_root (ran : w.answer call s = .ok w' t) : w'.root = w.root := by
  rw [answer_ok ran]
  rfl

theorem answerEach_ok {calls : List Call} (ran : w.answerEach calls s = .ok w' t) : w' = { w with
    depends := w'.depends, nativeTargets := w'.nativeTargets, properties := w'.properties } := by
  induction calls generalizing w s with
  | nil =>
      obtain ⟨rfl, -⟩ := pure_eq_ok.mp ran
      rfl
  | cons call rest ih =>
      obtain ⟨w₁, u, first, rest⟩ := bind_eq_ok.mp ran
      rw [ih rest, answer_ok first]

/-- What is done one after another fails as the first call that fails. -/
theorem answerEach_failure_iff {calls : List Call} (whole : Files.holdsZero w.root.text = false)
    (drafting : Call.discard ∉ calls) :
    (w.answerEach calls).failure? s = some e ∧ ¬ e.IsUnwritten ↔
      ∃ before call after w' t, calls = before ++ call :: after ∧
        w.answerEach before s = .ok w' t ∧ call.Halts t e := by
  induction calls generalizing w s with
  | nil => simp [answerEach, failure?, pure, EStateM.pure]
  | cons call rest ih =>
      rw [List.mem_cons, not_or] at drafting
      obtain ⟨drafts, later⟩ := drafting
      have first := answer_failure_iff (s := s) (e := e) whole (Ne.symm drafts)
      constructor
      · rintro ⟨failed, other⟩
        rcases failure?_bind.mp failed with failed | ⟨w₁, u, ran, failed⟩
        · exact ⟨[], call, rest, w, s, rfl, rfl, first.mp ⟨failed, other⟩⟩
        · obtain ⟨before, call', after, w', t, split, ran', halts⟩ :=
            (ih (answer_root ran ▸ whole) later).mp ⟨failed, other⟩
          exact ⟨call :: before, call', after, w', t, congrArg (call :: ·) split,
            bind_eq_ok.mpr ⟨w₁, u, ran, ran'⟩, halts⟩
      · rintro ⟨before, call', after, w', t, split, ran, halts⟩
        cases before with
        | nil =>
            obtain ⟨rfl, rfl⟩ := List.cons.inj split
            obtain ⟨rfl, rfl⟩ := pure_eq_ok.mp ran
            obtain ⟨failed, other⟩ := first.mpr halts
            exact ⟨failure?_bind.mpr (.inl failed), other⟩
        | cons _ before =>
            obtain ⟨rfl, split'⟩ := List.cons.inj split
            obtain ⟨w₁, u, ran₁, ran'⟩ := bind_eq_ok.mp ran
            obtain ⟨failed, other⟩ := (ih (answer_root ran₁ ▸ whole) later).mpr
              ⟨before, call', after, w', t, split', ran', halts⟩
            exact ⟨failure?_bind.mpr (.inr ⟨w₁, u, ran₁, failed⟩), other⟩

namespace Parts

/-- The manifest of the user, if one is given. -/
def manifestCalls : Option String → List Call
  | none | some "" => []
  | some file => [.addManifest file]

/-- What is asked of a library to build it from its parts. -/
def calls (parts : Parts) : List Call :=
  .writeModule parts.module :: .addLinkData parts.linkData ::
    (parts.natives.map .addNative ++ (parts.included.map .addIncluded ++
      .addDepends parts.needed :: (manifestCalls parts.manifestFile ++
        (parts.escapeAnalysis.toList.map .addEscapeAnalysis ++
          parts.dataFlowGraph.toList.map .addDataFlowGraph))))

theorem discard_not_mem_calls (parts : Parts) : Call.discard ∉ parts.calls := by
  have manifest : Call.discard ∉ manifestCalls parts.manifestFile := by
    unfold manifestCalls
    split <;> simp
  simp [calls, manifest]

end Parts

theorem answerEach_natives (w : LibraryWriter) (libraries : List String) :
    w.answerEach (libraries.map .addNative) = w.addNatives libraries := by
  induction libraries generalizing w with
  | nil => rfl
  | cons library rest ih => simp only [List.map_cons, answerEach, answer, addNatives, ih]

theorem answerEach_included (w : LibraryWriter) (libraries : List String) :
    w.answerEach (libraries.map .addIncluded) = (fun _ => w) <$> libraries.forM w.addIncluded := by
  induction libraries with
  | nil => rfl
  | cons library rest ih =>
      have first : (library :: rest).forM w.addIncluded =
          (w.addIncluded library >>= fun _ => rest.forM w.addIncluded) := rfl
      simp only [List.map_cons, answerEach, answer, first, ← bind_pure_comp, bind_assoc, pure_bind, ih]

theorem answerEach_manifest (w : LibraryWriter) (file : Option String) :
    w.answerEach (Parts.manifestCalls file) = w.addGivenManifest file := by
  unfold Parts.manifestCalls addGivenManifest
  split
  · rfl
  · rfl
  · simp only [answerEach, answer, bind_pure]

/-- A library is built by what is asked for its parts. -/
theorem build_eq (output name : String) (target : Target) (abiVersion : Int) (unpacked : Bool)
    (staging : Option String) (parts : Parts) :
    build output name target abiVersion unpacked staging parts =
      start output name target abiVersion unpacked staging >>= fun w => w.answerEach parts.calls := by
  have optional (w : LibraryWriter) (data : Option Bytes) (ask : Bytes → Call)
      (add : Bytes → Run Unit) (same : ∀ data, w.answer (ask data) = (fun _ => w) <$> add data) :
      w.answerEach (data.toList.map ask) = (fun _ => w) <$> data.forM add := by
    cases data with
    | none => rfl
    | some data =>
        simp only [Option.toList, List.map_cons, List.map_nil, answerEach, same, bind_pure]
        rfl
  simp only [build, Parts.calls, answerEach, answerEach_append, answerEach_natives, answerEach_included,
    answerEach_manifest, optional _ _ .addEscapeAnalysis (addEscapeAnalysis _) fun _ => rfl,
    optional _ _ .addDataFlowGraph (addDataFlowGraph _) fun _ => rfl, answer, ← bind_pure_comp, bind_assoc, pure_bind]

theorem layOut_refuses (whole : Files.holdsZero w.root.text = false) :
    OnFiles Failure.IsRefusal w.layOut := by
  have binaries := targetDirectory_whole whole
  have making : OnFiles Failure.IsRefusal
      ([w.linkData, w.programDirectory, w.nativeDirectory, w.includedDirectory].forM
        Files.makeDirectories) := by
    have made {path : Path} (whole : Files.holdsZero path.text = false) :
        OnFiles Failure.IsRefusal (Files.makeDirectories path) := Files.ensureDirectories_refuses whole _
    refine (made (Files.holdsZero_child (by decide) whole)).bind fun _ =>
      (made (Files.holdsZero_child (by decide) binaries)).bind fun _ =>
      (made (Files.holdsZero_child (by decide) binaries)).bind fun _ =>
      (made (Files.holdsZero_child (by decide) binaries)).bind fun _ => .pure _
  refine (Files.lookStrictly_refuses _).bind fun _ => ?_
  split
  · have whole' : Files.holdsZero (FileName.typed w.root.text).plain = false := by
      rw [FileName.plain]
      exact whole
    exact (Files.removeTree_refuses whole').bind fun _ => making
  · exact making

/-- Nothing is laid out under a path with a zero in it. -/
theorem layOut_zero (zero : Files.holdsZero w.root.text = true) : w.layOut s = .error .zeroInPath s := by
  have looked : Files.lookStrictly w.root.text s = .ok none s := by
    rw [Files.lookStrictly, if_pos zero]
    rfl
  have proper : IsName "linkdata" := by decide
  have zero' : Files.holdsZero w.linkData.text = true := by
    obtain ⟨part, member, zero⟩ := (Files.holdsZero_text _).mp zero
    refine (Files.holdsZero_text _).mpr ⟨part, ?_, zero⟩
    rw [linkData, Path.child_name proper]
    exact List.mem_append_left _ member
  have refused : Files.checked w.linkData.text s = .error .zeroInPath s := by
    rw [Files.checked, if_pos zero']
    rfl
  rw [layOut, bind_of_ok looked]
  refine bind_eq_error.mpr (.inl ?_)
  unfold Files.makeDirectories
  cases w.linkData.parts.length <;> exact bind_eq_error.mpr (.inl refused)

section Build
variable {output name : String} {target : Target} {abiVersion : Int} {unpacked : Bool}
  {staging : Option String} {parts : Parts}

theorem start_begun (ran : start output name target abiVersion unpacked staging s = .ok w t) :
    ∃ directory u, stagingDirectory staging s = .ok directory u ∧
      w = begun output name target abiVersion unpacked staging directory ∧ w.layOut u = .ok () t := by
  rw [start_eq] at ran
  obtain ⟨directory, u, found, rest⟩ := bind_eq_ok.mp ran
  obtain ⟨_, v, laid, given⟩ := bind_eq_ok.mp rest
  obtain ⟨rfl, rfl⟩ := pure_eq_ok.mp given
  exact ⟨directory, u, found, rfl, reporting_ok laid⟩

theorem layOut_whole (ran : w.layOut s = .ok u t) : Files.holdsZero w.root.text = false := by
  cases zero : Files.holdsZero w.root.text with
  | false => rfl
  | true =>
      rw [layOut_zero zero] at ran
      nomatch ran

theorem stagingDirectory_fails (failed : (stagingDirectory staging).failure? s = some e) :
    ¬ e.IsUnwritten := by
  have making (failed : (Files.makeTemporaryDirectory stagingStem).failure? s = some e) :
      ¬ e.IsUnwritten := by
    have kind : e.IsOfFile :=
      (Files.makeTemporaryDirectory_filesOnly stagingStem).failure?_kind failed
    exact kind.not_isUnwritten
  unfold stagingDirectory at failed
  split at failed
  · exact making failed
  · exact making failed
  · nomatch failed

/-- How a library fails to be built other than by reporting that it cannot be written. -/
inductive Unbuilt (output name : String) (target : Target) (abiVersion : Int) (unpacked : Bool)
    (staging : Option String) (parts : Parts) (s : Session) : Failure → Prop where
  /-- No staging directory can be made. -/
  | unstaged (e : Failure) : (stagingDirectory staging).failure? s = some e →
      Unbuilt output name target abiVersion unpacked staging parts s e
  /-- The path of the layout holds a zero. -/
  | zeroInRoot (directory : String) (t : Session) : stagingDirectory staging s = .ok directory t →
      Files.holdsZero
        (begun output name target abiVersion unpacked staging directory).root.text = true →
      Unbuilt output name target abiVersion unpacked staging parts s .zeroInPath
  /-- One of the parts cannot be used, after those before it were put into the layout. -/
  | part (before after : List Call) (call : Call) (w : LibraryWriter) (t : Session) (e : Failure) :
      parts.calls = before ++ call :: after →
      (start output name target abiVersion unpacked staging >>= fun w => w.answerEach before) s =
        .ok w t →
      call.Halts t e → Unbuilt output name target abiVersion unpacked staging parts s e

theorem start_failure_iff :
    (start output name target abiVersion unpacked staging).failure? s = some e ∧ ¬ e.IsUnwritten ↔
      (stagingDirectory staging).failure? s = some e ∨
      ∃ directory t, stagingDirectory staging s = .ok directory t ∧ Files.holdsZero
        (begun output name target abiVersion unpacked staging directory).root.text = true ∧
        e = .zeroInPath := by
  constructor
  · rintro ⟨failed, other⟩
    rcases failure?_bind.mp failed with unstaged | ⟨directory, t, found, failed⟩
    · exact .inl unstaged
    · refine .inr ⟨directory, t, found, ?_⟩
      rcases failure?_bind.mp failed with unlaid | ⟨_, _, _, impossible⟩
      · cases zero : Files.holdsZero
            (begun output name target abiVersion unpacked staging directory).root.text with
        | false => exact absurd (reporting_unwritten (layOut_refuses zero) unlaid) other
        | true =>
            rcases failure?_reporting.mp unlaid with ⟨r, -, rfl⟩ | ⟨failed, -⟩
            · exact absurd trivial other
            · have none : (begun output name target abiVersion unpacked staging directory).layOut.failure? t =
                  some e := failed
              rw [failure?, layOut_zero zero] at none
              exact ⟨rfl, (Option.some.inj none).symm⟩
      · cases impossible
  · rintro (failed | ⟨directory, t, found, zero, rfl⟩)
    · exact ⟨failure?_bind.mpr (.inl failed), stagingDirectory_fails failed⟩
    · refine ⟨failure?_bind.mpr (.inr ⟨directory, t, found, failure?_bind.mpr (.inl ?_)⟩), id⟩
      exact failure?_reporting.mpr (.inr ⟨failure?_eq_some.mpr ⟨t, layOut_zero zero⟩, id⟩)

theorem build_failure_iff :
    (build output name target abiVersion unpacked staging parts).failure? s = some e ∧
        ¬ e.IsUnwritten ↔
      Unbuilt output name target abiVersion unpacked staging parts s e := by
  rw [build_eq]
  constructor
  · rintro ⟨failed, other⟩
    rcases failure?_bind.mp failed with failed | ⟨w, t, began, failed⟩
    · rcases start_failure_iff.mp ⟨failed, other⟩ with unstaged | ⟨directory, t, found, zero, rfl⟩
      · exact .unstaged e unstaged
      · exact .zeroInRoot directory t found zero
    · obtain ⟨directory, u, -, -, laid⟩ := start_begun began
      obtain ⟨before, call, after, w', v, split, ran, halts⟩ :=
        (answerEach_failure_iff (layOut_whole laid) parts.discard_not_mem_calls).mp ⟨failed, other⟩
      exact .part before after call w' v e split (bind_eq_ok.mpr ⟨w, t, began, ran⟩) halts
  · intro unbuilt
    cases unbuilt with
    | unstaged _ failed =>
        obtain ⟨failed, other⟩ := start_failure_iff.mpr (.inl failed)
        exact ⟨failure?_bind.mpr (.inl failed), other⟩
    | zeroInRoot directory t found zero =>
        obtain ⟨failed, other⟩ := start_failure_iff.mpr (.inr ⟨directory, t, found, zero, rfl⟩)
        exact ⟨failure?_bind.mpr (.inl failed), other⟩
    | part before after call w' v _ split ran halts =>
        obtain ⟨w, t, began, ran⟩ := bind_eq_ok.mp ran
        obtain ⟨directory, u, -, -, laid⟩ := start_begun began
        obtain ⟨failed, other⟩ :=
          (answerEach_failure_iff (layOut_whole laid) parts.discard_not_mem_calls).mpr
            ⟨before, call, after, w', v, split, ran, halts⟩
        exact ⟨failure?_bind.mpr (.inr ⟨w, t, began, failed⟩), other⟩

end Build

end LibraryWriter

end Foundry
