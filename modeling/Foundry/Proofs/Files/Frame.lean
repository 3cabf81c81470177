import Foundry.Build.RunDirectory
import Foundry.Proofs.Unprinted

/-! File operations change the files and the count of drawn names, and nothing else of a session.
They fail with refusals alone, and they do not look at what was printed. -/
namespace Foundry

/-- A failure of an operation on files. -/
def Failure.IsOfFile : Failure → Prop
  | .refusal _ | .zeroInPath => True
  | _ => False

namespace Run

/-- Only files and drawn names change, and failures are of the kind `F`. -/
def filesOnly (F : Failure → Prop) : Contract := fun ending s t =>
  t = { s with files := t.files, draws := t.draws } ∧ ∀ e, ending = some e → F e

instance : (filesOnly F).Composes where
  refl s := ⟨rfl, by simp⟩
  trans := by
    rintro ending s t u ⟨first, _⟩ ⟨second, kind⟩
    refine ⟨?_, kind⟩
    rw [second, first]

/-- A run that works on files alone: it changes nothing else, its failures are of the kind `F`, and what
was printed before does not matter to it. -/
structure OnFiles (F : Failure → Prop) (run : Run α) : Prop where
  obeys : Obeys (filesOnly F) run
  steady : Steady run

namespace OnFiles
variable {F G : Failure → Prop} {run : Run α}

theorem pure (a : α) : OnFiles F (pure a) := ⟨obeys_pure a, steady_pure a⟩

theorem throw {e : Failure} (kind : F e) : OnFiles F (throw e : Run α) :=
  ⟨fun _ => ⟨rfl, by rintro e' ⟨⟩; exact kind⟩, steady_throw e⟩

theorem ofExcept {result : Except Failure α} (kind : FailsAs F result) :
    OnFiles F (ofExcept result) := by
  cases result with
  | ok a => exact pure a
  | error e => exact throw (kind e rfl)

theorem bind {next : α → Run β} (first : OnFiles F run) (rest : ∀ a, OnFiles F (next a)) :
    OnFiles F (run >>= next) :=
  ⟨first.obeys.bind fun a => (rest a).obeys, first.steady.bind fun a => (rest a).steady⟩

/-- All of a session may be read but what was printed. -/
theorem get {next : Session → Run α} (apart : ∀ s output, next { s with output } = next s)
    (kept : ∀ s, OnFiles F (next s)) : OnFiles F (MonadState.get >>= next) :=
  ⟨obeys_get.bind fun s => (kept s).obeys,
    .get fun s output => (apart s output).symm ▸ (kept s).steady⟩

theorem map (f : α → β) (kept : OnFiles F run) : OnFiles F (f <$> run) :=
  ⟨kept.obeys.map f, kept.steady.map f⟩

theorem forM {items : List α} {body : α → Run PUnit} (kept : ∀ a, OnFiles F (body a)) :
    OnFiles F (items.forM body) :=
  ⟨obeys_forM fun a _ => (kept a).obeys, .forM fun a => (kept a).steady⟩

theorem mono (weaker : ∀ e, F e → G e) (kept : OnFiles F run) : OnFiles G run :=
  ⟨fun s => ⟨(kept.obeys s).1, fun e failed => weaker e ((kept.obeys s).2 e failed)⟩, kept.steady⟩

/-- A handler is asked about no other failures than those of the body. -/
theorem tryCatch {handler : Failure → Run α} (body : OnFiles F run)
    (handled : ∀ e, F e → OnFiles G (handler e)) : OnFiles G (tryCatch run handler) := by
  have handles {e s t} (failed : run s = .error e t) : OnFiles G (handler e) :=
    handled e (((body.obeys s).of_error failed).2 e rfl)
  refine ⟨fun s => ?_, body.steady.tryCatch fun e s t failed => (handles failed).steady⟩
  cases ran : run s with
  | ok a t =>
      have ended := ((body.obeys s).of_ok ran).1
      simp only [Meets, failure?, after, tryCatch_of_ok ran]
      exact ⟨ended, by simp⟩
  | error e t =>
      have ended := ((body.obeys s).of_error ran).1
      simpa only [Meets, failure?, after, tryCatch_of_error ran] using
        Contract.Composes.trans ⟨ended, by simp⟩ ((handles ran).obeys t)

theorem failure?_kind (kept : OnFiles F run) (failed : run.failure? s = some e) : F e :=
  (kept.obeys s).2 e failed

theorem no_other_failure (kept : OnFiles F run) : ¬ (run.failure? s = some e ∧ ¬ F e) :=
  fun failed => failed.2 (kept.failure?_kind failed.1)

/-- What fails in another way does so after the run. -/
theorem failure?_bind_iff {next : α → Run β} (kept : OnFiles F run) :
    (run >>= next).failure? s = some e ∧ ¬ F e ↔
      ∃ a t, run s = .ok a t ∧ (next a).failure? t = some e ∧ ¬ F e := by
  rw [failure?_bind]
  constructor
  · rintro ⟨failed | ⟨a, t, ran, failed⟩, other⟩
    · exact absurd (kept.failure?_kind failed) other
    · exact ⟨a, t, ran, failed, other⟩
  · rintro ⟨a, t, ran, failed, other⟩
    exact ⟨.inr ⟨a, t, ran, failed⟩, other⟩

theorem ensuring {finish : Run Unit} (kept : OnFiles F run) (finished : OnFiles F finish) :
    OnFiles F (ensuring run finish) := by
  refine ⟨fun s => ?_, kept.steady.ensuring finished.steady⟩
  obtain ⟨first, kind⟩ := kept.obeys s
  obtain ⟨second, kind'⟩ := finished.obeys (run.after s)
  rw [Meets, after_ensuring, failure?_ensuring]
  refine ⟨by rw [second, first], fun e failed => ?_⟩
  rcases Option.or_eq_some_iff.mp failed with failed | ⟨_, failed⟩
  · exact kind' e failed
  · exact kind e failed

end OnFiles

end Run

namespace Files
open Run

theorem current_filesOnly : OnFiles F current :=
  .get (fun _ _ => rfl) fun _ => .pure _

theorem replace_filesOnly (fs : FileSystem) : OnFiles F (replace fs) :=
  ⟨obeys_modify fun _ => ⟨rfl, by simp⟩, .modify fun _ _ => rfl⟩

theorem refused_filesOnly (r : Refusal) : OnFiles Failure.IsOfFile (throw (.refusal r) : Run α) :=
  .throw trivial

theorem checked_filesOnly (path : String) : OnFiles Failure.IsOfFile (checked path) := by
  unfold checked
  split
  · exact .throw trivial
  · exact .pure _

theorem settle_filesOnly (name : FileName) (result : Except Errno α) :
    OnFiles Failure.IsOfFile (settle name result) := by
  cases result with
  | ok a => exact .pure a
  | error errno => exact refused_filesOnly _

theorem ask_filesOnly (path : String) (question : FileSystem → Except Errno α) :
    OnFiles Failure.IsOfFile (ask path question) :=
  (checked_filesOnly path).bind fun _ => current_filesOnly.bind fun _ => settle_filesOnly _ _

theorem change_filesOnly (path : String) (action : FileSystem → Except Errno FileSystem) :
    OnFiles Failure.IsOfFile (change path action) :=
  (ask_filesOnly path action).bind replace_filesOnly

theorem look_filesOnly (path : String) : OnFiles F (look path) := by
  unfold look
  split
  · exact .pure _
  · refine current_filesOnly.bind fun _ => ?_
    split <;> exact .pure _

theorem lookStrictly_filesOnly (path : String) :
    OnFiles Failure.IsOfFile (lookStrictly path) := by
  unfold lookStrictly
  split
  · exact .pure _
  · refine current_filesOnly.bind fun _ => ?_
    split
    · exact .pure _
    · exact .pure _
    · exact .pure _
    · exact refused_filesOnly _

theorem names_filesOnly (path : String) : OnFiles Failure.IsOfFile (names path) := by
  refine (lookStrictly_filesOnly path).bind fun _ => ?_
  split
  · refine current_filesOnly.bind fun _ => ?_
    split <;> exact .pure _
  · exact .pure _

theorem here_filesOnly : OnFiles F here :=
  current_filesOnly.bind fun _ => .pure _

theorem absolute_filesOnly (path : Path) : OnFiles F (absolute path) :=
  here_filesOnly.bind fun _ => .pure _

theorem ensureDirectory_filesOnly (path : Path) :
    OnFiles Failure.IsOfFile (ensureDirectory path) := by
  refine (checked_filesOnly _).bind fun _ => current_filesOnly.bind fun _ => ?_
  split
  · exact replace_filesOnly _
  · split
    · exact refused_filesOnly _
    · refine (lookStrictly_filesOnly _).bind fun _ => ?_
      split
      · exact .pure _
      · exact refused_filesOnly _

theorem ensureDirectories_filesOnly (path : Path) (depth : Nat) :
    OnFiles Failure.IsOfFile (ensureDirectories path depth) := by
  induction depth generalizing path with
  | zero => exact ensureDirectory_filesOnly path
  | succ depth ih =>
      refine (checked_filesOnly _).bind fun _ => current_filesOnly.bind fun _ => ?_
      split
      · split
        · exact (refused_filesOnly _).bind fun _ => (ih _).bind fun _ => ensureDirectory_filesOnly _
        · exact (ih _).bind fun _ => ensureDirectory_filesOnly _
      · exact ensureDirectory_filesOnly _

theorem makeDirectories_filesOnly (path : Path) :
    OnFiles Failure.IsOfFile (makeDirectories path) :=
  ensureDirectories_filesOnly path _

theorem makeMissing_filesOnly (path : Path) (depth : Nat) :
    OnFiles Failure.IsOfFile (makeMissing path depth) := by
  induction depth generalizing path with
  | zero => exact change_filesOnly _ _
  | succ depth ih =>
      refine (look_filesOnly _).bind fun _ => ?_
      split
      · refine OnFiles.bind ((ih _).tryCatch fun e kind => ?_) fun _ => change_filesOnly _ _
        split
        · exact .pure _
        · exact .throw kind
      · exact change_filesOnly _ _

theorem removeTree_filesOnly (name : FileName) :
    OnFiles Failure.IsOfFile (removeTree name) := by
  refine (checked_filesOnly _).bind fun _ => current_filesOnly.bind fun _ => ?_
  split
  · exact replace_filesOnly _
  · exact (replace_filesOnly _).bind fun _ => refused_filesOnly _
  · refine (look_filesOnly _).bind fun _ => ?_
    split <;> exact refused_filesOnly _
  · exact refused_filesOnly _

theorem discardTree_filesOnly (path : String) : OnFiles F (discardTree path) := by
  unfold discardTree
  split
  · exact .pure _
  · refine current_filesOnly.bind fun _ => ?_
    split
    · exact replace_filesOnly _
    · exact .pure _

theorem discardFile_filesOnly (path : String) :
    OnFiles Failure.IsOfFile (discardFile path) := by
  refine (checked_filesOnly _).bind fun _ => current_filesOnly.bind fun _ => ?_
  split
  · exact replace_filesOnly _
  · exact .pure _
  · exact refused_filesOnly _

theorem same_filesOnly (first second : String) :
    OnFiles Failure.IsOfFile (same first second) := by
  refine (checked_filesOnly _).bind fun _ => current_filesOnly.bind fun _ => ?_
  split
  · exact .pure _
  · refine (checked_filesOnly _).bind fun _ => ?_
    split <;> exact .pure _

theorem copy_filesOnly (source : String) (target : FileName) :
    OnFiles Failure.IsOfFile (copy source target) := by
  refine (same_filesOnly _ _).bind fun _ => ?_
  split
  focus refine (refused_filesOnly _).bind fun _ => ?_
  all_goals
    refine (ask_filesOnly _ _).bind fun _ => (checked_filesOnly _).bind fun _ =>
      current_filesOnly.bind fun _ => ?_
    split
    · exact replace_filesOnly _
    · refine (look_filesOnly _).bind fun _ => ?_
      split <;> exact refused_filesOnly _
    · exact refused_filesOnly _

theorem leadsInto_filesOnly (source target : String) : OnFiles F (leadsInto source target) :=
  (absolute_filesOnly _).bind fun _ => (absolute_filesOnly _).bind fun _ => .pure _

theorem moveByCopy_filesOnly (source target place : String) :
    OnFiles Failure.IsOfFile (moveByCopy source target place) := by
  refine (look_filesOnly _).bind fun _ => ?_
  split
  · refine (leadsInto_filesOnly _ _).bind fun _ => ?_
    split
    · exact (refused_filesOnly _).bind fun _ => (makeMissing_filesOnly _ _).bind fun _ =>
        change_filesOnly _ _
    · exact (makeMissing_filesOnly _ _).bind fun _ => change_filesOnly _ _
  · exact (look_filesOnly _).bind fun _ => (copy_filesOnly _ _).bind fun _ => change_filesOnly _ _

theorem move_filesOnly (source target : String) :
    OnFiles Failure.IsOfFile (move source target) := by
  have going : ∀ place, OnFiles Failure.IsOfFile (move.go source target place) := by
    intro place
    refine (checked_filesOnly _).bind fun _ => (checked_filesOnly _).bind fun _ =>
      current_filesOnly.bind fun _ => ?_
    split
    · exact replace_filesOnly _
    · exact moveByCopy_filesOnly _ _ _
  refine (look_filesOnly _).bind fun _ => ?_
  split
  · refine (same_filesOnly _ _).bind fun _ => ?_
    split
    · exact change_filesOnly _ _
    · refine (look_filesOnly _).bind fun _ => ?_
      split
      · exact refused_filesOnly _
      · exact going _
  · exact going _

theorem draw_filesOnly : OnFiles F draw :=
  OnFiles.bind ⟨obeys_modify fun _ => ⟨rfl, by simp⟩, .modify fun _ _ => rfl⟩ fun _ =>
    .get (fun _ _ => rfl) fun _ => .pure _

theorem makeDrawn_filesOnly (name : String → String)
    (make : FileSystem → String → Except Errno FileSystem) (limit : Nat) :
    OnFiles Failure.IsOfFile (makeDrawn name make limit) := by
  induction limit with
  | zero => exact refused_filesOnly _
  | succ limit ih =>
      refine draw_filesOnly.bind fun _ => (checked_filesOnly _).bind fun _ =>
        current_filesOnly.bind fun _ => ?_
      split
      · exact (replace_filesOnly _).bind fun _ => .pure _
      · exact ih
      · exact refused_filesOnly _

theorem makeTemporaryDirectory_filesOnly (stem : String) :
    OnFiles Failure.IsOfFile (makeTemporaryDirectory stem) :=
  .get (fun _ _ => rfl) fun _ => makeDrawn_filesOnly _ _ _

theorem makeTemporaryFile_filesOnly (directory stem tail : String) :
    OnFiles Failure.IsOfFile (makeTemporaryFile directory stem tail) :=
  (absolute_filesOnly _).bind fun _ => (makeDrawn_filesOnly _ _ _).bind fun _ =>
    (absolute_filesOnly _).bind fun _ => .pure _

end Files

end Foundry
