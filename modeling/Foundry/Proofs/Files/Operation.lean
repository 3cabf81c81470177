import Foundry.Files
import Foundry.Proofs.FileSystem.Operation
import Foundry.Proofs.Run

/-! What an operation on files found and did in a run where it succeeded. -/
namespace Foundry.Files
open Run FileSystem

variable {s t : Session}

@[simp]
theorem current_apply (s : Session) : current s = .ok s.files s := rfl

theorem current_ok : current s = .ok fs t ↔ s.files = fs ∧ s = t := by
  simp

theorem replace_ok : replace fs s = .ok u t ↔ { s with files := fs } = t := by
  simp [replace]

theorem checked_ok (ran : checked path s = .ok u t) : t = s ∧ holdsZero path = false := by
  unfold checked at ran
  split at ran
  · nomatch ran
  · rename_i clean
    exact ⟨(pure_eq_ok.mp ran).2.symm, by simpa using clean⟩

theorem settle_ok {result : Except Errno α} : settle name result s = .ok a t ↔ result = .ok a ∧ s = t := by
  cases result with
  | ok b => simp [settle, pure, EStateM.pure]
  | error errno => simp [settle]

theorem ask_ok {question : FileSystem → Except Errno α} (ran : ask path question s = .ok a t) :
    question s.files = .ok a ∧ t = s := by
  obtain ⟨_, u, clean, asked⟩ := bind_eq_ok.mp ran
  obtain ⟨fs, v, found, settled⟩ := bind_eq_ok.mp asked
  obtain rfl := (checked_ok clean).1
  obtain ⟨rfl, rfl⟩ := current_ok.mp found
  obtain ⟨answer, rfl⟩ := settle_ok.mp settled
  exact ⟨answer, rfl⟩

theorem change_ok {action : FileSystem → Except Errno FileSystem}
    (ran : change path action s = .ok u t) :
    ∃ fs, action s.files = .ok fs ∧ t = { s with files := fs } := by
  obtain ⟨fs, v, asked, replaced⟩ := bind_eq_ok.mp ran
  obtain ⟨done, rfl⟩ := ask_ok asked
  exact ⟨fs, done, (replace_ok.mp replaced).symm⟩

/-- What asking comes to. -/
theorem ask_apply (path : String) (question : FileSystem → Except Errno α) (s : Session) :
    ask path question s =
      if holdsZero path then .error .zeroInPath s
      else match question s.files with
        | .ok a => .ok a s
        | .error errno => .error (.refusal (.system errno (.text path))) s := by
  unfold ask checked
  split
  · rfl
  · simp only [bind, EStateM.bind, pure, EStateM.pure, current_apply]
    cases question s.files <;> rfl

/-- Asking in vain changes nothing. -/
theorem ask_error {question : FileSystem → Except Errno α} (failed : ask path question s = .error e t) :
    t = s := by
  rw [ask_apply] at failed
  split at failed
  · cases failed
    rfl
  · split at failed <;> cases failed
    rfl

theorem change_error {action : FileSystem → Except Errno FileSystem}
    (failed : change path action s = .error e t) : t = s := by
  rcases bind_eq_error.mp failed with refused | ⟨fs, u, asked, replaced⟩
  · exact ask_error refused
  · cases replaced

/-- What is seen is there, and where nothing is seen no status can be had. -/
theorem look_ok (ran : look path s = .ok seen t) :
    t = s ∧ (∀ entry, seen = some entry → s.files.stat path = .ok entry) ∧
      (seen = none → holdsZero path = false → ∃ errno, s.files.stat path = .error errno) := by
  unfold look at ran
  split at ran
  · rename_i zero
    obtain ⟨rfl, rfl⟩ := pure_eq_ok.mp ran
    exact ⟨rfl, by simp, fun _ clean => by simp [clean] at zero⟩
  · obtain ⟨fs, v, found, told⟩ := bind_eq_ok.mp ran
    obtain ⟨rfl, rfl⟩ := current_ok.mp found
    cases status : s.files.stat path with
    | ok entry =>
        simp only [status] at told
        obtain ⟨rfl, rfl⟩ := pure_eq_ok.mp told
        exact ⟨rfl, by simp, by simp⟩
    | error errno =>
        simp only [status] at told
        obtain ⟨rfl, rfl⟩ := pure_eq_ok.mp told
        exact ⟨rfl, by simp, fun _ _ => ⟨errno, rfl⟩⟩

theorem look_total (path : String) (s : Session) : ∃ seen, look path s = .ok seen s := by
  unfold look
  split
  · exact ⟨none, rfl⟩
  · cases status : s.files.stat path with
    | ok entry =>
        exact ⟨some entry, by simp [bind, EStateM.bind, pure, EStateM.pure, status]⟩
    | error errno =>
        exact ⟨none, by simp [bind, EStateM.bind, pure, EStateM.pure, status]⟩

theorem look_of_stat {path : String} (whole : holdsZero path = false)
    (status : s.files.stat path = .ok entry) : look path s = .ok (some entry) s := by
  simp [look, whole, bind, EStateM.bind, pure, EStateM.pure, status]

theorem lookStrictly_ok (ran : lookStrictly path s = .ok seen t) :
    t = s ∧ (∀ entry, seen = some entry → s.files.stat path = .ok entry) ∧
      (seen = none → holdsZero path = false → ∃ errno, s.files.stat path = .error errno) := by
  unfold lookStrictly at ran
  split at ran
  · rename_i zero
    obtain ⟨rfl, rfl⟩ := pure_eq_ok.mp ran
    exact ⟨rfl, by simp, fun _ clean => by simp [clean] at zero⟩
  · obtain ⟨fs, v, found, told⟩ := bind_eq_ok.mp ran
    obtain ⟨rfl, rfl⟩ := current_ok.mp found
    cases status : s.files.stat path with
    | ok entry =>
        simp only [status] at told
        obtain ⟨rfl, rfl⟩ := pure_eq_ok.mp told
        exact ⟨rfl, by simp, by simp⟩
    | error errno =>
        cases errno with
        | noEntry | notDirectory =>
            simp only [status] at told
            obtain ⟨rfl, rfl⟩ := pure_eq_ok.mp told
            exact ⟨rfl, by simp, fun _ _ => ⟨_, rfl⟩⟩
        | _ =>
            simp only [status] at told
            nomatch told

/-- What is seen strictly is what is seen. -/
theorem look_of_lookStrictly (ran : lookStrictly path s = .ok seen t) : look path s = .ok seen s := by
  unfold lookStrictly at ran
  unfold look
  split at ran
  · rename_i zero
    obtain ⟨rfl, -⟩ := pure_eq_ok.mp ran
    rw [if_pos zero]
    rfl
  · rename_i clean
    obtain ⟨fs, v, found, told⟩ := bind_eq_ok.mp ran
    obtain ⟨rfl, rfl⟩ := current_ok.mp found
    rw [if_neg clean, bind_eq_ok]
    refine ⟨s.files, s, current_ok.mpr ⟨rfl, rfl⟩, ?_⟩
    cases status : s.files.stat path with
    | ok entry =>
        simp only [status] at told
        obtain ⟨rfl, -⟩ := pure_eq_ok.mp told
        rfl
    | error errno =>
        cases errno with
        | noEntry | notDirectory =>
            simp only [status] at told
            obtain ⟨rfl, -⟩ := pure_eq_ok.mp told
            rfl
        | _ =>
            simp only [status] at told
            nomatch told

/-- Two paths that can be looked at are the same if they lead to one location. -/
theorem same_ok (ran : same first second s = .ok answer t) :
    t = s ∧ ∀ entry entry', s.files.stat first = .ok entry → s.files.stat second = .ok entry' →
      answer = decide (spot s.files.here first = spot s.files.here second) := by
  obtain ⟨_, u, clean, rest⟩ := bind_eq_ok.mp ran
  obtain ⟨fs, v, found, told⟩ := bind_eq_ok.mp rest
  obtain rfl := (checked_ok clean).1
  obtain ⟨rfl, rfl⟩ := current_ok.mp found
  cases status : u.files.stat first with
  | error errno =>
      simp only [status] at told
      obtain ⟨rfl, rfl⟩ := pure_eq_ok.mp told
      exact ⟨rfl, by simp⟩
  | ok entry =>
      simp only [status] at told
      obtain ⟨_, w, clean', compared⟩ := bind_eq_ok.mp told
      obtain rfl := (checked_ok clean').1
      have located := (FileSystem.stat_ok status).1
      cases status' : w.files.stat second with
      | error errno =>
          simp only [status'] at compared
          obtain ⟨rfl, rfl⟩ := pure_eq_ok.mp compared
          exact ⟨rfl, by simp⟩
      | ok entry' =>
          simp only [status', located, (FileSystem.stat_ok status').1] at compared
          obtain ⟨rfl, rfl⟩ := pure_eq_ok.mp compared
          exact ⟨rfl, fun _ _ _ _ => rfl⟩

/-- A copy reads a file and writes its content somewhere else. -/
theorem copy_ok (ran : copy source target s = .ok u t) :
    ∃ content fs, s.files.read source = .ok content ∧ s.files.write target.plain content = .ok fs ∧
      spot s.files.here source ≠ spot s.files.here target.plain ∧ t = { s with files := fs } := by
  obtain ⟨alike, v, compared, rest⟩ := bind_eq_ok.mp ran
  obtain ⟨rfl, meaning⟩ := same_ok compared
  cases alike with
  | true => nomatch rest
  | false =>
      obtain ⟨content, w, asked, writing⟩ := bind_eq_ok.mp rest
      obtain ⟨readable, rfl⟩ := ask_ok asked
      obtain ⟨_, x, clean, written⟩ := bind_eq_ok.mp writing
      obtain rfl := (checked_ok clean).1
      obtain ⟨fs, y, found, settled⟩ := bind_eq_ok.mp written
      obtain ⟨rfl, rfl⟩ := current_ok.mp found
      cases done : x.files.write target.plain content with
      | ok fs =>
          simp only [done] at settled
          refine ⟨content, fs, readable, done, fun one => ?_, (replace_ok.mp settled).symm⟩
          obtain ⟨entry, status, -⟩ := except_bind_eq_ok.mp readable
          have stands := (FileSystem.stat_ok status).2
          have status' := FileSystem.stat_of_write done (one ▸ stands)
          simpa [one] using meaning entry entry status status'
      | error errno =>
          cases errno with
          | isDirectory =>
              simp only [done] at settled
              obtain ⟨seen, z, -, refused⟩ := bind_eq_ok.mp settled
              split at refused <;> nomatch refused
          | _ =>
              simp only [done] at settled
              nomatch settled

theorem change_whole {path : String} {action : FileSystem → Except Errno FileSystem}
    (ran : change path action s = .ok u t) : holdsZero path = false := by
  obtain ⟨_, _, asked, -⟩ := bind_eq_ok.mp ran
  obtain ⟨_, _, clean, -⟩ := bind_eq_ok.mp asked
  exact (checked_ok clean).2

theorem checked_of_whole {path : String} (whole : holdsZero path = false) (s : Session) :
    checked path s = .ok () s := by
  simp [checked, whole, pure, EStateM.pure]

theorem lookStrictly_of_locate {path : String} (whole : holdsZero path = false)
    (located : s.files.locate path = .ok place) :
    lookStrictly path s = .ok (s.files.entry? place) s := by
  rw [lookStrictly, whole, if_neg Bool.false_ne_true,
    bind_of_ok (current_apply s)]
  cases stands : s.files.entry? place with
  | none => simp [stat, bind, Except.bind, located, stands, pure, EStateM.pure]
  | some entry => simp [stat, bind, Except.bind, located, stands, pure, EStateM.pure]

theorem read_of_locate {path : String} (whole : holdsZero path = false)
    (located : s.files.locate path = .ok place)
    (stands : s.files.entry? place = some (.file content)) : read path s = .ok content s := by
  have readable : s.files.read path = .ok content := by
    simp [FileSystem.read, stat, bind, Except.bind, located, stands]
  rw [read, ask, bind_of_ok (checked_of_whole whole s), bind_of_ok (current_apply s), readable]
  rfl

end Foundry.Files
