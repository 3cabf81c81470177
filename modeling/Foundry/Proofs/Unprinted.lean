import Foundry.Proofs.Run

/-! Runs that differ in nothing but what they print to the output: they start in sessions that are the
same but for the output, and end in such sessions with the same result or the same failure. -/
namespace Foundry

namespace Session

/-- A session without what was printed to its output. -/
def unprinted (s : Session) : Session := { s with output := "" }

theorem unprinted_eq_iff {s t : Session} : s.unprinted = t.unprinted ↔ t = { s with output := t.output } := by
  cases s
  cases t
  simp [unprinted, eq_comm]

end Session

namespace Run

/-- How a run ends, without what was printed to the output. -/
def unprinted (run : Run α) (s : Session) : EStateM.Result Failure Session α :=
  match run s with
  | .ok a t => .ok a t.unprinted
  | .error e t => .error e t.unprinted

theorem unprinted_of_ok {run : Run α} (ran : run s = .ok a t) : run.unprinted s = .ok a t.unprinted := by
  simp only [unprinted, ran]

theorem unprinted_of_error {run : Run α} (failed : run s = .error e t) :
    run.unprinted s = .error e t.unprinted := by
  simp only [unprinted, failed]

theorem unprinted_eq_ok {run : Run α} :
    run.unprinted s = .ok a u ↔ ∃ t, run s = .ok a t ∧ t.unprinted = u := by
  cases ran : run s <;> simp [unprinted, ran, and_assoc]

theorem unprinted_eq_error {run : Run α} :
    run.unprinted s = .error e u ↔ ∃ t, run s = .error e t ∧ t.unprinted = u := by
  cases ran : run s <;> simp [unprinted, ran, and_assoc]

/-- From sessions that are the same but for the output the runs end the same but for the output. -/
def Alike (first second : Run α) : Prop :=
  ∀ s t, s.unprinted = t.unprinted → first.unprinted s = second.unprinted t

/-- The output that is there does not matter to the run. -/
abbrev Steady (run : Run α) : Prop := Alike run run

/-- After the same beginning the ends alone matter. -/
theorem unprinted_bind {run : Run α} {next next' : α → Run β}
    (rest : ∀ a t, run s = .ok a t → (next a).unprinted t = (next' a).unprinted t) :
    (run >>= next).unprinted s = (run >>= next').unprinted s := by
  cases ran : run s with
  | ok a t => simpa only [unprinted, bind_of_ok ran] using rest a t ran
  | error e t =>
      rw [unprinted_of_error (bind_eq_error.mpr (.inl ran)), unprinted_of_error (bind_eq_error.mpr (.inl ran))]

theorem steady_pure (a : α) : Steady (pure a) := fun s t same =>
  show EStateM.Result.ok a s.unprinted = .ok a t.unprinted by rw [same]

theorem steady_throw (e : Failure) : Steady (throw e : Run α) := fun s t same =>
  show EStateM.Result.error e s.unprinted = .error e t.unprinted by rw [same]

namespace Alike
variable {first first' second second' : Run α}

theorem symm (alike : Alike first first') : Alike first' first :=
  fun s t same => (alike t s same.symm).symm

theorem trans (alike : Alike first second) (alike' : Alike second third) : Alike first third :=
  fun s t same => (alike s t same).trans (alike' t t rfl)

/-- The second run ends as the first one. -/
theorem of_ok (alike : Alike first first') (same : s.unprinted = s'.unprinted) (ran : first s = .ok a t) :
    ∃ t', first' s' = .ok a t' ∧ t.unprinted = t'.unprinted := by
  have ended := alike s s' same
  rw [unprinted_of_ok ran] at ended
  obtain ⟨t', ran', same'⟩ := unprinted_eq_ok.mp ended.symm
  exact ⟨t', ran', same'.symm⟩

theorem of_error (alike : Alike first first') (same : s.unprinted = s'.unprinted)
    (failed : first s = .error e t) : ∃ t', first' s' = .error e t' ∧ t.unprinted = t'.unprinted := by
  have ended := alike s s' same
  rw [unprinted_of_error failed] at ended
  obtain ⟨t', failed', same'⟩ := unprinted_eq_error.mp ended.symm
  exact ⟨t', failed', same'.symm⟩

theorem bind {next next' : α → Run β} (alike : Alike first first') (rest : ∀ a, Alike (next a) (next' a)) :
    Alike (first >>= next) (first' >>= next') := by
  intro s s' same
  cases ran : first s with
  | ok a t =>
      obtain ⟨t', ran', same'⟩ := alike.of_ok same ran
      simpa only [unprinted, bind_of_ok ran, bind_of_ok ran'] using rest a t t' same'
  | error e t =>
      obtain ⟨t', failed', same'⟩ := alike.of_error same ran
      rw [unprinted_of_error (bind_eq_error.mpr (.inl ran)),
        unprinted_of_error (bind_eq_error.mpr (.inl failed')), same']

theorem tryCatch {handler handler' : Failure → Run α} (alike : Alike first first')
    (handled : ∀ e s t, first s = .error e t → Alike (handler e) (handler' e)) :
    Alike (tryCatch first handler) (tryCatch first' handler') := by
  intro s s' same
  cases ran : first s with
  | ok a t =>
      obtain ⟨t', ran', same'⟩ := alike.of_ok same ran
      rw [unprinted_of_ok (tryCatch_of_ok ran), unprinted_of_ok (tryCatch_of_ok ran'), same']
  | error e t =>
      obtain ⟨t', failed', same'⟩ := alike.of_error same ran
      simpa only [unprinted, tryCatch_of_error ran, tryCatch_of_error failed'] using
        handled e s t ran t t' same'

theorem ensuring {finish finish' : Run Unit} (alike : Alike first first') (finished : Alike finish finish') :
    Alike (ensuring first finish) (ensuring first' finish') := by
  intro s s' same
  cases ran : first s with
  | ok a t =>
      obtain ⟨t', ran', same'⟩ := alike.of_ok same ran
      have ended := finished.bind (fun _ => steady_pure a) t t' same'
      simpa only [unprinted, ensuring_of_ok ran, ensuring_of_ok ran'] using ended
  | error e t =>
      obtain ⟨t', failed', same'⟩ := alike.of_error same ran
      have ended := finished.bind (fun _ => steady_throw (α := α) e) t t' same'
      simpa only [unprinted, ensuring_of_error ran, ensuring_of_error failed'] using ended

theorem ite {c : Prop} [Decidable c] (alike : Alike first first') (alike' : Alike second second') :
    Alike (if c then first else second) (if c then first' else second') := by
  split
  · exact alike
  · exact alike'

/-- What is read of a session is the same in both. -/
theorem get {next next' : Session → Run α}
    (rest : ∀ s output, Alike (next s) (next' { s with output })) :
    Alike (MonadState.get >>= next) (MonadState.get >>= next') := by
  intro s t same
  have there := Session.unprinted_eq_iff.mp same
  have ended := rest s t.output s t same
  rw [← there] at ended
  exact ended

theorem modify {change change' : Session → Session}
    (kept : ∀ s output, (change s).unprinted = (change' { s with output }).unprinted) :
    Alike (modify change : Run PUnit) (modify change') := by
  intro s t same
  have ended := kept s t.output
  rw [← Session.unprinted_eq_iff.mp same] at ended
  simp only [unprinted, modify_apply, ended]

theorem set {s s' : Session} (same : s.unprinted = s'.unprinted) :
    Alike (MonadStateOf.set s : Run PUnit) (MonadStateOf.set s') := by
  intro t t' _
  simp only [unprinted, set_apply, same]

end Alike

theorem steady_ofExcept (result : Except Failure α) : Steady (ofExcept result) := by
  cases result with
  | ok a => exact steady_pure a
  | error e => exact steady_throw e

theorem Alike.forM {items : List α} {body body' : α → Run PUnit}
    (alike : ∀ a, Alike (body a) (body' a)) : Alike (items.forM body) (items.forM body') := by
  induction items with
  | nil => exact steady_pure _
  | cons a rest ih => exact (alike a).bind fun _ => ih

theorem Alike.map (f : α → β) {run run' : Run α} (alike : Alike run run') : Alike (f <$> run) (f <$> run') := by
  rw [← bind_pure_comp, ← bind_pure_comp]
  exact alike.bind fun a => steady_pure (f a)

/-- Printing to the output is like doing nothing. -/
theorem print_alike (line : String) : Alike (print line) (pure ()) := fun s t same =>
  show EStateM.Result.ok () s.unprinted = .ok () t.unprinted by rw [same]

theorem printError_steady (line : String) : Steady (printError line) :=
  .modify fun _ _ => rfl

end Run

end Foundry
