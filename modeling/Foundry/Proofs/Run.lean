import Foundry.Session

/-! Contracts of runs: how the session in which a run ends is related to the one in which it starts.
A contract that composes is kept by every sequence of runs that keep it. -/
namespace Foundry

theorem except_bind_eq_ok {first : Except ε α} {next : α → Except ε β} :
    (first >>= next) = .ok b ↔ ∃ a, first = .ok a ∧ next a = .ok b := by
  cases first <;> simp [bind, Except.bind]

theorem except_bind_eq_error {first : Except ε α} {next : α → Except ε β} :
    (first >>= next) = .error e ↔ first = .error e ∨ ∃ a, first = .ok a ∧ next a = .error e := by
  cases first <;> simp [bind, Except.bind]

theorem except_pure_eq_ok {a b : α} : (pure a : Except ε α) = .ok b ↔ a = b := by
  simp [pure, Except.pure]

theorem except_toOption_eq_some {result : Except ε α} : result.toOption = some a ↔ result = .ok a := by
  cases result <;> simp [Except.toOption]

theorem except_map_eq_ok {f : α → β} {result : Except ε α} :
    result.map f = .ok b ↔ ∃ a, result = .ok a ∧ f a = b := by
  cases result <;> simp [Except.map]

@[simp]
theorem except_mapError_ok (f : ε → ε') (a : α) : (Except.ok a).mapError f = .ok a := rfl

theorem except_mapError_eq_ok {f : ε → ε'} {result : Except ε α} :
    result.mapError f = .ok a ↔ result = .ok a := by
  cases result <;> constructor <;> intro same <;> cases same <;> rfl

/-- A failure that is reported where it ends a build. -/
def Failure.IsFault : Failure → Prop
  | .fault _ => True
  | _ => False

/-- Where there is no result, the failure is of the kind `F`. -/
def FailsAs (F : Failure → Prop) (result : Except Failure α) : Prop :=
  ∀ e, result = .error e → F e

namespace FailsAs
variable {F G : Failure → Prop} {first : Except Failure α}

theorem pure (a : α) : FailsAs F (Pure.pure a) := nofun

theorem bind {next : α → Except Failure β} (failing : FailsAs F first)
    (rest : ∀ a, FailsAs F (next a)) : FailsAs F (first >>= next) := by
  intro e failed
  rcases except_bind_eq_error.mp failed with failed | ⟨a, -, failed⟩
  · exact failing e failed
  · exact rest a e failed

theorem map (f : α → β) (failing : FailsAs F first) : FailsAs F (first.map f) := by
  cases first with
  | ok a => exact nofun
  | error e =>
      intro e' failed
      exact failing e' (congrArg _ (Except.error.inj failed))

theorem mono (weaker : ∀ e, F e → G e) (failing : FailsAs F first) : FailsAs G first :=
  fun e failed => weaker e (failing e failed)

end FailsAs

namespace Run

section Primitives
variable {body : Run α} {handler : Failure → Run α}

@[simp]
theorem get_apply (s : Session) : (get : Run Session) s = .ok s s := rfl

@[simp]
theorem set_apply (s t : Session) : (set t : Run PUnit) s = .ok ⟨⟩ t := rfl

@[simp]
theorem modify_apply (f : Session → Session) (s : Session) :
    (modify f : Run PUnit) s = .ok ⟨⟩ (f s) := rfl

@[simp]
theorem throw_apply (e : Failure) (s : Session) : (throw e : Run α) s = .error e s := rfl

theorem tryCatch_of_ok (ran : body s = .ok a t) : tryCatch body handler s = .ok a t := by
  show EStateM.tryCatch body handler s = .ok a t
  delta EStateM.tryCatch
  simp only [ran]

/-- A handler is run in the session in which the body failed. -/
theorem tryCatch_of_error (failed : body s = .error e t) :
    tryCatch body handler s = handler e t := by
  show EStateM.tryCatch body handler s = handler e t
  delta EStateM.tryCatch
  simp only [failed]
  rfl

end Primitives

/-- The session in which a run ends. -/
def after (run : Run α) (s : Session) : Session :=
  match run s with
  | .ok _ t => t
  | .error _ t => t

/-- The failure with which a run ends, if it fails. -/
def failure? (run : Run α) (s : Session) : Option Failure :=
  match run s with
  | .ok _ _ => none
  | .error e _ => some e

/-- How a session is related to the one after a run that succeeds (`none`) or fails. -/
abbrev Contract := Option Failure → Session → Session → Prop

/-- Doing nothing keeps the contract, and so does going on after a success. -/
class Contract.Composes (R : Contract) : Prop where
  refl (s : Session) : R none s s
  trans {ending : Option Failure} {s t u : Session} : R none s t → R ending t u → R ending s u

/-- The run from this session keeps the contract. -/
def Meets (R : Contract) (run : Run α) (s : Session) : Prop := R (run.failure? s) s (run.after s)

/-- The run keeps the contract from every session. -/
def Obeys (R : Contract) (run : Run α) : Prop := ∀ s, Meets R run s

/-- The result of a run that succeeds, with something that is seen in the session after it. -/
def outcome? (run : Run α) (look : Session → β) (s : Session) : Option (α × β) :=
  match run s with
  | .ok a t => some (a, look t)
  | .error _ _ => none

theorem outcome?_eq_some {run : Run α} {look : Session → β} :
    run.outcome? look s = some (a, b) ↔ ∃ t, run s = .ok a t ∧ look t = b := by
  cases ran : run s <;> simp [outcome?, ran, and_assoc]

/-- The failure of a run that fails, with something that is seen in the session after it. -/
def defeat? (run : Run α) (look : Session → β) (s : Session) : Option (Failure × β) :=
  match run s with
  | .ok _ _ => none
  | .error e t => some (e, look t)

theorem defeat?_eq_some {run : Run α} {look : Session → β} :
    run.defeat? look s = some (e, b) ↔ ∃ t, run s = .error e t ∧ look t = b := by
  cases ran : run s <;> simp [defeat?, ran, and_assoc]

theorem failure?_eq_some {run : Run α} : run.failure? s = some e ↔ ∃ t, run s = .error e t := by
  cases ran : run s <;> simp [failure?, ran]

theorem failure?_of_ok {run : Run α} (ran : run s = .ok a t) : run.failure? s = none := by
  simp [failure?, ran]

theorem failure?_eq_none {run : Run α} : run.failure? s = none ↔ ∃ a t, run s = .ok a t := by
  cases ran : run s <;> simp [failure?, ran]

/-- A failure that is known is the only one that is not of a kind which it is not of. -/
theorem failure?_iff {run : Run α} {K : Failure → Prop} (failed : run.failure? s = some e')
    (other : ¬ K e') : run.failure? s = some e ∧ ¬ K e ↔ e = e' := by
  rw [failed]
  constructor
  · rintro ⟨same, -⟩
    exact (Option.some.inj same).symm
  · rintro rfl
    exact ⟨rfl, other⟩

theorem failure?_bind {run : Run α} {next : α → Run β} : (run >>= next).failure? s = some e ↔
    run.failure? s = some e ∨ ∃ a t, run s = .ok a t ∧ (next a).failure? t = some e := by
  cases ran : run s <;> simp [failure?, bind, EStateM.bind, ran, and_assoc]

theorem failure?_map {run : Run α} (f : α → β) : (f <$> run).failure? s = run.failure? s := by
  cases ran : run s <;> simp [failure?, Functor.map, EStateM.map, ran]

theorem after_of_ok {run : Run α} (ran : run s = .ok a t) : run.after s = t := by
  simp only [after, ran]

theorem after_of_error {run : Run α} (ran : run s = .error e t) : run.after s = t := by
  simp only [after, ran]

theorem Meets.of_ok {R : Contract} {run : Run α} (kept : Meets R run s) (ran : run s = .ok a t) :
    R none s t := by
  simpa only [Meets, failure?, after, ran] using kept

theorem Meets.of_error {R : Contract} {run : Run α} (kept : Meets R run s)
    (ran : run s = .error e t) : R (some e) s t := by
  simpa only [Meets, failure?, after, ran] using kept

theorem bind_eq_ok {run : Run α} {next : α → Run β} :
    (run >>= next) s = .ok b u ↔ ∃ a t, run s = .ok a t ∧ next a t = .ok b u := by
  simp only [bind, EStateM.bind]
  cases ran : run s <;> simp [and_assoc]

theorem bind_eq_error {run : Run α} {next : α → Run β} :
    (run >>= next) s = .error e u ↔
      run s = .error e u ∨ ∃ a t, run s = .ok a t ∧ next a t = .error e u := by
  simp only [bind, EStateM.bind]
  cases ran : run s <;> simp [and_assoc]

theorem bind_fails_iff {first : Run α} {next : α → Run β} :
    (∃ u, (first >>= next) s = .error e u) ↔
      (∃ t, first s = .error e t) ∨ ∃ a t, first s = .ok a t ∧ ∃ u, next a t = .error e u := by
  cases ran : first s <;> simp [bind, EStateM.bind, ran, and_assoc]

theorem bind_of_ok {run : Run α} {next : α → Run β} (ran : run s = .ok a t) :
    (run >>= next) s = next a t := by
  simp only [bind, EStateM.bind, ran]

theorem map_of_ok {run : Run α} {f : α → β} (ran : run s = .ok a t) : (f <$> run) s = .ok (f a) t := by
  simp only [Functor.map, EStateM.map, ran]

theorem map_of_error {run : Run α} {f : α → β} (failed : run s = .error e t) :
    (f <$> run) s = .error e t := by
  simp only [Functor.map, EStateM.map, failed]

theorem after_bind_of_ok {run : Run α} {next : α → Run β} (ran : run s = .ok a t) :
    (run >>= next).after s = (next a).after t := by
  simp only [after, bind, EStateM.bind, ran]

theorem after_bind_of_error {run : Run α} {next : α → Run β} (ran : run s = .error e t) :
    (run >>= next).after s = t := by
  simp only [after, bind, EStateM.bind, ran]

/-- What is made of a result does not matter for what was done. -/
theorem after_bind_pure (run : Run α) (f : α → β) (s : Session) :
    (run >>= fun a => pure (f a)).after s = run.after s := by
  cases ran : run s with
  | ok a t =>
      rw [after_bind_of_ok ran]
      simp only [after, ran, pure, EStateM.pure]
  | error e t =>
      rw [after_bind_of_error ran]
      simp only [after, ran]

theorem pure_eq_ok {a b : α} : (pure a : Run α) s = .ok b t ↔ a = b ∧ s = t := by
  simp [pure, EStateM.pure]

theorem ofExcept_eq_ok {result : Except Failure α} :
    ofExcept result s = .ok a t ↔ result = .ok a ∧ s = t := by
  cases result <;> simp [ofExcept, pure, EStateM.pure]

theorem ofExcept_eq_error {result : Except Failure α} :
    ofExcept result s = .error e t ↔ result = .error e ∧ s = t := by
  cases result <;> simp [ofExcept, pure, EStateM.pure]

section Composition
variable {R : Contract} [R.Composes]

theorem obeys_pure (a : α) : Obeys R (pure a) := fun s => Contract.Composes.refl s

omit [R.Composes] in
theorem obeys_modify {f : Session → Session} (kept : ∀ s, R none s (f s)) :
    Obeys R (modify f : Run PUnit) := kept

theorem obeys_get : Obeys R (get : Run Session) := fun s => Contract.Composes.refl s

theorem Meets.bind {run : Run α} {next : α → Run β} (first : Meets R run s)
    (rest : ∀ a t, run s = .ok a t → Meets R (next a) t) : Meets R (run >>= next) s := by
  cases ran : run s with
  | error e t =>
      have ended := first.of_error ran
      simpa only [Meets, failure?, after, Bind.bind, EStateM.bind, ran] using ended
  | ok a t =>
      have ended := Contract.Composes.trans (first.of_ok ran) (rest a t ran)
      simpa only [Meets, failure?, after, Bind.bind, EStateM.bind, ran] using ended

theorem Obeys.bind {run : Run α} {next : α → Run β} (first : Obeys R run)
    (rest : ∀ a, Obeys R (next a)) : Obeys R (run >>= next) :=
  fun s => (first s).bind fun a t _ => rest a t

theorem Obeys.map {run : Run α} (f : α → β) (kept : Obeys R run) : Obeys R (f <$> run) := by
  rw [← bind_pure_comp]
  exact kept.bind fun a => obeys_pure (f a)

theorem obeys_forM {items : List α} {body : α → Run PUnit} (kept : ∀ a ∈ items, Obeys R (body a)) :
    Obeys R (items.forM body) := by
  induction items with
  | nil => exact obeys_pure _
  | cons a rest ih =>
      exact (kept a (by simp)).bind fun _ => ih fun b member => kept b (by simp [member])

theorem obeys_ofExcept {result : Except Failure α}
    (kept : ∀ e s, result = .error e → R (some e) s s) : Obeys R (ofExcept result) := by
  cases result with
  | ok a => exact obeys_pure a
  | error e => exact fun s => kept e s rfl

end Composition

theorem Obeys.tryCatch {R : Contract} {body : Run α} {handler : Failure → Run α}
    (kept : Obeys R body)
    (handled : ∀ e s t, body s = .error e t →
      R ((handler e).failure? t) s ((handler e).after t)) :
    Obeys R (tryCatch body handler) := by
  intro s
  cases ran : body s with
  | ok a t =>
      simpa only [Meets, failure?, after, tryCatch_of_ok ran] using (kept s).of_ok ran
  | error e t =>
      have ended := handled e s t ran
      simpa only [Meets, failure?, after, tryCatch_of_error ran] using ended

theorem ensuring_of_ok {body : Run α} {finish : Run Unit} (ran : body s = .ok a t) :
    ensuring body finish s = (finish >>= fun _ => pure a) t := by
  simp only [ensuring, ran, bind, EStateM.bind]
  cases finish t <;> rfl

/-- The failure of the body comes after the last step. -/
theorem ensuring_of_error {body : Run α} {finish : Run Unit} (failed : body s = .error e t) :
    ensuring body finish s = (finish >>= fun _ => throw e) t := by
  simp only [ensuring, failed, bind, EStateM.bind]
  cases finish t <;> rfl

theorem ensuring_ok {body : Run α} {finish : Run Unit} (ran : ensuring body finish s = .ok a t) :
    ∃ u, body s = .ok a u ∧ finish u = .ok () t := by
  unfold ensuring at ran
  cases ended : body s with
  | ok b u =>
      cases finished : finish u with
      | ok _ v =>
          simp only [ended, finished] at ran
          cases ran
          exact ⟨u, rfl, finished⟩
      | error e v =>
          simp only [ended, finished] at ran
          contradiction
  | error e u =>
      simp only [ended] at ran
      cases finished : finish u <;> simp [finished] at ran

/-- The last step is taken after a failure too. -/
theorem ensuring_error {body : Run α} {finish : Run Unit}
    (failed : ensuring body finish s = .error e t) :
    (∃ e' u, body s = .error e' u ∧ finish.after u = t) ∨
      ∃ a u, body s = .ok a u ∧ finish u = .error e t := by
  unfold ensuring at failed
  cases ended : body s with
  | ok a u =>
      cases finished : finish u with
      | ok _ v =>
          simp only [ended, finished] at failed
          cases failed
      | error e' v =>
          simp only [ended, finished] at failed
          cases failed
          exact .inr ⟨a, u, rfl, finished⟩
  | error e' u =>
      refine .inl ⟨e', u, rfl, ?_⟩
      simp only [ended] at failed
      cases finished : finish u with
      | ok _ v =>
          simp only [finished] at failed
          cases failed
          exact after_of_ok finished
      | error e'' v =>
          simp only [finished] at failed
          cases failed
          exact after_of_error finished

theorem after_ensuring (body : Run α) (finish : Run Unit) (s : Session) :
    (ensuring body finish).after s = finish.after (body.after s) := by
  simp only [after, ensuring]
  cases body s with
  | ok a t => cases finished : finish t <;> simp [finished]
  | error e t => cases finished : finish t <;> simp [finished]

/-- A failure of the last step counts more than one of the body. -/
theorem failure?_ensuring (body : Run α) (finish : Run Unit) (s : Session) :
    (ensuring body finish).failure? s =
      (finish.failure? (body.after s)).or (body.failure? s) := by
  simp only [failure?, after, ensuring]
  cases body s with
  | ok a t => cases finished : finish t <;> simp [finished]
  | error e t => cases finished : finish t <;> simp [finished]

end Run

end Foundry
