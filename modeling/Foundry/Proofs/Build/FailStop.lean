import Foundry.Proofs.Build.Produce

/-! A build stops at the first process that fails, and where that process was started decides how: a
failed link is reported and makes no artifact, and any other failed tool is the failure of the
build. -/
namespace Foundry.Job
open Run

/-- How many processes were started before the link, if a build comes to its link. -/
def linkStart? (job : Job) (s : Session) : Option Nat :=
  match job.producer, job.prepareLink s with
  | .ok .linked, .ok _ t => some t.started.length
  | _, _ => none

/-- Whether the start with this number is one of the link. -/
def StartedByLink (job : Job) (s : Session) (number : Nat) : Prop :=
  ∃ first, job.linkStart? s = some first ∧ first ≤ number

/-- How producing an artifact ends. -/
inductive Ends (job : Job) (s : Session) : EStateM.Result Failure Session (Option String) → Prop where
  | produced (path t) : (∀ p ∈ s.processesSince t, p.exitCode = 0) →
      t.report.errors = s.report.errors → Ends job s (.ok (some path) t)
  | refused (e t) : (∀ p ∈ s.processesSince t, p.exitCode = 0) →
      t.report.errors = s.report.errors → Ends job s (.error e t)
  | toolFailed (t earlier) (last : Process) : s.processesSince t = earlier ++ [last] →
      (∀ p ∈ earlier, p.exitCode = 0) → last.exitCode ≠ 0 →
      t.report.errors = s.report.errors → ¬ job.StartedByLink s (t.started.length - 1) →
      Ends job s (.error (.fault (.toolFailed last.tool last.exitCode)) t)
  | linkFailed (t earlier) (last : Process) : s.processesSince t = earlier ++ [last] →
      (∀ p ∈ earlier, p.exitCode = 0) → last.exitCode ≠ 0 →
      t.report.errors = s.report.errors ++ [Notice.linkError "link"] →
      job.StartedByLink s (t.started.length - 1) → Ends job s (.ok none t)

variable {job : Job} {setup : Setup} {s mid : Session}

/-- A build that fails before its link fails as its first failed tool says. -/
theorem Ends.of_error {run : Run α} (kept : Obeys job.proceeds run) (failed : run s = .error e t)
    (linkless : job.linkStart? s = none) : Ends job s (.error e t) := by
  obtain ⟨⟨host, errors, started, ends⟩, _⟩ := (kept s).of_error failed
  generalize processes : s.processesSince t = row at ends
  cases ends with
  | passed _ _ kind passed => exact .refused e t (processes ▸ passed) errors
  | failed earlier last passed nonzero =>
      refine .toolFailed t earlier last processes passed nonzero errors ?_
      simp [StartedByLink, linkless]

theorem Ends.of_proceeds {run : Run (Option String)} (kept : Obeys job.proceeds run)
    (artifact : ∀ r t, run s = .ok r t → r.isSome) (linkless : job.linkStart? s = none) :
    Ends job s (run s) := by
  cases ran : run s with
  | ok r t =>
      obtain ⟨⟨host, errors, started, ends⟩, _⟩ := (kept s).of_ok ran
      obtain ⟨path, rfl⟩ := Option.isSome_iff_exists.mp (artifact r t ran)
      exact .produced path t ends.of_none errors
  | error e t => exact .of_error kept ran linkless

theorem produceBitcode_isSome (ran : job.produceBitcode s = .ok r t) : r.isSome := by
  obtain ⟨output, _, _, rest⟩ := bind_eq_ok.mp ran
  obtain ⟨session, _, _, rest⟩ := bind_eq_ok.mp rest
  obtain ⟨_, _, _, rest⟩ := bind_eq_ok.mp rest
  obtain ⟨rfl, _⟩ := pure_eq_ok.mp rest
  rfl

theorem produceLibrary_isSome (ran : job.produceLibrary s = .ok r t) : r.isSome := by
  obtain ⟨library, _, _, rest⟩ := bind_eq_ok.mp ran
  obtain ⟨_, _, _, rest⟩ := bind_eq_ok.mp rest
  obtain ⟨_, _, _, rest⟩ := bind_eq_ok.mp rest
  obtain ⟨path, _, _, rest⟩ := bind_eq_ok.mp rest
  obtain ⟨rfl, _⟩ := pure_eq_ok.mp rest
  rfl

theorem prepareLink_of_linked (linked : job.producer = .ok .linked)
    (ready : job.prepareLink s = .ok (setup, inputs) mid) :
    job.linkStart? s = some mid.started.length := by
  simp only [linkStart?, linked, ready]

/-- What the link does to a build that has come to it. -/
theorem Ends.of_link (linked : job.producer = .ok .linked)
    (ready : job.prepareLink s = .ok (setup, inputs) mid) :
    Ends job s (setup.finishLink inputs mid) := by
  obtain ⟨⟨host, errors, started, ends⟩, _⟩ := (prepareLink_proceeds linked s).of_ok ready
  have passed := ends.of_none
  cases planned : setup.planLink inputs with
  | error e =>
      have ended : setup.finishLink inputs mid = .error e mid :=
        bind_eq_error.mpr (.inl (ofExcept_eq_error.mpr ⟨planned, rfl⟩))
      exact ended ▸ .refused e mid passed errors
  | ok plan =>
      have linking : setup.finishLink inputs mid = setup.carryOut plan mid := by
        simp only [Setup.finishLink, planned]
        rfl
      obtain ⟨_, linkStarted, linkEnds⟩ := setup.carryOut_ends plan mid
      -- what the link starts stands behind what was started for its inputs
      have whole := Session.processesSince_trans host started linkStarted
      rw [linking]
      generalize ran : setup.carryOut plan mid = result at linkEnds
      cases linkEnds with
      | linked t linkPassed linkErrors =>
          rw [after_of_ok ran] at whole
          refine .produced _ t ?_ (linkErrors.trans errors)
          exact whole ▸ fun p member => (List.mem_append.mp member).elim (passed p) (linkPassed p)
      | refused e t linkPassed linkErrors other =>
          rw [after_of_error ran] at whole
          refine .refused e t ?_ (linkErrors.trans errors)
          exact whole ▸ fun p member => (List.mem_append.mp member).elim (passed p) (linkPassed p)
      | failed t earlier last processes linkPassed nonzero linkErrors =>
          rw [after_of_ok ran, processes, ← List.append_assoc] at whole
          refine .linkFailed t _ last whole ?_ nonzero (by rw [linkErrors, errors]) ?_
          · exact fun p member => (List.mem_append.mp member).elim (passed p) (linkPassed p)
          · have number := Session.length_processesSince mid t
            rw [processes, List.length_append, List.length_singleton] at number
            exact ⟨_, prepareLink_of_linked linked ready, by omega⟩

theorem produceBy_ends {way : Producer} (chosen : job.producer = .ok way) :
    Ends job s (job.produceBy way s) := by
  cases way with
  | bitcode =>
      exact .of_proceeds produceBitcode_proceeds (fun _ _ => produceBitcode_isSome)
        (by simp [linkStart?, chosen])
  | library =>
      exact .of_proceeds produceLibrary_proceeds (fun _ _ => produceLibrary_isSome)
        (by simp [linkStart?, chosen])
  | linked =>
      cases ready : job.prepareLink s with
      | ok prepared mid =>
          have linking : job.produceBy .linked s = prepared.1.finishLink prepared.2 mid := by
            simp only [produceBy, produceLinked, bind, EStateM.bind, ready]
          exact linking ▸ .of_link chosen ready
      | error e t =>
          have ended : job.produceBy .linked s = .error e t := bind_eq_error.mpr (.inl ready)
          exact ended ▸ .of_error (prepareLink_proceeds chosen) ready (by
            simp [linkStart?, chosen, ready])

theorem Proceeds.growing {run : Run α} (kept : Obeys job.proceeds run) : Obeys growing run :=
  fun s => (kept s).1.2.2.1

theorem produceBy_growing {way : Producer} (chosen : job.producer = .ok way) :
    Obeys growing (job.produceBy way) := by
  cases way with
  | bitcode => exact Proceeds.growing produceBitcode_proceeds
  | library => exact Proceeds.growing produceLibrary_proceeds
  | linked =>
      refine (Proceeds.growing (prepareLink_proceeds chosen)).bind fun prepared => ?_
      exact (obeys_ofExcept fun _ _ _ => List.prefix_refl _).bind fun plan t =>
        (prepared.1.carryOut_ends plan t).2.1

/-- What producing does after the choice of a way: that way, and then the run directory goes. -/
theorem produce_of_way {way : Producer} (chosen : job.producer = .ok way) :
    job.produce s = Run.ensuring (job.produceBy way) RunDirectory.remove s := by
  simp only [produce, chosen]
  rfl

/-- How a build ends is not changed by what starts nothing and reports nothing. -/
theorem Ends.ok_of_same (ends : Ends job s (.ok r t)) (started : u.started = t.started)
    (report : u.report = t.report) : Ends job s (.ok r u) := by
  have processes : s.processesSince u = s.processesSince t := by
    simp only [Session.processesSince, started]
  cases ends with
  | produced path _ passed errors => exact .produced path u (processes ▸ passed) (report ▸ errors)
  | linkFailed _ earlier last same passed nonzero errors link =>
      exact .linkFailed u earlier last (processes.trans same) passed nonzero (report ▸ errors)
        (started ▸ link)

theorem Ends.error_of_same (ends : Ends job s (.error e t)) (started : u.started = t.started)
    (report : u.report = t.report) : Ends job s (.error e u) := by
  have processes : s.processesSince u = s.processesSince t := by
    simp only [Session.processesSince, started]
  cases ends with
  | refused _ _ passed errors => exact .refused e u (processes ▸ passed) (report ▸ errors)
  | toolFailed _ earlier last same passed nonzero errors link =>
      exact .toolFailed u earlier last (processes.trans same) passed nonzero (report ▸ errors)
        (started ▸ link)

theorem produce_ends (job : Job) (s : Session) :
    s.started <+: (job.produce.after s).started ∧ Ends job s (job.produce s) := by
  cases chosen : job.producer with
  | error e =>
      have ended : job.produce s = .error e s :=
        bind_eq_error.mpr (.inl (ofExcept_eq_error.mpr ⟨chosen, rfl⟩))
      rw [after_of_error ended, ended]
      exact ⟨List.prefix_refl _, .refused e s (by simp [processesSince_self]) rfl⟩
  | ok way =>
      have started := produceBy_growing chosen s
      have ends : Ends job s (job.produceBy way s) := produceBy_ends chosen
      simp only [after, produce_of_way chosen, ensuring]
      cases ran : job.produceBy way s with
      | ok r t =>
          obtain ⟨u, removed, _, same, report⟩ := RunDirectory.remove_ok t
          simp only [removed]
          have grown : s.started <+: t.started := started.of_ok ran
          exact ⟨same ▸ grown, (ran ▸ ends : Ends job s (.ok r t)).ok_of_same same report⟩
      | error e t =>
          obtain ⟨u, removed, _, same, report⟩ := RunDirectory.remove_ok t
          simp only [removed]
          have grown : s.started <+: t.started := started.of_error ran
          exact ⟨same ▸ grown, (ran ▸ ends : Ends job s (.error e t)).error_of_same same report⟩

/-- Every process of a build but the last one exits with zero. If the last one does not, the build
ends with the one error of a failed link and no artifact where the link started it, and else with
the failure of exactly that tool and no error. If all of them do, a build that does not fail has an
artifact and no error. -/
theorem produce_stops_at_failure (job : Job) (s : Session) :
    let t := job.produce.after s
    let processes := s.processesSince t
    let byLink := job.StartedByLink s (t.started.length - 1)
    s.started <+: t.started ∧
      (∀ p ∈ processes.dropLast, p.exitCode = 0) ∧
      (∀ last, processes.getLast? = some last → last.exitCode ≠ 0 →
        (byLink → job.produce s = .ok none t ∧
          t.report.errors = s.report.errors ++ [Notice.linkError "link"]) ∧
        (¬ byLink → job.produce s = .error (.fault (.toolFailed last.tool last.exitCode)) t ∧
          t.report.errors = s.report.errors)) ∧
      ((∀ p ∈ processes, p.exitCode = 0) → ∀ r, job.produce s = .ok r t →
        r.isSome ∧ t.report.errors = s.report.errors) := by
  obtain ⟨started, ends⟩ := produce_ends job s
  refine ⟨started, ?_⟩
  generalize ran : job.produce s = result at ends
  -- in the first two ways no process failed, in the other two the last one did and no other
  cases ends with
  | produced path t passed errors =>
      simp only [after_of_ok ran]
      refine ⟨fun p member => passed p (List.dropLast_subset _ member), ?_, ?_⟩
      · intro last found nonzero
        exact absurd (passed last (List.mem_of_getLast? found)) nonzero
      · rintro _ r ⟨⟩
        exact ⟨rfl, errors⟩
  | refused e t passed errors =>
      simp only [after_of_error ran]
      refine ⟨fun p member => passed p (List.dropLast_subset _ member), ?_, ?_⟩
      · intro last found nonzero
        exact absurd (passed last (List.mem_of_getLast? found)) nonzero
      · rintro _ r ⟨⟩
  | toolFailed t earlier last processes passed nonzero errors link =>
      simp only [after_of_error ran, processes, List.dropLast_concat, List.getLast?_concat]
      refine ⟨passed, ?_, ?_⟩
      · rintro _ ⟨⟩ _
        exact ⟨fun byLink => absurd byLink link, fun _ => ⟨rfl, errors⟩⟩
      · exact fun all => absurd (all last (by simp)) nonzero
  | linkFailed t earlier last processes passed nonzero errors link =>
      simp only [after_of_ok ran, processes, List.dropLast_concat, List.getLast?_concat]
      refine ⟨passed, ?_, ?_⟩
      · rintro _ ⟨⟩ _
        exact ⟨fun _ => ⟨trivial, errors⟩, fun other => absurd link other⟩
      · exact fun all => absurd (all last (by simp)) nonzero

end Foundry.Job
