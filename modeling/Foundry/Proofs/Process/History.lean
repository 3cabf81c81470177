import Foundry.Process.Executor
import Foundry.Proofs.Run

/-! The processes of a run, each with the exit code it ended with, and the contract of a run that
stops at the first process that fails. -/
namespace Foundry

/-- The exit code of a start, be it that of a tool that could not be started. -/
def Outcome.exitCode : Outcome → Int
  | .notStarted _ => Executor.notStarted
  | .finished code _ _ => code

/-- A process that was started, and the exit code it ended with. -/
structure Process where
  argv : List String
  exitCode : Int
deriving DecidableEq, Repr

/-- The tool that a process runs. -/
def Process.tool (p : Process) : String := p.argv.headD ""

/-- The answers to a row of starts, of which each is given knowing the starts before it. -/
def Toolset.answers (tools : Toolset) (history : List (List String)) :
    List Start → List (List String × Outcome)
  | [] => []
  | start :: rest =>
    (start.argv, tools.respond history start.argv) :: tools.answers (history ++ [start.argv]) rest

/-- The processes of a row of starts, of which each is answered knowing the ones before it. -/
def Toolset.processes (tools : Toolset) (history : List (List String)) : List Start → List Process
  | [] => []
  | start :: rest =>
    ⟨start.argv, (tools.respond history start.argv).exitCode⟩ ::
      tools.processes (history ++ [start.argv]) rest

/-- The processes that were started after `before` and up to `after`. -/
def Session.processesSince (before after : Session) : List Process :=
  before.host.tools.processes (before.started.map (·.argv))
    (after.started.drop before.started.length)

/-- Tools that all succeed and write empty files. -/
def Toolset.obliging : Toolset := ⟨fun _ _ => .finished 0 [] []⟩

/-- A session before anything has happened, with obliging tools and an empty temporary directory. -/
def Session.blank : Session where
  host := { temporary := "/tmp", home := "/home", triple := "", llvm := none, tools := .obliging }
  files := { entries := [(["tmp"], .directory), (["work"], .directory)], here := ["work"] }

/-- How a run ends after these processes: the first failed one is the last, and it is the failure of
the run; other failures are of the kind `F`. -/
inductive EndsAfter (F : Failure → Prop) : Option Failure → List Process → Prop where
  | passed (ending) (processes) : (∀ e, ending = some e → F e) →
      (∀ p ∈ processes, p.exitCode = 0) → EndsAfter F ending processes
  | failed (earlier) (last : Process) : (∀ p ∈ earlier, p.exitCode = 0) → last.exitCode ≠ 0 →
      EndsAfter F (some (.fault (.toolFailed last.tool last.exitCode))) (earlier ++ [last])

namespace Toolset

theorem answers_append (tools : Toolset) (history : List (List String)) (first second : List Start) :
    tools.answers history (first ++ second) =
      tools.answers history first ++ tools.answers (history ++ first.map (·.argv)) second := by
  induction first generalizing history with
  | nil => simp [answers]
  | cons start rest ih => simp [answers, ih]

theorem processes_eq_map (tools : Toolset) (history : List (List String)) (row : List Start) :
    tools.processes history row =
      (tools.answers history row).map fun (argv, outcome) => ⟨argv, outcome.exitCode⟩ := by
  induction row generalizing history with
  | nil => rfl
  | cons start rest ih => simp [processes, answers, ih]

theorem processes_append (tools : Toolset) (history : List (List String)) (first second : List Start) :
    tools.processes history (first ++ second) =
      tools.processes history first ++
        tools.processes (history ++ first.map (·.argv)) second := by
  rw [processes_eq_map, answers_append, List.map_append, ← processes_eq_map, ← processes_eq_map]

theorem length_processes (tools : Toolset) (history : List (List String)) (row : List Start) :
    (tools.processes history row).length = row.length := by
  induction row generalizing history with
  | nil => rfl
  | cons start rest ih => simp [processes, ih]

end Toolset

namespace Session

theorem length_processesSince (before after : Session) :
    (before.processesSince after).length = after.started.length - before.started.length := by
  simp [processesSince, Toolset.length_processes]

theorem processesSince_eq {before after : Session} (new : List Start)
    (started : after.started = before.started ++ new) :
    before.processesSince after =
      before.host.tools.processes (before.started.map (·.argv)) new := by
  simp [processesSince, started]

theorem processesSince_trans {s t u : Session} (host : t.host = s.host)
    (first : s.started <+: t.started) (second : t.started <+: u.started) :
    s.processesSince u = s.processesSince t ++ t.processesSince u := by
  obtain ⟨new, first⟩ := first
  obtain ⟨newer, second⟩ := second
  rw [processesSince_eq (new ++ newer) (by rw [← second, ← first, List.append_assoc]),
    processesSince_eq new first.symm, processesSince_eq newer second.symm,
    Toolset.processes_append, host, ← first, List.map_append]

end Session

namespace EndsAfter
variable {F G : Failure → Prop}

theorem prepend (passed : ∀ p ∈ earlier, p.exitCode = 0) (ends : EndsAfter F ending processes) :
    EndsAfter F ending (earlier ++ processes) := by
  cases ends with
  | passed _ _ kind rest =>
      exact .passed _ _ kind fun p member => (List.mem_append.mp member).elim (passed p) (rest p)
  | failed before last rest nonzero =>
      rw [← List.append_assoc]
      exact .failed _ last
        (fun p member => (List.mem_append.mp member).elim (passed p) (rest p)) nonzero

theorem of_none (ends : EndsAfter F none processes) : ∀ p ∈ processes, p.exitCode = 0 := by
  cases ends with
  | passed _ _ _ passed => exact passed

theorem mono (weaker : ∀ e, F e → G e) (ends : EndsAfter F ending processes) :
    EndsAfter G ending processes := by
  cases ends with
  | passed _ _ kind passed => exact .passed _ _ (fun e failed => weaker e (kind e failed)) passed
  | failed earlier last passed nonzero => exact .failed earlier last passed nonzero

end EndsAfter

namespace Run

/-- A run that keeps this contract stops at the first process that fails and reports no errors; where
no process failed, its failures are of the kind `F`. -/
def stopsAtFailure (F : Failure → Prop) : Contract := fun ending s t =>
  t.host = s.host ∧ t.report.errors = s.report.errors ∧ s.started <+: t.started ∧
    EndsAfter F ending (s.processesSince t)

theorem processesSince_self (s : Session) : s.processesSince s = [] := by
  simp [Session.processesSince, Toolset.processes]

instance : (stopsAtFailure F).Composes where
  refl s := ⟨rfl, rfl, List.prefix_refl _, by
    rw [processesSince_self]
    exact .passed _ _ (by simp) (by simp)⟩
  trans := by
    rintro ending s t u ⟨host, errors, started, ends⟩ ⟨host', errors', started', ends'⟩
    refine ⟨host'.trans host, errors'.trans errors, started.trans started', ?_⟩
    rw [Session.processesSince_trans host started started']
    exact ends'.prepend ends.of_none

theorem stopsAtFailure_mono {run : Run α} (weaker : ∀ e, F e → G e)
    (kept : Obeys (stopsAtFailure F) run) : Obeys (stopsAtFailure G) run := by
  intro s
  obtain ⟨host, errors, started, ends⟩ := kept s
  exact ⟨host, errors, started, ends.mono weaker⟩

/-- A run that starts no process stops at none. -/
theorem stopsAtFailure_of_same {ending : Option Failure} {s t : Session} (host : t.host = s.host)
    (errors : t.report.errors = s.report.errors) (started : t.started = s.started)
    (kind : ∀ e, ending = some e → F e) : stopsAtFailure F ending s t := by
  refine ⟨host, errors, started ▸ List.prefix_refl _, ?_⟩
  rw [Session.processesSince_eq [] (by simp [started])]
  exact .passed _ _ kind (by simp [Toolset.processes])

/-- A run after which no start is forgotten. -/
def growing : Contract := fun _ s t => s.started <+: t.started

instance : Contract.Composes growing := ⟨fun _ => List.prefix_refl _, List.IsPrefix.trans⟩

theorem Obeys.growing {run : Run α} (kept : Obeys (stopsAtFailure F) run) : Obeys growing run :=
  fun s => (kept s).2.2.1

/-- A run that starts no process and reports nothing; its failures are of the kind `F`. -/
def toolless (F : Failure → Prop) : Contract := fun ending s t =>
  t.host = s.host ∧ t.started = s.started ∧ t.report = s.report ∧ ∀ e, ending = some e → F e

instance : (toolless F).Composes where
  refl s := ⟨rfl, rfl, rfl, by simp⟩
  trans := by
    rintro ending s t u ⟨host, started, report, _⟩ ⟨host', started', report', kind⟩
    exact ⟨host'.trans host, started'.trans started, report'.trans report, kind⟩

theorem toolless_mono {run : Run α} (weaker : ∀ e, F e → G e) (kept : Obeys (toolless F) run) :
    Obeys (toolless G) run := by
  intro s
  obtain ⟨host, started, report, kind⟩ := kept s
  exact ⟨host, started, report, fun e failed => weaker e (kind e failed)⟩

theorem Obeys.stops {run : Run α} (kept : Obeys (toolless F) run) :
    Obeys (stopsAtFailure F) run := by
  intro s
  obtain ⟨host, started, report, kind⟩ := kept s
  exact stopsAtFailure_of_same host (by rw [report]) started kind

end Run

end Foundry
