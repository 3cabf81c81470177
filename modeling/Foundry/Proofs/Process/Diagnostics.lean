import Foundry.Proofs.Process.Executor
import Foundry.Proofs.Text.Line

/-! What becomes of the diagnostics of a filtered tool. They are forwarded line by line, and only the
lines with the harmless text are dropped. -/
namespace Foundry

open Utf8

namespace Text

theorem contains_iff {text part : String} : contains text part = true ↔ part.toList <:+: text.toList := by
  have going (chars : List Char) : contains.go part chars = true ↔ part.toList <:+: chars := by
    induction chars with
    | nil => simp [contains.go]
    | cons c rest ih =>
        rw [contains.go, Bool.or_eq_true, List.isPrefixOf_iff_prefix, ih, List.infix_cons_iff]
  exact going text.toList

theorem dropTail_of_not_mem {text : String} {c : Char} (missing : c ∉ text.toList) :
    dropTail text (String.singleton c) = text := by
  refine dropTail_of_endsWith (Bool.eq_false_iff.mpr fun ends => ?_)
  obtain ⟨front, rfl⟩ := endsWith_iff.mp ends
  exact missing (by simp)

end Text

namespace ByteLine

theorem dropTail_shown {content : Bytes} (plain : Plain content) (ending : Option LineEnd) :
    Text.dropTail (shown ⟨content, ending⟩) "\n" = decodeLossy content := by
  cases ending with
  | none =>
      have clean : '\n' ∉ (decodeLossy content).toList := fun member => (plain_text plain _ member).1 rfl
      simpa [shown, text] using Text.dropTail_of_not_mem clean
  | some ending => exact Text.dropTail_append _ _

theorem Lines.plain {lines : List ByteLine} (lined : Lines lines) :
    ∀ line ∈ lines, Plain line.content := by
  induction lined with
  | nil => exact nofun
  | «open» content plain => exact List.forall_mem_singleton.mpr plain
  | ended content ending rest plain _ _ ih => exact List.forall_mem_cons.mpr ⟨plain, ih⟩

/-- Lines that end with an LF can be followed by others. -/
theorem Lines.append {first rest : List ByteLine} (lined : Lines first) (later : Lines rest)
    (ends : (join first).getLast? = some 0x0A) : Lines (first ++ rest) := by
  induction lined with
  | nil => exact later
  | «open» content plain nonempty =>
      have last : content.getLast? = some 0x0A := by simpa [bytes] using ends
      exact absurd rfl (plain _ (List.mem_of_getLast? last)).1
  | ended content ending more plain apart lined ih =>
      by_cases none : join more = []
      · obtain rfl := lined.unique .nil none
        refine .ended content ending rest plain (fun returned => ?_) later
        subst returned
        simp [bytes, LineEnd.bytes] at ends
      · have ends' : (join more).getLast? = some 0x0A := by
          rwa [join_cons, List.getLast?_append_of_ne_nil _ none] at ends
        refine .ended content ending (more ++ rest) plain (fun returned => ?_) (ih ends')
        rw [join_append, List.head?_append_of_ne_nil _ none]
        exact apart returned

end ByteLine

/-- The texts are printed one after another, each with an LF. -/
theorem Run.printEach_errors (lines : List String) (s : Session) :
    lines.forM Run.printError s =
      .ok () { s with errors := s.errors ++ String.join (lines.map (· ++ "\n")) } := by
  induction lines generalizing s with
  | nil =>
      rw [List.map_nil, show String.join [] = "" from rfl, String.append_empty]
      rfl
  | cons line rest ih =>
      refine Run.bind_eq_ok.mpr ⟨(), { s with errors := s.errors ++ line ++ "\n" }, rfl, ?_⟩
      rw [ih, List.map_cons, String.join_cons]
      simp only [String.append_assoc]

namespace Executor
variable {executor : Executor} {command : Command} {harmless : String} {s : Session}
  {lines : List ByteLine} {stderr : Bytes}

/-- The lines in which the harmless text does not stand; a line with an end has an LF for it. -/
def passes (harmless : String) (line : ByteLine) : Bool :=
  decide (¬ harmless.toList <:+: line.shown.toList)

/-- Where the harmless text holds no LF, what ends a line does not matter. -/
theorem passes_iff (inLine : '\n' ∉ harmless.toList) (line : ByteLine) :
    passes harmless line = true ↔ ¬ harmless.toList <:+: line.text.toList := by
  have ended : harmless.toList <:+: line.text.toList ++ ['\n'] ↔ harmless.toList <:+: line.text.toList := by
    rw [List.infix_concat_iff, or_iff_right_of_imp]
    intro last
    rcases List.suffix_concat_iff.mp last with empty | ⟨front, same, -⟩
    · rw [empty]
      exact List.nil_infix
    · exact absurd (by rw [same]; exact List.mem_concat_self) inLine
  rw [passes, decide_eq_true_iff, not_iff_not, ByteLine.shown]
  split
  · rw [String.toList_append]
    exact ended
  · rw [String.append_empty]

/-- What is forwarded are the lines that pass, each decoded on its own. -/
theorem forwarded_join (lined : ByteLine.Lines lines) :
    forwarded harmless (ByteLine.join lines) = (lines.filter (passes harmless)).map ByteLine.text := by
  have forward {line : ByteLine} (plain : ByteLine.Plain line.content) :
      (if Text.contains line.shown harmless then none else some (Text.dropTail line.shown "\n")) =
        if passes harmless line then some line.text else none := by
    rw [ByteLine.dropTail_shown plain]
    by_cases inside : harmless.toList <:+: line.shown.toList
    · rw [if_pos (Text.contains_iff.mpr inside), if_neg (by simpa [passes] using inside)]
    · rw [if_neg fun found => inside (Text.contains_iff.mp found), if_pos (by simpa [passes] using inside)]
      rfl
  rw [forwarded, Text.lines_decodeLossy lined]
  have plain := lined.plain
  clear lined
  induction lines with
  | nil => rfl
  | cons line rest ih =>
      obtain ⟨plain, later⟩ := List.forall_mem_cons.mp plain
      rw [List.map_cons, List.filterMap_cons, forward plain, ih later, List.filter_cons]
      cases passes harmless line <;> rfl

theorem forwarded_append {first rest : Bytes} (ended : first.getLast? = some 0x0A) :
    forwarded harmless (first ++ rest) = forwarded harmless first ++ forwarded harmless rest := by
  obtain ⟨lines, lined, rfl⟩ := ByteLine.exists_lines first
  obtain ⟨later, lined', rfl⟩ := ByteLine.exists_lines rest
  rw [← ByteLine.join_append, forwarded_join (lined.append lined' ended), forwarded_join lined,
    forwarded_join lined', List.filter_append, List.map_append]

/-- Running a filtered tool prints what is forwarded of its diagnostics, and gives its exit code. -/
theorem execute_filtered (filtered : executor.filters.lookup command.tool = some harmless)
    (responded : s.outcome command.argv = .finished code stderr product) :
    ∃ output journal, executor.execute command s = .ok code
      { s.afterProcess ⟨command.argv, true⟩ with
        output, journal
        errors := s.errors ++ String.join ((forwarded harmless stderr).map (· ++ "\n")) } := by
  obtain ⟨output, journal, blank⟩ := executor.logger.log_ok "" s
  obtain ⟨output', journal', logged⟩ := executor.logger.log_ok command.text { s with output, journal }
  refine ⟨output', journal', ?_⟩
  have answered : s.host.tools.respond (s.started.map (·.argv)) command.argv =
      .finished code stderr product := responded
  simp only [execute, bind, EStateM.bind, blank, logged, Run.get_apply, Run.set_apply, filtered, answered]
  simp only [Session.afterProcess, responded, Outcome.filesAfter]
  by_cases success : code = 0
  · simp only [success, if_true, writeProducts, EStateM.bind, Run.modify_apply, Run.printEach_errors]
    rfl
  · simp only [success, if_false, EStateM.bind, Run.printEach_errors]
    rfl

/-- A session in which each tool ends with this exit code and these diagnostics. -/
def saying (code : Int) (stderr : Bytes) : Session :=
  { Session.blank with
    host := { Session.blank.host with tools := ⟨fun _ _ => .finished code stderr []⟩ } }

/-- A linker with a filter. -/
def filtering (harmless : String) : Executor := { filters := [("ld", harmless)] }

end Executor

end Foundry
