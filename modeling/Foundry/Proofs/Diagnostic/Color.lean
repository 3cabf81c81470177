import Foundry.Diagnostic.Report
import Mathlib.Tactic.SplitIfs

/-! Colored reports without their colors. What is left of a report once its color sequences are deleted
is the same whether it was written in color or not, and a report is the lines of its diagnostics, one
after another. -/
namespace Foundry.Report

/-- The character that begins a color sequence. -/
def escape : Char := '\x1b'

/-- Whether `c` carries on a sequence of which `held` has been read. -/
def goesOn (c : Char) : List Char → Bool
  | [] => false
  | [_] => c = '['
  | _ => c.isDigit || c = ';'

/-- Whether `c` completes a sequence of which `held` has been read. -/
def completes (c : Char) (held : List Char) : Bool := 2 ≤ held.length && c = 'm'

/-- The characters left once all color sequences (an escape, `[`, digits and semicolons, `m`) are deleted.
`held` is the part of a sequence that has been read; it is text if no sequence comes of it. -/
def keep (held : List Char) : List Char → List Char
  | [] => held
  | c :: rest =>
    if c = escape then held ++ keep [c] rest
    else if completes c held then keep [] rest
    else if goesOn c held then keep (held ++ [c]) rest
    else held ++ c :: keep [] rest

/-- A text without its color sequences. -/
def uncolored (text : String) : String := String.ofList (keep [] text.toList)

/-- A character that no color sequence goes on with. -/
def Breaks (c : Char) : Prop := c ≠ '[' ∧ c ≠ 'm' ∧ (c.isDigit || c = ';') = false

instance (c : Char) : Decidable (Breaks c) := inferInstanceAs (Decidable (_ ∧ _))

section Keep
variable {c : Char} {text rest : List Char}

theorem Breaks.not_goesOn (breaks : Breaks c) (held : List Char) : goesOn c held = false := by
  obtain ⟨bracket, -, parameter⟩ := breaks
  rcases held with _ | ⟨a, _ | ⟨b, held⟩⟩
  · rfl
  · simpa [goesOn] using bracket
  · exact parameter

theorem Breaks.not_completes (breaks : Breaks c) (held : List Char) : completes c held = false := by
  simp [completes, breaks.2.1]

theorem keep_breaks (breaks : Breaks c) (held : List Char) :
    keep held (c :: rest) = held ++ keep [] (c :: rest) := by
  simp only [keep, breaks.not_goesOn, breaks.not_completes, Bool.false_eq_true, if_false, List.nil_append]
  split <;> rfl

/-- Sequences end before a character that breaks them. -/
theorem keep_append (breaks : Breaks c) (held text : List Char) :
    keep held (text ++ c :: rest) = keep held text ++ keep [] (c :: rest) := by
  induction text generalizing held with
  | nil => exact keep_breaks breaks held
  | cons d text ih =>
      rw [List.cons_append, keep, keep.eq_2 held d text]
      simp only [ih]
      split_ifs <;> simp only [List.append_assoc, List.cons_append]

theorem keep_unescaped (unescaped : escape ∉ text) : keep [] (text ++ rest) = text ++ keep [] rest := by
  induction text with
  | nil => rfl
  | cons d text ih =>
      rw [List.mem_cons, not_or] at unescaped
      rw [List.cons_append, keep, if_neg (Ne.symm unescaped.1), ih unescaped.2]
      rfl

theorem keep_eq_self (unescaped : escape ∉ text) : keep [] text = text := by
  have kept : keep [] (text ++ []) = text ++ [] := keep_unescaped unescaped
  rwa [List.append_nil] at kept

theorem keep_ink (ink : Ink) (rest : List Char) : keep [] (ink.sequence.toList ++ rest) = keep [] rest := by
  cases ink <;> rfl

theorem keep_reset (rest : List Char) : keep [] ("\x1b[0m".toList ++ rest) = keep [] rest := rfl

theorem keep_inks (inks : List Ink) (rest : List Char) :
    keep [] ((String.join (inks.map Ink.sequence)).toList ++ rest) = keep [] rest := by
  induction inks with
  | nil => rfl
  | cons ink inks ih =>
      rw [List.map_cons, String.join_cons, String.toList_append, List.append_assoc, keep_ink, ih]

/-- What is left of a text in inks is what is left of the text. -/
theorem keep_inked (inks : List Ink) (text : String) (rest : List Char) :
    keep [] ((inked inks text).toList ++ rest) = keep [] text.toList ++ keep [] rest := by
  have reset : "\x1b[0m".toList ++ rest = escape :: ("[0m".toList ++ rest) := rfl
  have breaks : Breaks escape := by decide
  rw [inked, String.toList_append, String.toList_append, List.append_assoc, List.append_assoc, keep_inks,
    reset, keep_append breaks, ← reset, keep_reset]

example : uncolored "\x1b[1;31mred\x1b[0m \x1b[31 \x1b\x1b[m" = "red \x1b[31 \x1b" := by decide

end Keep

section Lines
variable {program : String} {item : Diagnostic}

/-- Where a line says that a diagnostic comes from. -/
def place (program : String) : Option String → String
  | none | some "" => program
  | some stage => s!"{program} ({stage})"

/-- What is left of the line of a diagnostic. -/
def bareLine (program : String) (item : Diagnostic) : List Char :=
  keep [] (place program item.stage).toList ++ ": ".toList ++ item.severity.name.toList ++ " [".toList ++
    keep [] item.code.toList ++ "]: ".toList ++ keep [] (sentence item.message).toList

theorem line_colored : line program true item =
    inked [.cyan] (place program item.stage) ++ ": " ++
      inked [.bold, if item.severity = .error then .red else .yellow] item.severity.name ++ " [" ++
      inked [.dim] item.code ++ "]: " ++ sentence item.message := rfl

theorem line_plain : line program false item =
    place program item.stage ++ ": " ++ item.severity.name ++ " [" ++ item.code ++ "]: " ++
      sentence item.message := rfl

/-- The same is left of a line with and without colors. -/
theorem keep_line (colored : Bool) : keep [] (line program colored item).toList = bareLine program item := by
  have colon (rest : List Char) : keep [] (": ".toList ++ rest) = ": ".toList ++ keep [] rest := rfl
  have opening (rest : List Char) : keep [] (" [".toList ++ rest) = " [".toList ++ keep [] rest := rfl
  have closing (rest : List Char) : keep [] ("]: ".toList ++ rest) = "]: ".toList ++ keep [] rest := rfl
  have named : ∀ rest : List Char, keep [] (item.severity.name.toList ++ rest) =
      item.severity.name.toList ++ keep [] rest := by
    cases item.severity <;> exact fun _ => rfl
  have placed (rest : List Char) : keep [] ((place program item.stage).toList ++ (": ".toList ++ rest)) =
      keep [] (place program item.stage).toList ++ keep [] (": ".toList ++ rest) :=
    keep_append (by decide) [] _
  have coded (rest : List Char) : keep [] (item.code.toList ++ ("]: ".toList ++ rest)) =
      keep [] item.code.toList ++ keep [] ("]: ".toList ++ rest) :=
    keep_append (by decide) [] _
  have alone : keep [] item.severity.name.toList = item.severity.name.toList := by
    simpa [keep] using named []
  cases colored with
  | true =>
      simp only [line_colored, String.toList_append, List.append_assoc, keep_inked, colon, opening, closing,
        alone, bareLine]
  | false =>
      simp only [line_plain, String.toList_append, List.append_assoc, placed, colon, named, opening, coded,
        closing, bareLine]

/-- The report of two lists of diagnostics is their two reports, a newline between them. -/
theorem format_append {first second : List Diagnostic} (some : first ≠ []) (others : second ≠ [])
    (colored : Bool) : format ⟨program, first ++ second⟩ colored =
      format ⟨program, first⟩ colored ++ "\n" ++ format ⟨program, second⟩ colored := by
  rw [format, List.map_append]
  exact String.intercalate_append_of_ne_nil (by simpa using some) (by simpa using others)

/-- The same is left of a report with and without colors. -/
theorem keep_format (program : String) (colored : Bool) (items : List Diagnostic) :
    keep [] (format ⟨program, items⟩ colored).toList =
      "\n".toList.intercalate (items.map (bareLine program)) := by
  induction items with
  | nil => rfl
  | cons item rest ih =>
      have alone : format ⟨program, [item]⟩ colored = line program colored item :=
        String.intercalate_singleton
      cases rest with
      | nil => rw [alone, keep_line, List.map_singleton, List.intercalate_singleton]
      | cons next rest =>
          have newline (text : List Char) : keep [] ("\n".toList ++ text) = "\n".toList ++ keep [] text := rfl
          have parted (text : List Char) : keep [] ((line program colored item).toList ++ ("\n".toList ++ text)) =
              keep [] (line program colored item).toList ++ keep [] ("\n".toList ++ text) :=
            keep_append (by decide) [] _
          have whole : format ⟨program, item :: next :: rest⟩ colored = _ :=
            format_append (List.cons_ne_nil item []) (List.cons_ne_nil next rest) colored
          rw [whole, alone, String.toList_append, String.toList_append, List.append_assoc, parted, newline,
            keep_line, ih]
          simp only [List.map_cons, List.intercalate_cons_cons, List.append_assoc]

end Lines

/-- No string of the report holds an escape. -/
structure Unescaped (report : Report) : Prop where
  program : escape ∉ report.program.toList
  codes : ∀ item ∈ report.items, escape ∉ item.code.toList
  messages : ∀ item ∈ report.items, escape ∉ item.message.toList
  stages : ∀ item ∈ report.items, ∀ stage, item.stage = some stage → escape ∉ stage.toList

namespace Unescaped
variable {report : Report} {item : Diagnostic}

theorem place (unescaped : report.Unescaped) (member : item ∈ report.items) :
    escape ∉ (Report.place report.program item.stage).toList := by
  have stages := unescaped.stages item member
  unfold Report.place
  split
  · exact unescaped.program
  · exact unescaped.program
  · rename_i stage _ staged
    have clean := stages stage staged
    have program := unescaped.program
    simp only [toString, String.toList_append, List.mem_append, not_or]
    exact ⟨⟨⟨program, by decide⟩, clean⟩, by decide⟩

theorem sentence (unescaped : report.Unescaped) (member : item ∈ report.items) :
    escape ∉ (Report.sentence item.message).toList := by
  have clean := unescaped.messages item member
  unfold Report.sentence
  split
  · exact clean
  · rw [String.toList_append, List.mem_append, not_or]
    exact ⟨clean, by decide⟩

/-- Nothing is deleted from a plain line without escapes. -/
theorem bareLine_eq (unescaped : report.Unescaped) (member : item ∈ report.items) :
    bareLine report.program item = (line report.program false item).toList := by
  simp only [bareLine, line_plain, String.toList_append, keep_eq_self (unescaped.place member),
    keep_eq_self (unescaped.codes item member), keep_eq_self (unescaped.sentence member)]

theorem uncolored_plain (unescaped : report.Unescaped) :
    uncolored (report.format false) = report.format false := by
  have lines : report.items.map (bareLine report.program) =
      (report.items.map (line report.program false)).map String.toList := by
    rw [List.map_map]
    exact List.map_congr_left fun item member => unescaped.bareLine_eq member
  rw [← String.toList_inj, uncolored, String.toList_ofList, keep_format report.program false, lines, format,
    String.toList_intercalate]

end Unescaped

/-- What is left of a colored report once the color sequences are deleted is what is left of the plain one,
which is the plain one itself where no string has an escape; and the diagnostics of a report come up one after
another, whatever others come before and after them. -/
theorem uncolored_format (report : Report) :
    uncolored (report.format true) = uncolored (report.format false) ∧
    (report.Unescaped → uncolored (report.format true) = report.format false) ∧
    ∀ first second colored, report.items = first ++ second → first ≠ [] → second ≠ [] →
      report.format colored = format { report with items := first } colored ++ "\n" ++
        format { report with items := second } colored := by
  have same : uncolored (report.format true) = uncolored (report.format false) := by
    rw [uncolored, uncolored, keep_format report.program true, keep_format report.program false]
  refine ⟨same, fun unescaped => ?_, fun first second colored split some others => ?_⟩
  · rw [same, unescaped.uncolored_plain]
  · rw [← format_append some others, ← split]

/-- A warning with a stage whose message looks like the rest of a color sequence, and an error without one
whose message has its period. -/
def warningAndError : Report :=
  ⟨"kilnc", [⟨.warning, "CW4009", "skipped [0m", some "link"⟩, ⟨.error, "CE4003", "no artifact.", none⟩]⟩

theorem uncolored_warningAndError :
    warningAndError.Unescaped ∧
    uncolored (warningAndError.format true) =
      "kilnc (link): warning [CW4009]: skipped [0m.\nkilnc: error [CE4003]: no artifact." ∧
    warningAndError.format true =
      format { warningAndError with items := warningAndError.items.take 1 } true ++ "\n" ++
        format { warningAndError with items := warningAndError.items.drop 1 } true := by
  have unescaped : warningAndError.Unescaped := by
    refine ⟨by decide, by decide, by decide, fun item member stage staged => ?_⟩
    rcases List.mem_cons.mp member with rfl | member
    · cases staged
      decide
    · rw [List.mem_singleton.mp member] at staged
      contradiction
  obtain ⟨-, deleted, split⟩ := uncolored_format warningAndError
  exact ⟨unescaped, (deleted unescaped).trans (by decide), split _ _ true rfl (by decide) (by decide)⟩

end Foundry.Report
