import Foundry.CommandLine.Reading
import Foundry.Proofs.Run

/-! What the option to be verbose does to a command line: it makes the settings verbose and changes
nothing else of how the line is read. -/
namespace Foundry.CommandLine

/-- The same settings but perhaps for being verbose. -/
def Settings.spoken (s : Settings) (verbose : Bool) : Settings := { s with verbose }

/-- The option to be verbose, in full. -/
def verboseToken : Token := .option .verbose "--verbose" none

theorem classify_verbose : classify "--verbose" = .ok verboseToken := by
  rfl

/-- Only `--` divides options from operands. -/
theorem divider_of_classify {text : String} (read : classify text = .ok .divider) : text = "--" := by
  unfold classify at read
  split at read
  · assumption
  · split at read
    · cases read
    · split at read
      · rename_i token spelled
        obtain rfl := Except.ok.inj read
        unfold spelledOut? at spelled
        split at spelled
        · cases spelled
        · obtain ⟨_, -, spelled⟩ := Option.bind_eq_some_iff.mp spelled
          obtain ⟨_, -, spelled⟩ := Option.bind_eq_some_iff.mp spelled
          cases spelled
      · split at read
        · cases read
        · unfold classifyAbbreviated at read
          split at read
          · split at read <;> cases read
          · cases read
          · cases read

theorem tokens_cons {text : String} (other : text ≠ "--") :
    tokens (text :: rest) = .ok all ↔ ∃ token more, token ≠ .divider ∧ classify text = .ok token ∧
      tokens rest = .ok more ∧ all = token :: more := by
  rw [tokens]
  cases read : classify text with
  | error e => simp [bind, Except.bind]
  | ok token =>
      have apart : token ≠ .divider := fun same => other (divider_of_classify (same ▸ read))
      cases token with
      | divider => contradiction
      | _ =>
          cases tokens rest <;> simp [bind, Except.bind, pure, Except.pure]
          grind

/-- An option to be verbose that stands before any `--` can be left out. -/
theorem tokens_insert {before : List String} (undivided : "--" ∉ before)
    (whole : tokens (before ++ "--verbose" :: after) = .ok all) :
    ∃ front back, .divider ∉ front ∧ all = front ++ verboseToken :: back ∧
      tokens (before ++ after) = .ok (front ++ back) := by
  induction before generalizing all with
  | nil =>
      obtain ⟨token, back, -, verbose, read, rfl⟩ := (tokens_cons (by decide)).mp whole
      obtain rfl := Except.ok.inj (classify_verbose.symm.trans verbose)
      exact ⟨[], back, by simp, rfl, read⟩
  | cons text before ih =>
      rw [List.mem_cons, not_or] at undivided
      obtain ⟨token, more, apart, classified, read, rfl⟩ := (tokens_cons (Ne.symm undivided.1)).mp whole
      obtain ⟨front, back, free, rfl, rest⟩ := ih undivided.2 read
      refine ⟨token :: front, back, ?_, rfl, ?_⟩
      · rw [List.mem_cons, not_or]
        exact ⟨Ne.symm apart, free⟩
      · exact (tokens_cons (Ne.symm undivided.1)).mpr ⟨token, _, apart, classified, rest, rfl⟩

namespace Reading

/-- A reading with the option to be verbose. -/
def verbosely (r : Reading) : Reading := { r with settings := r.settings.spoken true }

@[simp]
theorem hasSource_verbosely (r : Reading) : r.verbosely.hasSource = r.hasSource := rfl

@[simp]
theorem extra_verbosely (r : Reading) (text : String) :
    r.verbosely.extra text = (r.extra text).verbosely := rfl

@[simp]
theorem withSource_verbosely (r : Reading) (source : Option String) :
    r.verbosely.withSource source = (r.withSource source).verbosely := rfl

theorem choose_verbosely (r : Reading) (choice : Choice) :
    r.verbosely.choose choice = (r.choose choice).map verbosely := by
  obtain ⟨switch, text⟩ := choice
  unfold choose
  dsimp only
  cases switch with
  | produce =>
      cases argumentOf text with
      | nothing => rfl
      | text name =>
          cases known : (ArtifactKind.ofName? name).isSome <;> simp [known, Except.map]
          rfl
  | _ => rfl

@[simp]
theorem choices_verbosely (r : Reading) (choices : List Choice) :
    choices.foldlM choose r.verbosely = (choices.foldlM choose r).map verbosely := by
  induction choices generalizing r with
  | nil => rfl
  | cons choice rest ih =>
      rw [List.foldlM_cons, List.foldlM_cons, choose_verbosely]
      cases r.choose choice with
      | error stop => rfl
      | ok r => exact ih r

theorem read_verbosely (r : Reading) (items : List Token) :
    r.verbosely.read items = (r.read items).map verbosely := by
  induction r, items using read.induct <;> unfold read <;>
    simp only [hasSource_verbosely, extra_verbosely, withSource_verbosely, choices_verbosely, Except.map,
      Bool.false_eq_true, if_true, if_false, *]

theorem choose_extras {r r' : Reading} {choice : Choice} (chosen : r.choose choice = .ok r') :
    r'.extras = r.extras := by
  unfold choose at chosen
  dsimp only at chosen
  split at chosen
  · cases chosen
  · split at chosen
    · cases chosen
      rfl
    · cases chosen
  · cases chosen
    rfl

theorem choices_extras {r r' : Reading} {choices : List Choice}
    (chosen : choices.foldlM choose r = .ok r') : r'.extras = r.extras := by
  induction choices generalizing r with
  | nil =>
      cases chosen
      rfl
  | cons choice rest ih =>
      rw [List.foldlM_cons] at chosen
      obtain ⟨middle, first, rest⟩ := except_bind_eq_ok.mp chosen
      exact (ih rest).trans (choose_extras first)

/-- An argument without a meaning is never forgotten. -/
theorem read_extras {r out : Reading} {items : List Token} (read : r.read items = .ok out)
    (clean : out.extras = []) : r.extras = [] := by
  induction r, items using Reading.read.induct <;> unfold Reading.read at read <;>
    grind [choices_extras, extra, withSource]

theorem read_verbose (r : Reading) (items : List Token) :
    r.read (verboseToken :: items) = (r.read items).map verbosely := by
  rw [← read_verbosely]
  rfl

theorem read_option {r : Reading} (known : choicesOf switch spelling attached = .ok (choices, none)) :
    r.read (.option switch spelling attached :: rest) = choices.foldlM choose r >>= (·.read rest) := by
  rw [Reading.read]
  simp only [known]
  cases choices.foldlM choose r <;> rfl

/-- An option that takes an argument takes the operand behind it. -/
theorem read_option_with {r : Reading}
    (known : choicesOf switch spelling attached = .ok (choices, some last)) :
    r.read (.option switch spelling attached :: .operand argument :: rest) =
      (choices ++ [(last, some argument)]).foldlM choose r >>= (·.read rest) := by
  rw [Reading.read]
  simp only [known]
  cases (choices ++ [(last, some argument)]).foldlM choose r <;> rfl

/-- After the source a divider has no meaning. -/
theorem read_divider {r out : Reading} {items : List Token} (taken : r.hasSource = true)
    (clean : out.extras = []) : r.read (.divider :: items) ≠ .ok out := by
  intro read
  unfold Reading.read at read
  simp only [taken, if_true] at read
  nomatch read_extras read clean

/-- What is read with an option to be verbose is read without it too. -/
theorem read_insert (r : Reading) (front back : List Token) (undivided : .divider ∉ front)
    (read : r.read (front ++ verboseToken :: back) = .ok out) (clean : out.extras = []) :
    (r.read (front ++ back)).map verbosely = .ok out := by
  match front with
  | [] => rwa [List.nil_append, read_verbose] at read
  | .operand text :: front =>
      have rest : .divider ∉ front := fun member => undivided (.tail _ member)
      rw [List.cons_append] at read ⊢
      unfold Reading.read at read ⊢
      cases taken : r.hasSource with
      | true =>
          simp only [taken, if_true] at read ⊢
          exact read_insert _ front back rest read clean
      | false =>
          simp only [taken, Bool.false_eq_true, if_false] at read ⊢
          match front with
          | [] =>
              have verbose : (r.withSource (some text)).verbosely.read back = .ok out := read
              match back with
              -- the option has kept the divider from its place beside the source
              | .divider :: back => exact absurd verbose (read_divider rfl clean)
              | [] | .operand _ :: _ | .unknown _ :: _ | .option .. :: _ => rwa [read_verbosely] at verbose
          | .divider :: front => simp at rest
          | .operand _ :: _ | .unknown _ :: _ | .option .. :: _ =>
              exact read_insert _ (_ :: _) back rest read clean
  | .divider :: front => simp at undivided
  | .unknown text :: front =>
      have rest : .divider ∉ front := fun member => undivided (.tail _ member)
      rw [List.cons_append, Reading.read] at read ⊢
      exact read_insert _ front back rest read clean
  | .option switch spelling attached :: front =>
      have rest : .divider ∉ front := fun member => undivided (.tail _ member)
      rw [List.cons_append] at read ⊢
      match known : choicesOf switch spelling attached with
      | .error e =>
          unfold Reading.read at read
          simp only [known] at read
          nomatch read
      | .ok (choices, none) =>
          rw [read_option known] at read ⊢
          obtain ⟨next, chosen, read⟩ := except_bind_eq_ok.mp read
          rw [chosen]
          exact read_insert next front back rest read clean
      | .ok (choices, some last) =>
          match front with
          | .operand argument :: front =>
              rw [List.cons_append, read_option_with known] at read ⊢
              obtain ⟨next, chosen, read⟩ := except_bind_eq_ok.mp read
              rw [chosen]
              exact read_insert next front back (fun member => rest (.tail _ member)) read clean
          | [] | .divider :: _ | .unknown _ :: _ | .option .. :: _ =>
              unfold Reading.read at read
              simp only [known] at read
              nomatch read

end Reading

theorem parse_eq_ok : parse argv = .ok settings ↔ ∃ items out, tokens argv = .ok items ∧
    Reading.read {} items = .ok out ∧ out.extras = [] ∧ out.settings = settings := by
  unfold parse
  constructor
  · intro parsed
    obtain ⟨items, lexed, parsed⟩ := except_bind_eq_ok.mp parsed
    obtain ⟨out, read, parsed⟩ := except_bind_eq_ok.mp parsed
    split at parsed
    · rename_i clean
      exact ⟨items, out, except_mapError_eq_ok.mp lexed, read, List.isEmpty_iff.mp clean,
        except_pure_eq_ok.mp parsed⟩
    · nomatch parsed
  · rintro ⟨items, out, lexed, read, clean, rfl⟩
    simp [lexed, read, clean, bind, Except.bind, pure, Except.pure]

/-- A command line with the option to be verbose before any `--` can be read without it, and means the
same but for being verbose. -/
theorem parse_insert {before after : List String} (undivided : "--" ∉ before)
    (parsed : parse (before ++ "--verbose" :: after) = .ok settings) :
    ∃ quiet, parse (before ++ after) = .ok quiet ∧ settings = quiet.spoken true := by
  obtain ⟨items, out, lexed, read, clean, rfl⟩ := parse_eq_ok.mp parsed
  obtain ⟨front, back, free, rfl, rest⟩ := tokens_insert undivided lexed
  have without := Reading.read_insert {} front back free read clean
  cases quiet : Reading.read {} (front ++ back) with
  | error stop =>
      rw [quiet] at without
      nomatch without
  | ok reading =>
      rw [quiet] at without
      obtain rfl := Except.ok.inj without
      exact ⟨reading.settings, parse_eq_ok.mpr ⟨_, reading, rest, quiet, clean, rfl⟩, rfl⟩

/-- The option can be put before all others. -/
theorem parse_verbose (parsed : parse argv = .ok settings) :
    parse ("--verbose" :: argv) = .ok (settings.spoken true) := by
  obtain ⟨items, out, lexed, read, clean, rfl⟩ := parse_eq_ok.mp parsed
  refine parse_eq_ok.mpr ⟨verboseToken :: items, out.verbosely, ?_, ?_, clean, rfl⟩
  · exact (tokens_cons (by decide)).mpr ⟨verboseToken, items, nofun, classify_verbose, lexed, rfl⟩
  · rw [Reading.read_verbose, read]
    rfl

end Foundry.CommandLine
