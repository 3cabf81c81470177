import Foundry.CommandLine.LibraryInfo
import Foundry.Proofs.Printed

/-! How a manifest is printed. Printing adds lines to the output and changes nothing else; it starts with the
four fields that every manifest has, and fails exactly for a value of another shape than a manifest's. -/
namespace Foundry

namespace Manifest
open Run
variable {manifest : Value} {s t : Session}

theorem field?_eq_error : field? manifest key = .error e ↔ manifest.entries? = none ∧ e = .wrongKind := by
  unfold field?
  cases manifest.entries? <;> simp [eq_comm]

theorem field_eq_ok : field manifest key = .ok value ↔ field? manifest key = .ok (some value) := by
  unfold field
  cases found : field? manifest key with
  | error e => simp [bind, Except.bind]
  | ok value? => cases value? <;> simp [bind, Except.bind]

theorem field_eq_error : field manifest key = .error e ↔
    field? manifest key = .error e ∨ field? manifest key = .ok none ∧ e = .missingKey key := by
  unfold field
  cases found : field? manifest key with
  | error e => simp [bind, Except.bind]
  | ok value? => cases value? <;> simp [bind, Except.bind, eq_comm]

/-- The fields that every manifest has, with their titles. -/
def headings : List (String × String) :=
  [("Library", "unique_name"), ("Target", "target"), ("Compiler", "compiler_version"), ("ABI", "abi_version")]

/-- What is printed of every manifest. -/
inductive Heading (manifest : Value) : List String → Prop where
  | intro (name target compiler abi : Value) :
      field manifest "unique_name" = .ok name → field manifest "target" = .ok target →
      field manifest "compiler_version" = .ok compiler → field manifest "abi_version" = .ok abi →
      Heading manifest [s!"Library: {name.plain}", s!"Target: {target.plain}", s!"Compiler: {compiler.plain}",
        s!"ABI: {abi.plain}"]

/-- A field is set to something that is neither void nor has items. -/
def Itemless (manifest : Value) (key : String) : Prop :=
  ∃ value, field? manifest key = .ok (some value) ∧ value.isVoid = false ∧ value.items? = none

/-- The user's own fields are set to something that is neither void nor a table. -/
def Entryless (manifest : Value) : Prop :=
  ∃ value, field? manifest "properties" = .ok (some value) ∧ value.isVoid = false ∧ value.entries? = none

/-- How a value is of another shape than a manifest's, by the failure that comes of it. -/
inductive Misshapen (manifest : Value) : Failure → Prop where
  | noTable : manifest.entries? = none → Misshapen manifest .wrongKind
  | lacking (before title key after) :
      headings = before ++ (title, key) :: after →
      (∀ heading ∈ before, ∃ value, field manifest heading.2 = .ok value) →
      field? manifest key = .ok none → Misshapen manifest (.missingKey key)
  | itemless : (∃ lines, Heading manifest lines) →
      Itemless manifest "native_targets" ∨ Itemless manifest "depends" → Misshapen manifest .wrongKind
  | entryless : (∃ lines, Heading manifest lines) →
      ¬ Itemless manifest "native_targets" → ¬ Itemless manifest "depends" →
      Entryless manifest → Misshapen manifest .lacksMember

theorem printField_ok {title key : String} (ran : printField manifest title key s = .ok u t) :
    ∃ value, field manifest key = .ok value ∧ t = s.listing [s!"{title}: {value.plain}"] := by
  obtain ⟨value, v, asked, printed⟩ := bind_eq_ok.mp ran
  obtain ⟨found, rfl⟩ := ofExcept_eq_ok.mp asked
  rw [print_apply] at printed
  cases printed
  exact ⟨value, found, rfl⟩

theorem failure?_printField (title key : String) (s : Session) :
    (printField manifest title key).failure? s = Failure.of? (field manifest key) := by
  unfold printField
  cases field manifest key <;> rfl

/-- A field that may be unset or void makes no trouble then. -/
theorem optional_fails_iff {next : Option Value → Run Unit} {L : Value → Prop}
    (unset : next none = pure ()) (void : ∀ value, value.isVoid = true → next (some value) = pure ())
    (full : ∀ value, value.isVoid = false → ((next (some value)).failure? s = some e ↔ L value)) :
    (ofExcept (field? manifest key) >>= next).failure? s = some e ↔ field? manifest key = .error e ∨
      ∃ value, field? manifest key = .ok (some value) ∧ value.isVoid = false ∧ L value := by
  rw [failure?_ofExcept_bind]
  refine or_congr_right ⟨fun ⟨value?, found, failed⟩ => ?_, fun ⟨value, found, set, lacks⟩ => ?_⟩
  · cases value? with
    | none =>
        rw [unset] at failed
        cases failed
    | some value =>
        cases set : value.isVoid with
        | true =>
            rw [void value set] at failed
            cases failed
        | false => exact ⟨value, found, set, (full value set).mp failed⟩
  · exact ⟨_, found, (full value set).mpr lacks⟩

theorem printItems_fails_iff (title : String) (line : String → String) :
    (printItems manifest title key line).failure? s = some e ↔
      field? manifest key = .error e ∨ Itemless manifest key ∧ e = .wrongKind := by
  rw [printItems, optional_fails_iff (L := fun value => value.items? = none ∧ e = .wrongKind) rfl]
  · simp only [Itemless, ← and_assoc, exists_and_right]
  · intro value void
    simp only [void, if_true]
  · intro value full
    cases listed : value.items? with
    | none => simp [full, listed, failure?, eq_comm]
    | some items =>
        simp only [full, listed, Bool.false_eq_true, if_false, reduceCtorEq, false_and, iff_false]
        intro failed
        rcases failure?_bind.mp failed with never | ⟨_, t, -, failed⟩
        · cases never
        · rcases failure?_bind.mp failed with never | ⟨_, u, -, never⟩
          · cases (failure?_prints _ _ _).symm.trans never
          · cases never

theorem printProperties_fails_iff : (printProperties manifest).failure? s = some e ↔
      field? manifest "properties" = .error e ∨ Entryless manifest ∧ e = .lacksMember := by
  rw [printProperties, optional_fails_iff (L := fun value => value.entries? = none ∧ e = .lacksMember) rfl]
  · simp only [Entryless, ← and_assoc, exists_and_right]
  · intro value void
    simp only [void, if_true]
  · intro value full
    cases listed : value.entries? with
    | none =>
        simp only [full, listed, Bool.false_eq_true, if_false, true_and]
        exact ⟨fun failed => (Option.some.inj failed).symm, fun same => congrArg some same.symm⟩
    | some entries =>
        simp only [full, listed, Bool.false_eq_true, if_false, reduceCtorEq, false_and, iff_false]
        intro failed
        rcases failure?_bind.mp failed with never | ⟨_, t, -, never⟩
        · cases never
        · cases (failure?_prints _ _ _).symm.trans never

theorem exists_heading_iff : (∃ lines, Heading manifest lines) ↔
    ∀ heading ∈ headings, ∃ value, field manifest heading.2 = .ok value := by
  constructor
  · rintro ⟨_, name, target, compiler, abi, named, targeted, compiled, versioned⟩
    simp [headings, named, targeted, compiled, versioned]
  · intro complete
    simp only [headings, List.forall_mem_cons] at complete
    obtain ⟨⟨name, named⟩, ⟨target, targeted⟩, ⟨compiler, compiled⟩, ⟨abi, versioned⟩, -⟩ := complete
    exact ⟨_, name, target, compiler, abi, named, targeted, compiled, versioned⟩

theorem Heading.isTable (heading : Heading manifest lines) : manifest.entries? ≠ none := by
  obtain ⟨name, -, -, -, named, -, -, -⟩ := heading
  intro noTable
  cases (field_eq_ok.mp named).symm.trans (field?_eq_error.mpr ⟨noTable, rfl⟩)

/-- What is printed after the fields that every manifest has. -/
def printDetails (manifest : Value) : Run Unit := do
  Run.print ""
  printItems manifest "Native bitcode" "native_targets" (s!"  {·}")
  printItems manifest "Dependencies" "depends" (s!"  <{·}>")
  printProperties manifest

theorem print_eq (manifest : Value) : print manifest =
    (headings.forM fun heading => printField manifest heading.1 heading.2) >>= fun _ =>
      printDetails manifest := by
  simp [print, printDetails, headings, bind_assoc]

/-- The first four lines cannot all be printed where the value is no table or lacks a field. -/
theorem misses_iff : headings.findSome? (fun heading => Failure.of? (field manifest heading.2)) = some e ↔
    (manifest.entries? = none ∧ e = .wrongKind) ∨
      ∃ before title key after, headings = before ++ (title, key) :: after ∧
        (∀ heading ∈ before, ∃ value, field manifest heading.2 = .ok value) ∧
        field? manifest key = .ok none ∧ e = .missingKey key := by
  rw [List.findSome?_eq_some_iff]
  simp only [Failure.of?_eq_some, Failure.of?_eq_none, field_eq_error, field?_eq_error]
  constructor
  · rintro ⟨before, ⟨title, key⟩, after, split, noTable | ⟨unset, same⟩, passed⟩
    · exact .inl noTable
    · exact .inr ⟨before, title, key, after, split, passed, unset, same⟩
  · rintro (noTable | ⟨before, title, key, after, split, passed, unset, same⟩)
    · exact ⟨[], _, _, rfl, .inl noTable, by simp⟩
    · exact ⟨before, (title, key), after, split, .inr ⟨unset, same⟩, passed⟩

/-- Printing fails exactly for what is no manifest. -/
theorem print_fails_iff : (print manifest).failure? s = some e ↔ Misshapen manifest e := by
  have heads : ∀ s, (headings.forM fun heading => printField manifest heading.1 heading.2).failure? s = _ :=
    failure?_forM fun heading => failure?_printField heading.1 heading.2
  have never : ∀ s e, (Run.print "").failure? s = some e ↔ False := by simp [failure?_print]
  have whole : (∀ e', ¬ headings.findSome? (fun heading => Failure.of? (field manifest heading.2)) = some e') ↔
      ∃ lines, Heading manifest lines := by
    simp only [← ne_eq, ← Option.eq_none_iff_forall_ne_some, List.findSome?_eq_none_iff,
      Failure.of?_eq_none, exists_heading_iff]
  -- Each part fails in its own way in whatever session, so the whole fails as the first part that does.
  rw [print_eq, failure?_then (fun s e => by rw [heads s]) (failure?_then never
    (failure?_then (fun s e => printItems_fails_iff _ _) (failure?_then (fun s e => printItems_fails_iff _ _)
      fun s e => printProperties_fails_iff))), whole, misses_iff]
  constructor
  · rintro ((⟨noTable, rfl⟩ | ⟨before, title, key, after, split, passed, unset, rfl⟩) | ⟨⟨lines, heading⟩, rest⟩)
    · exact .noTable noTable
    · exact .lacking before title key after split passed unset
    · simp only [field?_eq_error, heading.isTable, false_and, false_or, not_false_iff, implies_true, true_and,
        not_and, forall_eq_apply_imp_iff] at rest
      rcases rest with ⟨itemless, rfl⟩ | ⟨listed, ⟨itemless, rfl⟩ | ⟨listed', entryless, rfl⟩⟩
      · exact .itemless ⟨lines, heading⟩ (.inl itemless)
      · exact .itemless ⟨lines, heading⟩ (.inr itemless)
      · exact .entryless ⟨lines, heading⟩ listed listed' entryless
  · rintro (noTable | ⟨before, title, key, after, split, passed, unset⟩ | ⟨⟨lines, heading⟩, itemless⟩ |
      ⟨⟨lines, heading⟩, listed, listed', entryless⟩)
    · exact .inl (.inl ⟨noTable, rfl⟩)
    · exact .inl (.inr ⟨before, title, key, after, split, passed, unset, rfl⟩)
    · refine .inr ⟨⟨lines, heading⟩, ?_⟩
      simpa [field?_eq_error, heading.isTable, or_and_left, Classical.em] using itemless
    · refine .inr ⟨⟨lines, heading⟩, ?_⟩
      simp [field?_eq_error, heading.isTable, listed, listed', entryless]

theorem printItems_printing (title key : String) (line : String → String) :
    Obeys printing (printItems manifest title key line) := by
  refine (ofExcept_printing _).bind fun value? => ?_
  split
  · split
    · exact obeys_pure _
    · split
      · refine (print_printing _).bind fun _ => (obeys_forM fun item _ => print_printing _).bind fun _ => ?_
        exact print_printing _
      · exact throw_printing _
  · exact obeys_pure _

theorem printProperties_printing (manifest : Value) : Obeys printing (printProperties manifest) := by
  refine (ofExcept_printing _).bind fun value? => ?_
  split
  · split
    · exact obeys_pure _
    · refine (print_printing _).bind fun _ => ?_
      split
      · exact obeys_forM fun entry _ => print_printing _
      · exact throw_printing _
  · exact obeys_pure _

theorem printDetails_printing (manifest : Value) : Obeys printing (printDetails manifest) :=
  (print_printing _).bind fun _ => (printItems_printing _ _ _).bind fun _ =>
    (printItems_printing _ _ _).bind fun _ => printProperties_printing manifest

theorem printHeading_ok
    (ran : (headings.forM fun heading => printField manifest heading.1 heading.2) s = .ok u t) :
    ∃ heading, Heading manifest heading ∧ t = s.listing heading := by
  obtain ⟨_, _, first, ran⟩ := bind_eq_ok.mp ran
  obtain ⟨_, _, second, ran⟩ := bind_eq_ok.mp ran
  obtain ⟨_, _, third, ran⟩ := bind_eq_ok.mp ran
  obtain ⟨_, _, fourth, ran⟩ := bind_eq_ok.mp ran
  obtain ⟨name, named, rfl⟩ := printField_ok first
  obtain ⟨target, targeted, rfl⟩ := printField_ok second
  obtain ⟨compiler, compiled, rfl⟩ := printField_ok third
  obtain ⟨abi, versioned, rfl⟩ := printField_ok fourth
  cases ran
  refine ⟨_, .intro name target compiler abi named targeted compiled versioned, ?_⟩
  simp only [Session.listing_listing]
  rfl

/-- What is printed of a manifest starts with the four fields that every manifest has. -/
theorem print_ok (ran : print manifest s = .ok u t) :
    ∃ heading rest, Heading manifest heading ∧ t = s.listing (heading ++ rest) := by
  rw [print_eq] at ran
  obtain ⟨_, _, first, ran⟩ := bind_eq_ok.mp ran
  obtain ⟨heading, headed, rfl⟩ := printHeading_ok first
  obtain ⟨more, rfl⟩ := (printDetails_printing manifest _).of_ok ran
  exact ⟨heading, more, headed, s.listing_listing heading more⟩

end Manifest

end Foundry
