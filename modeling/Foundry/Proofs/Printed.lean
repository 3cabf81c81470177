import Foundry.Proofs.Run

/-! Runs that print lines to the output and change nothing else. Printing a line never fails, so how such a
run fails is up to what is computed between its lines, and the session does not matter to it. -/
namespace Foundry

/-- The failure of a result that is none. -/
def Failure.of? : Except Failure α → Option Failure
  | .ok _ => none
  | .error e => some e

@[simp]
theorem Failure.of?_eq_some {result : Except Failure α} : of? result = some e ↔ result = .error e := by
  cases result <;> simp [of?]

@[simp]
theorem Failure.of?_eq_none {result : Except Failure α} : of? result = none ↔ ∃ a, result = .ok a := by
  cases result <;> simp [of?]

/-- The session after these lines are printed to the output. -/
def Session.listing (s : Session) (lines : List String) : Session :=
  { s with output := s.output ++ String.join (lines.map (· ++ "\n")) }

namespace Session

theorem listing_nil (s : Session) : s.listing [] = s := by
  simp [listing]

theorem listing_listing (s : Session) (lines more : List String) :
    (s.listing lines).listing more = s.listing (lines ++ more) := by
  simp only [listing, List.map_append, String.join_append, String.append_assoc]

end Session

namespace Run

theorem print_apply (line : String) (s : Session) : print line s = .ok () (s.listing [line]) := by
  simp [print, Session.listing, String.append_assoc]

/-- A list is gone through up to the first item at which the body fails, where the session does not matter
to how it fails. -/
theorem failure?_forM {items : List α} {body : α → Run PUnit} {problem : α → Option Failure}
    (each : ∀ a s, (body a).failure? s = problem a) (s : Session) :
    (items.forM body).failure? s = items.findSome? problem := by
  induction items generalizing s with
  | nil => rfl
  | cons first rest ih =>
      rw [List.findSome?_cons, ← each first s]
      show (body first >>= fun _ => rest.forM body).failure? s = _
      cases ran : body first s with
      | ok u t => simp only [failure?, bind_of_ok ran, ran, ← ih t]
      | error e t => simp only [failure?, bind, EStateM.bind, ran]

/-- What comes second fails in its own way, where the session does not matter to that. -/
theorem failure?_then {first : Run PUnit} {next : PUnit → Run β} {F G : Failure → Prop}
    (fails : ∀ s e, first.failure? s = some e ↔ F e) (rest : ∀ s e, (next ⟨⟩).failure? s = some e ↔ G e)
    (s : Session) (e : Failure) : (first >>= next).failure? s = some e ↔ F e ∨ (∀ e', ¬ F e') ∧ G e := by
  have passes : (∀ e', ¬ F e') ↔ ∃ u t, first s = .ok u t := by
    rw [← failure?_eq_none, Option.eq_none_iff_forall_ne_some]
    exact forall_congr' fun e' => not_congr (fails s e').symm
  rw [failure?_bind, fails, passes]
  refine or_congr_right ⟨fun ⟨u, t, ran, failed⟩ => ⟨⟨u, t, ran⟩, (rest t e).mp failed⟩, ?_⟩
  rintro ⟨⟨u, t, ran⟩, failing⟩
  exact ⟨u, t, ran, (rest t e).mpr failing⟩

/-- Nothing is done but to print lines to the output. -/
def printing : Contract := fun _ s t => ∃ lines, t = s.listing lines

instance : printing.Composes where
  refl s := ⟨[], s.listing_nil.symm⟩
  trans := by
    rintro ending s _ _ ⟨lines, rfl⟩ ⟨more, rfl⟩
    exact ⟨lines ++ more, s.listing_listing lines more⟩

theorem print_printing (line : String) : Obeys printing (print line) := fun s =>
  ⟨[line], after_of_ok (print_apply line s)⟩

theorem throw_printing (e : Failure) : Obeys printing (throw e : Run α) := fun s =>
  ⟨[], s.listing_nil.symm⟩

theorem ofExcept_printing (result : Except Failure α) : Obeys printing (ofExcept result) :=
  obeys_ofExcept fun e s _ => throw_printing (α := α) e s

theorem failure?_print (line : String) (s : Session) : (print line).failure? s = none := rfl

/-- Lines can always be printed. -/
theorem failure?_prints (items : List α) (line : α → String) (s : Session) :
    (items.forM fun item => print (line item)).failure? s = none := by
  rw [failure?_forM fun item s => failure?_print (line item) s]
  simp

theorem failure?_ofExcept_bind {result : Except Failure α} {next : α → Run β} :
    (ofExcept result >>= next).failure? s = some e ↔
      result = .error e ∨ ∃ a, result = .ok a ∧ (next a).failure? s = some e := by
  cases result <;> simp [failure?, ofExcept, bind, EStateM.bind, pure, EStateM.pure]

end Run

end Foundry
