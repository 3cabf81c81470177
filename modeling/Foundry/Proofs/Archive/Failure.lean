import Foundry.Library.Manifest
import Foundry.Proofs.Run

/-! How reading an archive fails: it is none, or its stream ends badly where more of it is asked for; a
stream that is complete is never blamed. Looking for the content of a member can fail in two more ways,
where a link leads nowhere or links lead around. -/
namespace Foundry

theorem except_mapError_eq_error {f : ε → ε'} {result : Except ε α} :
    result.mapError f = .error e ↔ ∃ e', result = .error e' ∧ f e' = e := by
  constructor
  · intro failed
    cases result with
    | ok a => cases failed
    | error e' => exact ⟨e', rfl, Except.error.inj failed⟩
  · rintro ⟨e', rfl, rfl⟩
    rfl

namespace Tar

/-- Where there is no result, there is no archive or the stream ends badly. -/
def Blames (stream : DataStream) (result : Except ReadFailure α) : Prop :=
  ∀ e, result = .error e → e = .malformed ∨ e = .stream stream.ending ∧ stream.ending ≠ .complete

variable {stream : DataStream}

namespace Blames
variable {first : Except ReadFailure α}

theorem ok (a : α) : Blames stream (.ok a) := nofun

theorem malformed : Blames stream (.error .malformed : Except ReadFailure α) := fun _ same =>
  .inl (Except.error.inj same).symm

theorem ending (incomplete : stream.ending ≠ .complete) :
    Blames stream (.error (.stream stream.ending) : Except ReadFailure α) := fun _ same =>
  .inr ⟨(Except.error.inj same).symm, incomplete⟩

theorem bind {next : α → Except ReadFailure β} (blaming : Blames stream first)
    (rest : ∀ a, Blames stream (next a)) : Blames stream (first >>= next) := by
  intro e failed
  rcases except_bind_eq_error.mp failed with failed | ⟨a, -, failed⟩
  · exact blaming e failed
  · exact rest a e failed

theorem map (f : α → β) (blaming : Blames stream first) : Blames stream (first.map f) := by
  cases first with
  | ok a => exact nofun
  | error e => exact fun e' failed => blaming e' (congrArg _ (Except.error.inj failed))

end Blames

theorem readAt_blames (place size : Nat) : Blames stream (readAt stream place size) := by
  unfold readAt
  dsimp only
  split
  · exact .ok _
  · rename_i short
    exact .ending fun complete => short (.inr complete)

theorem readBlock_blames (place : Nat) : Blames stream (readBlock stream place) := by
  refine (readAt_blames _ _).bind fun block => ?_
  split
  · exact .ok _
  · split
    · exact .ok _
    · split
      · exact .ok _
      · split <;> exact .ok _

/-- The two readers call each other with less fuel, so one induction is for both. -/
theorem readers_blame (fuel : Nat) :
    (∀ fields header place, Blames stream (readMember stream fields header place fuel)) ∧
      ∀ fields place, Blames stream (readNext stream fields place fuel) := by
  induction fuel with
  | zero =>
      constructor
      · intro fields header place
        rw [readMember]
        exact .malformed
      · intro fields place
        rw [readNext]
        exact .malformed
  | succ fuel ih =>
      obtain ⟨member, next⟩ := ih
      constructor
      · intro fields header place
        rw [readMember]
        dsimp only
        split
        · exact (readAt_blames _ _).bind fun _ => (next _ _).bind fun _ => .ok _
        · exact (readAt_blames _ _).bind fun _ => (next _ _).bind fun _ => .ok _
        · refine (readAt_blames _ _).bind fun _ => ?_
          split
          · exact .ok _
          · exact (next _ _).bind fun _ => .ok _
        · refine (readAt_blames _ _).bind fun _ => ?_
          split
          · exact .ok _
          · exact (next _ _).bind fun _ => .ok _
        · exact .ok _
      · intro fields place
        rw [readNext]
        refine (readBlock_blames _).bind fun block => ?_
        split
        · refine (member _ _ _).bind fun step => ?_
          split
          · exact .ok _
          · exact .malformed
        · exact .malformed

theorem reach_blames (place : Nat) : Blames stream (reach stream place) := by
  unfold reach
  split
  · exact .ok _
  · split
    · exact .malformed
    · rename_i incomplete
      exact .ending incomplete

theorem readEntry_blames (fields : Fields) (place : Nat) : Blames stream (readEntry stream fields place) := by
  refine (readBlock_blames _).bind fun block => ?_
  cases block with
  | zeros => exact .ok _
  | nothing | invalid =>
      dsimp only
      split
      · exact .malformed
      · exact .ok _
  | header header =>
      refine ((readers_blame _).1 _ _ _).bind fun step => ?_
      split
      · split
        · exact .malformed
        · exact .ok _
      · exact .ok _

/-- What a header is refused for is taken for no archive, or for what it is. -/
theorem headerFailure_blames {result : Except ReadFailure α} (blaming : Blames stream result) (place : Nat) :
    Blames stream (result.mapError (headerFailure place)) := by
  intro e failed
  obtain ⟨e', unmapped, rfl⟩ := except_mapError_eq_error.mp failed
  have blamed := blaming e' unmapped
  unfold headerFailure
  split
  · exact .inl rfl
  · split
    · exact .inl rfl
    · exact blamed
  · exact blamed

/-- A place is reached before anything is read there. -/
theorem there_blames {rest : Except ReadFailure α} (blaming : Blames stream rest) (place : Nat) :
    Blames stream (do
      if 0 < place then reach stream place
      rest) := by
  split
  · exact (reach_blames _).bind fun _ => blaming
  · exact blaming

theorem readMembers_blames (done : List Member) (fields : Fields) (place fuel : Nat) :
    Blames stream (readMembers stream done fields place fuel) := by
  induction fuel generalizing done fields place with
  | zero => exact .ok _
  | succ fuel ih =>
      have entry : Blames stream ((readEntry stream fields place).mapError (headerFailure place)) :=
        headerFailure_blames (readEntry_blames fields place) place
      rw [readMembers]
      cases read : (readEntry stream fields place).mapError (headerFailure place) with
      | error failure =>
          rw [read] at entry
          exact there_blames (fun e same => entry e (Except.error.inj same ▸ rfl)) place
      | ok step? =>
          cases step? with
          | none => exact there_blames (.ok _) place
          | some step => exact there_blames (ih _ _ _) place

theorem members_blames (stream : DataStream) : Blames stream (members stream) :=
  readMembers_blames [] [] 0 _

theorem content_blames (stream : DataStream) (member : Member) : Blames stream (content stream member) := by
  refine (readAt_blames _ _).bind fun found => ?_
  split
  · exact .malformed
  · exact .ok _

end Tar

namespace Manifest

/-- How a file keeps a manifest from being found in it as in an archive. -/
inductive Withholds (file : Bytes) : Failure → Prop where
  | notArchive : Withholds file .notArchive
  | badStream : (Gzip.read file).ending ≠ .complete → Withholds file (.badStream (Gzip.read file).ending)
  | linkNotFound (name) : Withholds file (.linkNotFound name)
  | linkLoop : Withholds file .linkLoop

theorem Withholds.of_blames {file : Bytes} {result : Except Tar.ReadFailure α}
    (blaming : Tar.Blames (Gzip.read file) result) (failed : result.mapError failure = .error e) :
    Withholds file e := by
  obtain ⟨e', unmapped, rfl⟩ := except_mapError_eq_error.mp failed
  rcases blaming e' unmapped with rfl | ⟨rfl, incomplete⟩
  · exact .notArchive
  · exact .badStream incomplete

theorem contentOf_withholds {file : Bytes} {members : List Tar.Member} {member : Tar.Member} {fuel : Nat}
    (failed : contentOf (Gzip.read file) members member fuel = .error e) : Withholds file e := by
  induction fuel generalizing member with
  | zero =>
      rw [contentOf] at failed
      cases failed
      exact .linkLoop
  | succ fuel ih =>
      rw [contentOf] at failed
      have content := (Tar.content_blames (Gzip.read file) member).map some
      split at failed
      · exact .of_blames content failed
      · exact .of_blames content failed
      · dsimp only at failed
        split at failed
        · exact ih failed
        · cases failed
          exact .linkNotFound _
      · dsimp only at failed
        split at failed
        · exact ih failed
        · cases failed
          exact .linkNotFound _
      · cases failed

theorem inArchive_withholds {file : Bytes} (failed : inArchive file = .error e) : Withholds file e := by
  rcases except_bind_eq_error.mp failed with unread | ⟨members, -, rest⟩
  · exact .of_blames (Tar.members_blames _) unread
  · split at rest
    · nomatch rest
    · exact contentOf_withholds rest

end Manifest

end Foundry
