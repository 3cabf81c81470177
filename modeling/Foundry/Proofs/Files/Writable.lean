import Foundry.Proofs.FileSystem.Reach
import Foundry.Proofs.Files.Operation

/-! Files that can be read and files that can be written. Writing succeeds wherever a name stands in a
directory and is not itself that of a directory, and it takes nothing away from the paths of other
files. -/
namespace Foundry

namespace FileSystem
variable {fs : FileSystem} {place : Location} {path : String}

theorem here_put (fs : FileSystem) (place : Location) (entry : Entry) :
    (fs.put place entry).here = fs.here := rfl

/-- Only the last file that was put at a location is there. -/
theorem put_put (fs : FileSystem) (place : Location) (first second : Entry) :
    (fs.put place first).put place second = fs.put place second := by
  simp [put, without]

/-- A file takes the place of no directory. -/
theorem directory_put (free : fs.entry? place ≠ some .directory) (content : Bytes)
    (stands : fs.entry? other = some .directory) :
    entry? (fs.put place (.file content)) other = some .directory := by
  have different : other ≠ place := by
    rintro rfl
    exact free stands
  rw [entry?_put_of_ne _ different, stands]

/-- A file with this content can be read under this path. -/
structure Readable (fs : FileSystem) (path : String) (content : Bytes) : Prop where
  whole : Files.holdsZero path = false
  read : fs.read path = .ok content

/-- A file can be written under this path: its last step is a name in a directory, and no directory has
that name. -/
structure Writable (fs : FileSystem) (path : String) : Prop where
  whole : Files.holdsZero path = false
  named : ∃ directory name, fs.last path = .ok (.name directory name false)
  free : fs.entry? (spot fs.here path) ≠ some .directory

theorem Readable.status (readable : fs.Readable path content) : fs.stat path = .ok (.file content) := by
  obtain ⟨located, stands⟩ := read_ok readable.read
  exact stat_of_locate located stands

/-- Another file can be read as before. -/
theorem Readable.put (readable : fs.Readable path found) (free : fs.entry? place ≠ some .directory)
    (apart : spot fs.here path ≠ place) (content : Bytes) :
    (fs.put place (.file content)).Readable path found := by
  obtain ⟨located, stands⟩ := read_ok readable.read
  have stays : fs.StaysOpen (fs.put place (.file content)) (startOf fs.here path) (Text.split '/' path) :=
    .of_directories fun _ => directory_put free content
  have located := locate_stays (here_put ..) stays located
  refine ⟨readable.whole, ?_⟩
  simp [FileSystem.read, stat, bind, Except.bind, located, entry?_put_of_ne _ apart, stands]

theorem Writable.write (writable : fs.Writable path) (content : Bytes) :
    fs.write path content = .ok (fs.put (spot fs.here path) (.file content)) := by
  obtain ⟨directory, name, found⟩ := writable.named
  have free := writable.free
  rw [(last_name found).1] at free ⊢
  simp [FileSystem.write, bind, Except.bind, found]

/-- That is all that writing needs. -/
theorem writable_iff (content : Bytes) : fs.Writable path ↔
    Files.holdsZero path = false ∧ ∃ after, fs.write path content = .ok after := by
  refine ⟨fun writable => ⟨writable.whole, _, writable.write content⟩, fun ⟨whole, after, wrote⟩ => ?_⟩
  obtain ⟨last, found, wrote⟩ := except_bind_eq_ok.mp wrote
  match last with
  | .name directory name false =>
      refine ⟨whole, ⟨directory, name, found⟩, ?_⟩
      rw [(last_name found).1]
      intro stands
      simp [stands] at wrote
  | .name _ _ true | .self _ | .above _ | .root => nomatch wrote

theorem Writable.below (writable : fs.Writable path) : spot fs.here path ≠ [] := by
  intro root
  have free := writable.free
  simp [root] at free

theorem Writable.put (writable : fs.Writable path) (free : fs.entry? place ≠ some .directory)
    (content : Bytes) : (fs.put place (.file content)).Writable path := by
  obtain ⟨directory, name, found⟩ := writable.named
  have below : place ≠ [] := by
    rintro rfl
    simp at free
  have stays : fs.StaysOpen (fs.put place (.file content)) (startOf fs.here path) (Text.split '/' path) :=
    .of_directories fun _ => directory_put free content
  refine ⟨writable.whole, ⟨directory, name, last_stays (here_put ..) stays found⟩, ?_⟩
  show entry? (fs.put place (.file content)) (spot fs.here path) ≠ some .directory
  rw [entry?_put _ below]
  split
  · simp
  · exact writable.free

end FileSystem

/-- The session in which this is the file under this path. -/
def Session.writing (s : Session) (path : String) (content : Bytes) : Session :=
  { s with files := s.files.put (FileSystem.spot s.files.here path) (.file content) }

/-- What is written again takes the place of what was written. -/
theorem Session.writing_writing (s : Session) (path : String) (first second : Bytes) :
    (s.writing path first).writing path second = s.writing path second := by
  simp only [writing, FileSystem.here_put, FileSystem.put_put]

namespace Files
open Run FileSystem
variable {s : Session}

theorem read_of_readable {path : String} (readable : s.files.Readable path content) :
    read path s = .ok content s := by
  rw [read, ask_apply, readable.whole, if_neg Bool.false_ne_true, readable.read]

theorem write_of_writable {path : String} (writable : s.files.Writable path) (content : Bytes) :
    write path content s = .ok () (s.writing path content) := by
  have asked : ask path (fun fs => fs.write path content) s =
      .ok (s.files.put (spot s.files.here path) (.file content)) s := by
    rw [ask_apply, writable.whole, if_neg Bool.false_ne_true, writable.write]
  exact bind_eq_ok.mpr ⟨_, _, asked, rfl⟩

/-- A file that can be read is copied to wherever a file can be written that is not itself. -/
theorem copy_of_writable {source target : String} (readable : s.files.Readable source content)
    (writable : s.files.Writable target)
    (apart : spot s.files.here source ≠ spot s.files.here target) :
    copy source (.text target) s = .ok () (s.writing target content) := by
  have other : same source target s = .ok false s := by
    rw [same, bind_of_ok (checked_of_whole readable.whole s), bind_of_ok (current_apply s), readable.status]
    dsimp only
    rw [bind_of_ok (checked_of_whole writable.whole s)]
    cases status' : s.files.stat target with
    | error errno => rfl
    | ok entry =>
        simp only [(read_ok readable.read).1, (FileSystem.stat_ok status').1]
        exact pure_eq_ok.mpr ⟨decide_eq_false apart, rfl⟩
  refine bind_eq_ok.mpr ⟨false, s, other, bind_eq_ok.mpr ⟨content, s, read_of_readable readable, ?_⟩⟩
  refine bind_eq_ok.mpr ⟨(), s, checked_of_whole writable.whole s, ?_⟩
  refine bind_eq_ok.mpr ⟨s.files, s, current_apply s, ?_⟩
  simp only [FileName.plain, writable.write]
  rfl

end Files

end Foundry
