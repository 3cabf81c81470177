import Foundry.Diagnostic.Report
import Foundry.Proofs.Diagnostic.Template
import Foundry.Proofs.Run
import Mathlib.Data.List.TakeWhile

/-! Messages whose templates are literal text and plain fields. Such a template is read back as what it is
written from, and a report takes in its message as a whole, with all values as they are, or not at all. -/
namespace Foundry

namespace Template

/-- A part of a template: a character of its text, or a field that has a name and nothing else. -/
inductive Part where
  | char (c : Char)
  | field (name : String)
deriving DecidableEq

/-- The part as a template writes it; a brace that is text is written twice. -/
def Part.written : Part → List Char
  | char c => if c = '\x7b' ∨ c = '\x7d' then [c, c] else [c]
  | field name => '\x7b' :: name.toList ++ ['\x7d']

/-- The template that is written from parts. -/
def written (parts : List Part) : String := String.ofList (parts.flatMap Part.written)

def Part.piece : Part → Piece
  | char c => .char c
  | field name => .field name none ""

/-- What is put in for a part; a field shows the value of its argument. -/
def Part.filled (arguments : Table) : Part → String
  | char c => c.toString
  | field name => (arguments.get? name).elim "" Value.plain

/-- The characters with which an identifier of some alphabet may begin, and some more beyond ASCII. -/
def opensName (c : Char) : Bool := c.isAlpha || c = '_' || 127 < c.toNat

/-- A name of the characters of identifiers that begins like one. -/
def IsIdentifier (name : String) : Prop :=
  ∃ first rest, name.toList = first :: rest ∧ opensName first = true ∧
    ∀ c ∈ rest, (opensName c || c.isDigit) = true

/-- Each field has an argument. -/
def Given (arguments : Table) (parts : List Part) : Prop :=
  ∀ name, .field name ∈ parts → arguments.has name = true

theorem given_cons {arguments : Table} {part : Part} {parts : List Part} :
    Given arguments (part :: parts) ↔ Given arguments [part] ∧ Given arguments parts := by
  simp only [Given, List.mem_cons, List.not_mem_nil, or_false, or_imp, forall_and]

theorem notDigit_of_opensName {c : Char} (opens : opensName c = true) : c.isDigit = false := by
  rw [Bool.eq_false_iff]
  intro digit
  have range : 48 ≤ c.toNat ∧ c.toNat ≤ 57 := Char.isDigit_iff_toNat.mp digit
  have other : c ≠ '_' := by
    rintro rfl
    contradiction
  have letters : c.isAlpha =
      (decide (65 ≤ c.val ∧ c.val ≤ 90) || decide (97 ≤ c.val) && decide (c.val ≤ 122)) := rfl
  have outside : (65 ≤ c.toNat ∧ c.toNat ≤ 90 ∨ 97 ≤ c.toNat ∧ c.toNat ≤ 122) ∨ 127 < c.toNat := by
    simpa [opensName, letters, UInt32.le_iff_toNat_le, other] using opens
  omega

namespace IsIdentifier

variable {name : String}

theorem char_mem (identifier : IsIdentifier name) (member : c ∈ name.toList) :
    (opensName c || c.isDigit) = true := by
  obtain ⟨first, rest, chars, opens, others⟩ := identifier
  rw [chars, List.mem_cons] at member
  rcases member with rfl | member
  · simp [opens]
  · exact others c member

theorem ne (identifier : IsIdentifier name) (member : c ∈ name.toList) (mark : Char)
    (other : (opensName mark || mark.isDigit) = false) : c ≠ mark := by
  rintro rfl
  simp [identifier.char_mem member] at other

/-- An identifier names no part of a value. -/
theorem span_beginsPart (identifier : IsIdentifier name) :
    name.toList.takeWhile (!beginsPart ·) = name.toList ∧
      name.toList.dropWhile (!beginsPart ·) = [] := by
  have all : ∀ c ∈ name.toList, (!beginsPart c) = true := fun c member => by
    simp [beginsPart, identifier.ne member '.' (by decide), identifier.ne member '[' (by decide)]
  exact ⟨List.takeWhile_eq_self_iff.mpr all, List.dropWhile_eq_nil_iff.mpr all⟩

theorem index?_eq (identifier : IsIdentifier name) : index? name.toList = .ok none := by
  obtain ⟨first, rest, chars, opens, -⟩ := identifier
  simp [index?, chars, notDigit_of_opensName opens]

/-- What is asked for under an identifier is the argument of that name as a whole. -/
theorem argument_eq (identifier : IsIdentifier name) (arguments : Table) : argument arguments name =
    match arguments.get? name with
    | none => .error (.missing name)
    | some value => .ok value := by
  obtain ⟨whole, nothing⟩ := identifier.span_beginsPart
  have nonempty : name.toList.isEmpty = false := by
    obtain ⟨first, rest, chars, -⟩ := identifier
    simp [chars]
  simp only [argument, whole, nothing, nonempty, identifier.index?_eq, String.ofList_toList]
  cases found : arguments.get? name with
  | none => simp [bind, Except.bind, throw, throwThe, MonadExceptOf.throw]
  | some value => cases length : name.length <;> simp [bind, Except.bind, pure, Except.pure, follow]

end IsIdentifier

theorem readName_identifier {name : String} (identifier : IsIdentifier name) (rest : List Char) :
    readName [] false (name.toList ++ '\x7d' :: rest) = .ok (name, '\x7d', rest) := by
  have general (chars done : List Char) (inside : ∀ c ∈ chars, c ∈ name.toList) :
      readName done false (chars ++ '\x7d' :: rest) =
        .ok (String.ofList (done.reverse ++ chars), '\x7d', rest) := by
    induction chars generalizing done with
    | nil => simp [readName]
    | cons c chars ih =>
        have ne := identifier.ne (inside c List.mem_cons_self)
        have later := ih (c :: done) fun d inner => inside d (List.mem_cons_of_mem _ inner)
        simp [readName, ne '\x7b' (by decide), ne '\x7d' (by decide), ne ':' (by decide), ne '!' (by decide),
          ne '[' (by decide), later]
  simpa using general name.toList [] fun _ => id

theorem readField_identifier {name : String} (identifier : IsIdentifier name) (rest : List Char) :
    readField (name.toList ++ '\x7d' :: rest) = .ok (.field name none "", rest) := by
  simp [readField, readName_identifier identifier, bind, Except.bind, pure, Except.pure]

section Reading
variable {done : List Piece} {fuel : Nat}

theorem readPieces_char (c : Char) (rest : List Char) :
    readPieces done (fuel + 1) (Part.written (.char c) ++ rest) = readPieces (.char c :: done) fuel rest := by
  rw [readPieces.eq_def]
  by_cases brace : c = '\x7b' ∨ c = '\x7d'
  · rcases brace with rfl | rfl <;> simp [Part.written]
  · rw [not_or] at brace
    simp [Part.written, brace]

theorem readPieces_field {name : String} (identifier : IsIdentifier name) (rest : List Char) :
    readPieces done (fuel + 1) (Part.written (.field name) ++ rest) =
      readPieces (.field name none "" :: done) fuel rest := by
  have read := readField_identifier identifier rest
  obtain ⟨first, others, chars, opens, -⟩ := identifier
  have other : first ≠ '\x7b' := by
    rintro rfl
    contradiction
  rw [readPieces.eq_def]
  simp only [chars, List.cons_append] at read
  simp [Part.written, chars, other, read]

/-- A written template is read back part by part. -/
theorem readPieces_written {parts : List Part} (named : ∀ name, .field name ∈ parts → IsIdentifier name)
    (enough : (parts.flatMap Part.written).length < fuel) (done : List Piece) :
    readPieces done fuel (parts.flatMap Part.written) = done.reverse ++ parts.map Part.piece := by
  obtain ⟨fuel, rfl⟩ := Nat.exists_eq_add_one_of_ne_zero (Nat.ne_of_gt (Nat.zero_lt_of_lt enough))
  induction parts generalizing fuel done with
  | nil => simp [readPieces]
  | cons part parts ih =>
      have some : 0 < part.written.length := by
        cases part with
        | char c =>
            rw [Part.written]
            split <;> simp
        | field name => simp [Part.written]
      have shorter : (parts.flatMap Part.written).length < fuel := by
        rw [List.flatMap_cons, List.length_append] at enough
        omega
      obtain ⟨fuel, rfl⟩ := Nat.exists_eq_add_one_of_ne_zero (Nat.ne_of_gt (Nat.zero_lt_of_lt shorter))
      have later := ih (fun name member => named name (List.mem_cons_of_mem _ member)) (part.piece :: done)
        fuel shorter
      rw [List.reverse_cons, List.append_assoc, List.singleton_append] at later
      rw [List.map_cons, ← later, List.flatMap_cons]
      cases part with
      | char c => exact readPieces_char c _
      | field name => exact readPieces_field (named name List.mem_cons_self) _

end Reading

theorem pieces_written {parts : List Part} (named : ∀ name, .field name ∈ parts → IsIdentifier name) :
    pieces (written parts) = parts.map Part.piece := by
  have enough : (parts.flatMap Part.written).length < (written parts).length + 1 := by
    rw [written, ← String.length_toList, String.toList_ofList]
    exact Nat.lt_succ_self _
  rw [pieces, written, String.toList_ofList]
  exact readPieces_written named enough []

section Filling
variable {inner : String → Except FillError String} {arguments : Table}

theorem fillPieces_char (done : List String) (c : Char) (rest : List Piece) :
    fillPieces inner arguments done (Part.piece (.char c) :: rest) =
      fillPieces inner arguments (c.toString :: done) rest := rfl

theorem fillPieces_field {name : String} (identifier : IsIdentifier name) (done : List String)
    (rest : List Piece) : fillPieces inner arguments done (Part.piece (.field name) :: rest) =
      match arguments.get? name with
      | none => .error (.missing name)
      | some value => fillPieces inner arguments (value.plain :: done) rest := by
  rw [Part.piece, fillPieces, identifier.argument_eq]
  cases arguments.get? name with
  | none => rfl
  | some value =>
      have shown : showStyled value "" = .ok value.plain := rfl
      simp [convert, shown, bind, Except.bind, pure, Except.pure]

/-- Where each field has an argument, every part is filled in. -/
theorem fillPieces_given {parts : List Part} (named : ∀ name, .field name ∈ parts → IsIdentifier name)
    (given : Given arguments parts) (done : List String) (rest : List Piece) :
    fillPieces inner arguments done (parts.map Part.piece ++ rest) =
      fillPieces inner arguments ((parts.map (Part.filled arguments)).reverse ++ done) rest := by
  induction parts generalizing done with
  | nil => rfl
  | cons part parts ih =>
      have later := ih (fun name member => named name (List.mem_cons_of_mem _ member))
        (fun name member => given name (List.mem_cons_of_mem _ member)) (part.filled arguments :: done)
      rw [List.map_cons, List.cons_append, List.map_cons, List.reverse_cons, List.append_assoc,
        List.singleton_append, ← later]
      cases part with
      | char c => exact fillPieces_char done c _
      | field name =>
          obtain ⟨value, found⟩ := Option.isSome_iff_exists.mp (given name List.mem_cons_self)
          rw [fillPieces_field (named name List.mem_cons_self)]
          simp [Part.filled, found]

end Filling

/-- A template all of whose fields have arguments is filled in with them. -/
theorem fill_written {parts : List Part} {arguments : Table}
    (named : ∀ name, .field name ∈ parts → IsIdentifier name) (given : Given arguments parts) :
    fill (written parts) arguments = .ok (String.join (parts.map (Part.filled arguments))) := by
  rw [fill, fillDeep, pieces_written named, ← List.append_nil (parts.map Part.piece),
    fillPieces_given named given, fillPieces]
  simp [pure, Except.pure]

/-- The first field without an argument is named. -/
theorem fill_missing {before after : List Part} {name : String} {arguments : Table}
    (named : ∀ other, .field other ∈ before ++ .field name :: after → IsIdentifier other)
    (given : Given arguments before) (missing : arguments.has name = false) :
    fill (written (before ++ .field name :: after)) arguments = .error (.missing name) := by
  have absent : arguments.get? name = none := by simpa [Table.has] using missing
  rw [fill, fillDeep, pieces_written named, List.map_append, List.map_cons,
    fillPieces_given (fun other member => named other (List.mem_append_left _ member)) given,
    fillPieces_field (named name (by simp)), absent]

/-- Either each field has an argument, or one is the first that has none. -/
theorem given_or_missing (arguments : Table) (parts : List Part) :
    Given arguments parts ∨ ∃ before name after, parts = before ++ .field name :: after ∧
      Given arguments before ∧ arguments.has name = false := by
  induction parts with
  | nil => exact .inl nofun
  | cons part parts ih =>
      by_cases here : Given arguments [part]
      · rcases ih with given | ⟨before, name, after, rfl, given, missing⟩
        · exact .inl (given_cons.mpr ⟨here, given⟩)
        · exact .inr ⟨part :: before, name, after, rfl, given_cons.mpr ⟨here, given⟩, missing⟩
      · cases part with
        | char c => exact absurd (fun name member => by simp at member) here
        | field name =>
            refine .inr ⟨[], name, parts, rfl, nofun, Bool.eq_false_iff.mpr fun has => here ?_⟩
            rintro other member
            simp only [List.mem_singleton, Part.field.injEq] at member
            exact member ▸ has

end Template

namespace Catalog
variable {catalog : Catalog} {message : Message} {arguments : Table} {text : String}

/-- A registered message is its template filled in. -/
theorem text_of_registered (registered : catalog.get? message.code = some message)
    (free : arguments.has "code" = false) : catalog.text message.code arguments =
      (Template.fill message.template arguments).mapError (.unfilled message) := by
  simp only [text, free, registered, Bool.false_eq_true, if_false]
  cases Template.fill message.template arguments <;> rfl

end Catalog

namespace Report

/-- A report takes in what the catalog has to say under a code, and nothing if that cannot be said. -/
theorem emit_of_registered {catalog : Catalog} {message : Message} {arguments : Table}
    (registered : catalog.get? message.code = some message)
    (free : ∀ name ∈ ["r", "em", "stage"], arguments.has name = false) (report : Report)
    (stage : Option String) : report.emit catalog message.code stage arguments =
      (catalog.text message.code arguments).map fun text =>
        report.push ⟨message.severity, message.code, text, stage⟩ := by
  have clear : ["r", "em", "stage"].any arguments.has = false := by simpa using free
  rw [emit, clear, registered]
  cases catalog.text message.code arguments <;> rfl

/-- A warning about a tool, with braces that are text. -/
def leftBehind : Message :=
  { code := "CW1", severity := .warning, template := "\x7btool\x7d left \x7b\x7b\x7bcount\x7d\x7d\x7d" }

/-- The parts of its template. -/
def leftBehindParts : List Template.Part :=
  .field "tool" :: " left \x7b".toList.map .char ++ [.field "count", .char '\x7d']

end Report
end Foundry
