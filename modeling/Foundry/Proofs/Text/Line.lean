import Mathlib.Data.List.Infix
import Foundry.Proofs.Text.Ascii
import Foundry.Proofs.Text.Split
import Foundry.Text.Line

/-! Lines of bytes and lines of text. Bytes fall into lines in one way, and the lines of the text that
they are read as are these, each read on its own. -/
namespace Foundry

open Utf8

/-- What ends a line. -/
inductive LineEnd where
  | lf
  | crlf
  | cr
deriving DecidableEq, Repr

def LineEnd.bytes : LineEnd → Bytes
  | lf => [0x0A]
  | crlf => [0x0D, 0x0A]
  | cr => [0x0D]

/-- What the end of a line is read as. -/
def LineEnd.chars : LineEnd → List Char
  | lf => ['\n']
  | crlf => ['\r', '\n']
  | cr => ['\r']

/-- A text is decoded in two parts at the end of a line. -/
theorem LineEnd.decodeLossy_append (ending : LineEnd) (content rest : Bytes) :
    (decodeLossy (content ++ (ending.bytes ++ rest))).toList =
      (decodeLossy content).toList ++ (ending.chars ++ (decodeLossy rest).toList) := by
  have feed (content : Bytes) : (decodeLossy (content ++ 0x0A :: rest)).toList =
      (decodeLossy content).toList ++ '\n' :: (decodeLossy rest).toList :=
    decodeLossy_ascii (by decide) content rest
  have back (rest : Bytes) : (decodeLossy (content ++ 0x0D :: rest)).toList =
      (decodeLossy content).toList ++ '\r' :: (decodeLossy rest).toList :=
    decodeLossy_ascii (by decide) content rest
  cases ending with
  | lf => exact feed content
  | crlf => exact (back _).trans (congrArg (_ ++ '\r' :: ·) (feed []))
  | cr => exact back rest

/-- The end of a line can be told if a CR before an LF is no end without it. -/
theorem LineEnd.append_inj {ending ending' : LineEnd} {rest rest' : Bytes}
    (apart : ending = .cr → rest.head? ≠ some 0x0A) (apart' : ending' = .cr → rest'.head? ≠ some 0x0A)
    (same : ending.bytes ++ rest = ending'.bytes ++ rest') : ending = ending' ∧ rest = rest' := by
  cases ending <;> cases ending' <;>
    simp only [bytes, List.cons_append, List.nil_append, List.cons.injEq] at same
  case lf.lf | crlf.crlf | cr.cr => exact ⟨rfl, by simp_all⟩
  case crlf.cr => exact absurd (by rw [← same.2]; rfl) (apart' rfl)
  case cr.crlf => exact absurd (by rw [same.2]; rfl) (apart rfl)
  all_goals exact absurd same.1 (by decide)

/-- A line of bytes: what stands in it, and what ends it. -/
structure ByteLine where
  content : Bytes
  ending : Option LineEnd
deriving DecidableEq, Repr

namespace ByteLine

def bytes (line : ByteLine) : Bytes := line.content ++ (line.ending.map LineEnd.bytes).getD []

/-- The text of a line without what ends it. -/
def text (line : ByteLine) : String := decodeLossy line.content

/-- The text of a line, whatever ends it being shown as an LF. -/
def shown (line : ByteLine) : String := line.text ++ if line.ending.isSome then "\n" else ""

/-- The bytes of lines one after another. -/
def join (lines : List ByteLine) : Bytes := lines.flatMap bytes

@[simp] theorem join_nil : join [] = [] := rfl

@[simp] theorem join_cons (line : ByteLine) (lines : List ByteLine) :
    join (line :: lines) = line.bytes ++ join lines := rfl

@[simp] theorem join_append (first rest : List ByteLine) :
    join (first ++ rest) = join first ++ join rest := List.flatMap_append

/-- Bytes that end no line. -/
def Plain (bytes : Bytes) : Prop := ∀ byte ∈ bytes, byte ≠ 0x0A ∧ byte ≠ 0x0D

/-- The lines that bytes can fall into: only the last one can be without an end, and it is not empty
then, and a CR that stands before an LF ends no line without it. -/
inductive Lines : List ByteLine → Prop where
  | nil : Lines []
  | open (content) : Plain content → content ≠ [] → Lines [⟨content, none⟩]
  | ended (content ending rest) : Plain content → (ending = .cr → (join rest).head? ≠ some 0x0A) →
      Lines rest → Lines (⟨content, some ending⟩ :: rest)

instance (bytes : Bytes) : Decidable (Plain bytes) :=
  inferInstanceAs (Decidable (∀ byte ∈ bytes, byte ≠ 0x0A ∧ byte ≠ 0x0D))

theorem plain_nil : Plain [] := nofun

theorem plain_cons {byte : UInt8} {bytes : Bytes} (other : byte ≠ 0x0A ∧ byte ≠ 0x0D)
    (plain : Plain bytes) : Plain (byte :: bytes) := List.forall_mem_cons.mpr ⟨other, plain⟩

/-- Lines that begin with an LF begin with an empty line. -/
theorem Lines.of_lf {lines : List ByteLine} (lined : Lines lines)
    (first : (join lines).head? = some 0x0A) :
    ∃ rest, lines = ⟨[], some .lf⟩ :: rest ∧ Lines rest := by
  have never {content : Bytes} (plain : Plain content) (head : content.head? = some 0x0A) : False :=
    (plain _ (List.mem_of_mem_head? head)).1 rfl
  cases lined with
  | nil => nomatch first
  | «open» content plain nonempty =>
      simp only [join_cons, join_nil, bytes, Option.map_none, Option.getD_none, List.append_nil] at first
      exact (never plain first).elim
  | ended content ending rest plain apart lined =>
      cases content with
      | cons byte more => exact (never plain (by simpa [bytes] using first)).elim
      | nil =>
          cases ending with
          | lf => exact ⟨rest, rfl, lined⟩
          | crlf | cr => simp [bytes, LineEnd.bytes] at first

/-- All bytes fall into lines. -/
theorem exists_lines (bytes : Bytes) : ∃ lines, Lines lines ∧ join lines = bytes := by
  induction bytes with
  | nil => exact ⟨[], .nil, rfl⟩
  | cons byte rest ih =>
      obtain ⟨lines, lined, rfl⟩ := ih
      by_cases lf : byte = 0x0A
      · exact ⟨⟨[], some .lf⟩ :: lines, .ended [] .lf lines plain_nil nofun lined,
          by simp [lf, bytes, LineEnd.bytes]⟩
      by_cases cr : byte = 0x0D
      · by_cases first : (join lines).head? = some 0x0A
        · obtain ⟨rest, rfl, later⟩ := lined.of_lf first
          exact ⟨⟨[], some .crlf⟩ :: rest, .ended [] .crlf rest plain_nil nofun later,
            by simp [cr, bytes, LineEnd.bytes]⟩
        · exact ⟨⟨[], some .cr⟩ :: lines, .ended [] .cr lines plain_nil (fun _ => first) lined,
            by simp [cr, bytes, LineEnd.bytes]⟩
      cases lined with
      | nil =>
          exact ⟨[⟨[byte], none⟩], .open [byte] (plain_cons ⟨lf, cr⟩ plain_nil) (List.cons_ne_nil _ _),
            by simp [bytes]⟩
      | «open» content plain nonempty =>
          exact ⟨[⟨byte :: content, none⟩],
            .open (byte :: content) (plain_cons ⟨lf, cr⟩ plain) (List.cons_ne_nil _ _), by simp [bytes]⟩
      | ended content ending rest plain apart lined =>
          exact ⟨⟨byte :: content, some ending⟩ :: rest,
            .ended (byte :: content) ending rest (plain_cons ⟨lf, cr⟩ plain) apart lined, by simp [bytes]⟩

/-- What ends a line begins with a byte that is not plain. -/
theorem not_plain_head {content more rest : Bytes} {byte : UInt8} (plain : Plain content)
    (stops : byte = 0x0A ∨ byte = 0x0D) (same : content ++ more = byte :: rest) :
    content = [] ∧ more = byte :: rest := by
  cases content with
  | nil => exact ⟨rfl, same⟩
  | cons first content =>
      obtain rfl := (List.cons.inj same).1
      have other := plain first List.mem_cons_self
      exact (stops.elim other.1 other.2).elim

/-- What stands before the first line end. -/
theorem plain_append_inj {first second rest rest' : Bytes} {byte byte' : UInt8} (plain : Plain first)
    (plain' : Plain second) (stops : byte = 0x0A ∨ byte = 0x0D) (stops' : byte' = 0x0A ∨ byte' = 0x0D)
    (same : first ++ byte :: rest = second ++ byte' :: rest') :
    first = second ∧ byte = byte' ∧ rest = rest' := by
  induction first generalizing second with
  | nil =>
      obtain ⟨rfl, same⟩ := not_plain_head plain' stops same.symm
      obtain ⟨rfl, rfl⟩ := List.cons.inj same
      exact ⟨rfl, rfl, rfl⟩
  | cons head first ih =>
      cases second with
      | nil => nomatch (not_plain_head plain stops' same).1
      | cons head' second =>
          obtain ⟨rfl, tail⟩ := List.cons.inj same
          obtain ⟨rfl, rest⟩ := ih (List.forall_mem_cons.mp plain).2 (List.forall_mem_cons.mp plain').2 tail
          exact ⟨rfl, rest⟩

/-- A line with an end is a plain content, a byte that is not plain, and the rest of its end. -/
theorem bytes_ended (content : Bytes) (ending : LineEnd) : ∃ byte more,
    ending.bytes = byte :: more ∧ (byte = 0x0A ∨ byte = 0x0D) ∧
      bytes ⟨content, some ending⟩ = content ++ byte :: more := by
  cases ending with
  | lf => exact ⟨0x0A, [], rfl, .inl rfl, rfl⟩
  | crlf => exact ⟨0x0D, [0x0A], rfl, .inr rfl, rfl⟩
  | cr => exact ⟨0x0D, [], rfl, .inr rfl, rfl⟩

/-- Bytes fall into lines in one way. -/
theorem Lines.unique {first second : List ByteLine} (lined : Lines first) (lined' : Lines second)
    (same : join first = join second) : first = second := by
  -- plain bytes hold no end of a line
  have never {content more rest : Bytes} {ending : LineEnd} (plain : Plain content)
      (same : content = more ++ ending.bytes ++ rest) : False := by
    cases ending with
    | lf => exact (plain 0x0A (by simp [same, LineEnd.bytes])).1 rfl
    | crlf | cr => exact (plain 0x0D (by simp [same, LineEnd.bytes])).2 rfl
  induction lined generalizing second with
  | nil =>
      cases lined' with
      | nil => rfl
      | «open» content plain nonempty => exact absurd (by simpa [bytes] using same.symm) nonempty
      | ended content ending rest => cases ending <;> simp [bytes, LineEnd.bytes] at same
  | «open» content plain nonempty =>
      cases lined' with
      | nil => exact absurd (by simpa [bytes] using same) nonempty
      | «open» content' => simpa [bytes] using same
      | ended content' ending rest => exact (never plain (by simpa [bytes] using same)).elim
  | ended content ending rest plain apart lined ih =>
      cases lined' with
      | nil => cases ending <;> simp [bytes, LineEnd.bytes] at same
      | «open» content' plain' => exact (never plain' (by simpa [bytes] using same.symm)).elim
      | ended content' ending' rest' plain' apart' lined' =>
          obtain ⟨byte, more, ended, stops, whole⟩ := bytes_ended content ending
          obtain ⟨byte', more', ended', stops', whole'⟩ := bytes_ended content' ending'
          rw [join_cons, join_cons, whole, whole', List.append_assoc, List.append_assoc] at same
          obtain ⟨rfl, rfl, tail⟩ := plain_append_inj plain plain' stops stops' same
          have ends : ending.bytes ++ join rest = ending'.bytes ++ join rest' := by
            rw [ended, ended']
            exact congrArg (List.cons byte) tail
          obtain ⟨rfl, later⟩ := LineEnd.append_inj apart apart' ends
          rw [ih lined' later]

theorem plain_text {content : Bytes} (plain : Plain content) :
    ∀ c ∈ (decodeLossy content).toList, c ≠ '\n' ∧ c ≠ '\r' := by
  intro c member
  refine ⟨?_, ?_⟩ <;> rintro rfl
  · exact (plain _ (mem_of_mem_decodeLossy member (by decide) (by decide))).1 rfl
  · exact (plain _ (mem_of_mem_decodeLossy member (by decide) (by decide))).2 rfl

end ByteLine

namespace Text
open ByteLine

namespace LineReader

/-- Characters that end no line go into the begun one. -/
theorem foldl_plain (r : LineReader) {chars : List Char} (plain : ∀ c ∈ chars, c ≠ '\n' ∧ c ≠ '\r') :
    chars.foldl push r =
      { done := r.done, begun := chars.reverse ++ r.begun, afterReturn := r.afterReturn && chars.isEmpty } := by
  induction chars generalizing r with
  | nil => simp
  | cons c rest ih =>
      obtain ⟨⟨noFeed, noReturn⟩, plain⟩ := List.forall_mem_cons.mp plain
      simp [push, noFeed, noReturn, ih _ plain]

/-- The end of a line closes it. Only an LF right after a CR would do nothing. -/
theorem foldl_ending (r : LineReader) (ending : LineEnd) (apart : ending = .lf → r.afterReturn = false) :
    ending.chars.foldl push r = r.close (ending = .cr) := by
  cases ending with
  | lf => simp [LineEnd.chars, push, apart]
  | crlf => simp [LineEnd.chars, push, close]
  | cr => simp [LineEnd.chars, push]

/-- Between lines, where an LF would belong to the line before if that ended with a CR, the lines of the
text are those of its bytes. -/
theorem reads_lines {lines : List ByteLine} (lined : Lines lines) (done : List String) (after : Bool)
    (apart : after = true → (join lines).head? ≠ some 0x0A) :
    ((decodeLossy (join lines)).toList.foldl push ⟨done, [], after⟩).finish =
      done.reverse ++ lines.map shown := by
  induction lined generalizing done after with
  | nil => simp [decodeLossy, items, Utf8.run, Utf8.finish, finish]
  | «open» content plain nonempty =>
      have nonempty' := decodeLossy_ne_nil nonempty
      simp [bytes, foldl_plain _ (plain_text plain), finish, nonempty', shown, text]
  | ended content ending rest plain apart' lined ih =>
      have whole : join (⟨content, some ending⟩ :: rest) = content ++ (ending.bytes ++ join rest) := by
        simp [bytes]
      have begun : ending = .lf → (after && (decodeLossy content).toList.isEmpty) = false := by
        rintro rfl
        refine Bool.eq_false_iff.mpr fun both => ?_
        obtain ⟨returned, empty⟩ := Bool.and_eq_true_iff.mp both
        have none : content = [] := by
          by_contra there
          exact decodeLossy_ne_nil there (List.isEmpty_iff.mp empty)
        exact apart returned (by rw [whole, none]; rfl)
      have closed : close ⟨done, (decodeLossy content).toList.reverse ++ [],
          after && (decodeLossy content).toList.isEmpty⟩ (ending = .cr) =
          ⟨shown ⟨content, some ending⟩ :: done, [], ending = .cr⟩ := by
        simp [close, shown, text, String.ofList_append]
      rw [whole, ending.decodeLossy_append, List.foldl_append, foldl_plain _ (plain_text plain),
        List.foldl_append, foldl_ending _ _ begun, closed,
        ih (shown ⟨content, some ending⟩ :: done) _ fun returned => apart' (of_decide_eq_true returned)]
      simp

end LineReader

/-- The lines of a decoded text are those of its bytes, each decoded on its own. -/
theorem lines_decodeLossy {lines : List ByteLine} (lined : Lines lines) :
    Text.lines (decodeLossy (join lines)) = lines.map shown := by
  rw [Text.lines]
  exact LineReader.reads_lines lined [] false nofun

end Text
end Foundry
