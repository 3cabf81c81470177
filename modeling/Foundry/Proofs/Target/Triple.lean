import Mathlib.Data.List.DropRight
import Foundry.Proofs.Text.Split
import Foundry.Target.Triple

/-! Triples that are written and read again. Reading drops the version of the operating system, and what is
left reads as itself; which target a triple stands for does not hang on either. -/
namespace Foundry

namespace Triple

/-- What is taken for a version: digits and dots. -/
def IsVersion (version : String) : Prop := ∀ c ∈ version.toList, isVersionChar c = true

instance (version : String) : Decidable (IsVersion version) :=
  decidable_of_iff (version.toList.all isVersionChar = true) List.all_eq_true

/-- The operating system ends in a character that neither belongs to a version nor ends the line after it. -/
def IsUnversioned (os : String) : Prop :=
  ∃ last ∈ os.toList.getLast?, isVersionChar last = false ∧ last ≠ '\n'

/-- No part of the triple holds the mark between parts. -/
structure IsHyphenless (t : Triple) : Prop where
  arch : '-' ∉ t.arch.toList
  vendor : '-' ∉ t.vendor.toList
  os : '-' ∉ t.os.toList
  abi : '-' ∉ t.abi.toList

/-- The triple with its ABI even where that is empty. -/
def fullText (t : Triple) : String := String.intercalate "-" [t.arch, t.vendor, t.os, t.abi]

/-! Dropping the version: a last line feed is set aside, then the characters of a version go from the end. -/

theorem dropVersion_concat (chars : List Char) :
    dropVersion (chars ++ ['\n']) = chars.rdropWhile isVersionChar ++ ['\n'] := by
  simp [dropVersion, List.rdropWhile]

theorem dropVersion_of_last {chars : List Char} (other : chars.getLast? ≠ some '\n') :
    dropVersion chars = chars.rdropWhile isVersionChar := by
  induction chars using List.reverseRecOn with
  | nil => rfl
  | append_singleton front last =>
      rw [List.getLast?_concat, ne_eq, Option.some.injEq] at other
      simp [dropVersion, List.rdropWhile, other]

/-- Only characters of a version are dropped. -/
theorem mem_dropVersion {c : Char} (other : isVersionChar c = false) (chars : List Char) :
    c ∈ dropVersion chars ↔ c ∈ chars := by
  have dropped (chars : List Char) : c ∈ chars.rdropWhile isVersionChar ↔ c ∈ chars := by
    have version : c ∉ chars.rtakeWhile isVersionChar := fun member => by
      rw [List.mem_rtakeWhile_imp member] at other
      cases other
    have whole : c ∈ chars ↔ c ∈ chars.rdropWhile isVersionChar ∨ c ∈ chars.rtakeWhile isVersionChar := by
      rw [← List.mem_append, List.rdropWhile_append_rtakeWhile]
    rw [whole, or_iff_left version]
  by_cases feed : chars.getLast? = some '\n'
  · obtain ⟨front, rfl⟩ := List.getLast?_eq_some_iff.mp feed
    rw [dropVersion_concat, List.mem_append, List.mem_append, dropped]
  · rw [dropVersion_of_last feed, dropped]

theorem withoutVersion_of_eq_nil {os : String} (none : dropVersion os.toList = []) : withoutVersion os = os := by
  simp [withoutVersion, none]

theorem toList_withoutVersion {os : String} (some : dropVersion os.toList ≠ []) :
    (withoutVersion os).toList = dropVersion os.toList := by
  obtain ⟨c, rest, chars⟩ := List.exists_cons_of_ne_nil some
  simp [withoutVersion, chars]

theorem mem_withoutVersion {c : Char} (other : isVersionChar c = false) (os : String) :
    c ∈ (withoutVersion os).toList ↔ c ∈ os.toList := by
  by_cases none : dropVersion os.toList = []
  · rw [withoutVersion_of_eq_nil none]
  · rw [toList_withoutVersion none, mem_dropVersion other]

theorem withoutVersion_idem {os : String} (line : '\n' ∉ os.toList) :
    withoutVersion (withoutVersion os) = withoutVersion os := by
  by_cases none : dropVersion os.toList = []
  · rw [withoutVersion_of_eq_nil none, withoutVersion_of_eq_nil none]
  · have open' (chars : List Char) (line : '\n' ∉ chars) : chars.getLast? ≠ some '\n' :=
      fun last => line (List.mem_of_getLast? last)
    have chars := toList_withoutVersion none
    have rest : '\n' ∉ (withoutVersion os).toList := (mem_withoutVersion (by decide) os).not.mpr line
    have settled : dropVersion (withoutVersion os).toList = (withoutVersion os).toList := by
      rw [dropVersion_of_last (open' _ rest), chars, dropVersion_of_last (open' _ line),
        List.rdropWhile_idempotent]
    rw [← String.toList_inj, toList_withoutVersion (by rwa [settled, chars]), settled]

theorem IsVersion.not_mem {version : String} (digits : IsVersion version) {c : Char}
    (other : isVersionChar c = false) : c ∉ version.toList := by
  intro member
  rw [digits c member] at other
  cases other

/-- A version is dropped, up to the last character in front of it that belongs to none. -/
theorem withoutVersion_append {os version : String} (bare : IsUnversioned os) (digits : IsVersion version) :
    withoutVersion (os ++ version) = os := by
  obtain ⟨last, final, other, line⟩ := bare
  obtain ⟨front, chars⟩ := List.getLast?_eq_some_iff.mp final
  have open' : (os ++ version).toList.getLast? ≠ some '\n' := by
    rw [String.toList_append, List.getLast?_append, final]
    cases ends : version.toList.getLast? with
    | none => simpa using line
    | some c =>
        rintro ⟨rfl⟩
        exact digits.not_mem (by decide) (List.mem_of_getLast? ends)
  have kept : dropVersion (os ++ version).toList = os.toList := by
    calc dropVersion (os ++ version).toList
        = (os.toList ++ version.toList).rdropWhile isVersionChar := by
          rw [dropVersion_of_last open', String.toList_append]
      _ = os.toList.rdropWhile isVersionChar := by
          rw [List.rdropWhile, List.reverse_append,
            List.dropWhile_append_of_pos fun c member => digits c (List.mem_reverse.mp member)]
          rfl
      _ = os.toList := by
          rw [chars, List.rdropWhile_concat_neg _ _ _ (by simp [other])]
  have some : os.toList ≠ [] := by simp [chars]
  rw [← String.toList_inj, toList_withoutVersion (kept ▸ some), kept]

/-! Reading what is written. -/

/-- A triple whose parts hold no hyphen is read back, but for the version of its operating system. -/
theorem parse_text {t : Triple} (clean : t.IsHyphenless) :
    parse t.text = { t with os := withoutVersion t.os } := by
  have parts : Text.split '-' t.text = [t.arch, t.vendor, t.os] ++ if t.abi = "" then [] else [t.abi] := by
    refine Text.split_intercalate rfl (by simp) fun part member => ?_
    have known : part = t.arch ∨ part = t.vendor ∨ part = t.os ∨ part = t.abi := by
      split at member <;> simp at member <;> tauto
    rcases known with rfl | rfl | rfl | rfl
    · exact clean.arch
    · exact clean.vendor
    · exact clean.os
    · exact clean.abi
  rw [parse, parts]
  split
  · rename_i none
    simp [none]
  · simp

theorem parse_fullText {t : Triple} (clean : t.IsHyphenless) :
    parse t.fullText = { t with os := withoutVersion t.os } := by
  have parts : Text.split '-' t.fullText = [t.arch, t.vendor, t.os, t.abi] := by
    refine Text.split_intercalate rfl (by simp) ?_
    simp [clean.arch, clean.vendor, clean.os, clean.abi]
  rw [parse, parts]
  simp

theorem parse_written {write : Triple → String} (form : write ∈ [text, fullText]) {t : Triple}
    (clean : t.IsHyphenless) : parse (write t) = { t with os := withoutVersion t.os } := by
  obtain rfl | rfl : write = text ∨ write = fullText := by simpa using form
  · exact parse_text clean
  · exact parse_fullText clean

theorem os_parse (text : String) :
    (parse text).os = withoutVersion ((Text.split '-' text)[2]?.getD "unknown") := by rw [parse]

theorem parse_hyphenless (text : String) : (parse text).IsHyphenless := by
  have piece (i : Nat) (missing : String) (clean : '-' ∉ missing.toList) :
      '-' ∉ ((Text.split '-' text)[i]?.getD missing).toList := by
    cases found : (Text.split '-' text)[i]? with
    | none => exact clean
    | some part => exact Text.not_mem_of_mem_split (List.mem_of_getElem? found)
  constructor
  · exact piece 0 "unknown" (by decide)
  · exact piece 1 "unknown" (by decide)
  · rw [os_parse, mem_withoutVersion (by decide)]
    exact piece 2 "unknown" (by decide)
  · exact piece 3 "" (by decide)

/-- No target has an operating system whose name holds a line feed. -/
theorem target?_of_lineFeed {t : Triple} (feed : '\n' ∈ t.os.toList) :
    t.target? = if t.arch = "wasm32" then some .wasm32 else none := by
  have other (name : String) (line : '\n' ∉ name.toList) : t.os ≠ name := by
    rintro rfl
    exact line feed
  simp [target?, other "darwin" (by decide), other "macosx" (by decide), other "macos" (by decide),
    other "ios" (by decide), other "linux" (by decide), other "mingw" (by decide),
    other "windows" (by decide)]

end Triple

namespace Target

theorem not_mem_name (target : Target) : '-' ∉ target.name.toList := by cases target <;> decide

/-- What holds a hyphen is no name of a target. -/
theorem resolve?_of_hyphen {name : String} (hyphen : '-' ∈ name.toList) :
    resolve? name = (Triple.parse name).target? := by
  have unnamed : ofName? (Text.asciiLower name) = none := by
    refine List.find?_eq_none.mpr fun target _ same => target.not_mem_name ?_
    rw [of_decide_eq_true same, Text.asciiLower, String.toList_map]
    exact List.mem_map.mpr ⟨'-', hyphen, by decide⟩
  have marked : name.toList.contains '-' = true := List.contains_iff_mem.mpr hyphen
  rw [resolve?, unnamed]
  exact if_pos marked

end Target

namespace Triple

theorem hyphen_mem_written {write : Triple → String} (form : write ∈ [text, fullText]) (t : Triple) :
    '-' ∈ (write t).toList := by
  obtain rfl | rfl : write = text ∨ write = fullText := by simpa using form
  · rw [text, List.cons_append, String.intercalate_cons_of_ne_nil (by simp)]
    simp
  · rw [fullText, String.intercalate_cons_of_ne_nil (by simp)]
    simp

/-- Reading a text, writing it and reading it again drops nothing more than one version. -/
theorem parse_parse (text : String) :
    parse (parse text).text = { parse text with os := withoutVersion (parse text).os } :=
  parse_text (parse_hyphenless text)

theorem lineFeed_of_os {text : String} (feed : '\n' ∈ (parse text).os.toList) : '\n' ∈ text.toList := by
  rw [os_parse, mem_withoutVersion (by decide)] at feed
  cases found : (Text.split '-' text)[2]? with
  | none =>
      rw [found] at feed
      exact absurd feed (by decide)
  | some os =>
      rw [found] at feed
      exact (Text.sublist_of_mem_split (List.mem_of_getElem? found)).subset feed

/-- What has been read in one line is read the same again. -/
theorem parse_parse_of_line {text : String} (line : '\n' ∉ (parse text).os.toList) :
    parse (parse text).text = parse text := by
  have settled : withoutVersion (parse text).os = (parse text).os := by
    rw [os_parse, mem_withoutVersion (by decide)] at line
    rw [os_parse, withoutVersion_idem line]
  rw [parse_parse, settled]

/-- A version after the operating system is read as nothing, so the triple with it and the triple without it
stand for the same target, with an empty ABI written or not. A text in one line that is read and written again
reads the same, and any text then stands for the same target. -/
theorem reading_settles :
    (∀ (t : Triple) (version : String), t.IsHyphenless → IsUnversioned t.os → IsVersion version →
      ∀ write ∈ [text, fullText],
        parse (write { t with os := t.os ++ version }) = t ∧ parse (write t) = t ∧
        Target.resolve? (write { t with os := t.os ++ version }) = t.target? ∧
        Target.resolve? (write t) = t.target?) ∧
    (∀ text : String, '\n' ∉ text.toList → parse (parse text).text = parse text) ∧
    ∀ text : String, (parse (parse text).text).target? = (parse text).target? := by
  refine ⟨fun t version clean bare digits write form => ?_, fun text line => ?_, fun text => ?_⟩
  · have versioned : IsHyphenless { t with os := t.os ++ version } := by
      refine ⟨clean.arch, clean.vendor, ?_, clean.abi⟩
      rw [String.toList_append, List.mem_append, not_or]
      exact ⟨clean.os, digits.not_mem (by decide)⟩
    have first : parse (write { t with os := t.os ++ version }) = t := by
      rw [parse_written form versioned, withoutVersion_append bare digits]
    have second : parse (write t) = t := by
      have dropped := withoutVersion_append bare (show IsVersion "" by simp [IsVersion])
      rw [String.append_empty] at dropped
      rw [parse_written form clean, dropped]
    refine ⟨first, second, ?_, ?_⟩
    · rw [Target.resolve?_of_hyphen (hyphen_mem_written form _), first]
    · rw [Target.resolve?_of_hyphen (hyphen_mem_written form _), second]
  · exact parse_parse_of_line (mt lineFeed_of_os line)
  · by_cases feed : '\n' ∈ (parse text).os.toList
    · have again : '\n' ∈ (parse (parse text).text).os.toList := by
        rwa [parse_parse, mem_withoutVersion (by decide)]
      rw [target?_of_lineFeed feed, target?_of_lineFeed again, parse_parse]
    · rw [parse_parse_of_line feed]

/-- In more than one line each reading may drop another version. -/
example : (parse "arm-x-os1\n2").os = "os1\n" ∧ (parse (parse "arm-x-os1\n2").text).os = "os\n" := by decide

/-- The triples of one system in two versions, and a triple with an empty operating system. -/
theorem versions_of_darwin :
    (parse "x86_64-apple-darwin17.7.0" = ⟨"x86_64", "apple", "darwin", ""⟩ ∧
      parse "x86_64-apple-darwin" = ⟨"x86_64", "apple", "darwin", ""⟩ ∧
      Target.resolve? "x86_64-apple-darwin17.7.0" = some .macosX64 ∧
      Target.resolve? "x86_64-apple-darwin" = some .macosX64) ∧
    parse (parse "arm64---10.1-").text = parse "arm64---10.1-" := by
  have darwin : IsHyphenless ⟨"x86_64", "apple", "darwin", ""⟩ := ⟨by decide, by decide, by decide, by decide⟩
  have bare : IsUnversioned "darwin" := ⟨'n', rfl, by decide, by decide⟩
  exact ⟨reading_settles.1 ⟨"x86_64", "apple", "darwin", ""⟩ "17.7.0" darwin bare (by decide) text (by simp),
    reading_settles.2.1 "arm64---10.1-" (by decide)⟩

end Triple

end Foundry
