import Foundry.Diagnostic.Fault

/-! What a template with plain fields says once it is filled in. A text that is put in stays as it is,
whatever braces it has. -/
namespace Foundry

namespace Template

theorem fillPieces_chars (inner : String → Except FillError String) (arguments : Table)
    (done : List String) (chars : List Char) (rest : List Piece) :
    fillPieces inner arguments done (chars.map .char ++ rest) =
      fillPieces inner arguments ((chars.map Char.toString).reverse ++ done) rest := by
  induction chars generalizing done with
  | nil => rfl
  | cons c chars ih => simp [fillPieces, ih]

theorem fillPieces_text {inner : String → Except FillError String} {arguments : Table}
    (given : argument arguments name = .ok (.text s)) :
    fillPieces inner arguments done (.field name none "" :: rest) =
      fillPieces inner arguments (s :: done) rest := by
  have shown : showStyled (.text s) "" = .ok s := rfl
  simp [fillPieces, given, convert, shown, bind, Except.bind, pure, Except.pure]

theorem join_chars (text : String) : String.join (text.toList.map Char.toString) = text := by
  rw [← String.toList_inj, String.toList_join, List.flatMap_map]
  simp [Char.toString]

/-- A template with two plain fields for texts. -/
theorem fill_two {arguments : Table} (before between behind : String)
    (read : pieces template =
      before.toList.map .char ++ .field a none "" ::
        (between.toList.map .char ++ .field b none "" :: (behind.toList.map .char ++ [])))
    (first : argument arguments a = .ok (.text s)) (second : argument arguments b = .ok (.text t)) :
    fill template arguments = .ok (before ++ s ++ (between ++ t ++ behind)) := by
  rw [fill, fillDeep, read, fillPieces_chars, fillPieces_text first, fillPieces_chars,
    fillPieces_text second, fillPieces_chars, fillPieces]
  simp [pure, Except.pure, String.join_append, String.join_cons, join_chars, String.append_assoc]

end Template

/-- The message about a file of properties names the file and gives the reason. -/
theorem Fault.message_badProperties (path reason : String) :
    (badProperties path reason).message = "invalid properties file '" ++ path ++ "': " ++ reason := by
  have filled : Template.fill "invalid properties file '\x7bpath\x7d': \x7breason\x7d"
      (badProperties path reason).arguments =
        .ok ("invalid properties file '" ++ path ++ ("': " ++ reason ++ "")) :=
    Template.fill_two (a := "path") (b := "reason") "invalid properties file '" "': " ""
      rfl rfl rfl
  have found : Catalog.standard.get? "CE4007" = some
      ⟨"CE4007", .error, "invalid properties file '\x7bpath\x7d': \x7breason\x7d", .configuration,
        "The properties file could not be read or is not valid TOML."⟩ := rfl
  have free : ["self", "code"].any (badProperties path reason).arguments.has = false := rfl
  simp only [List.any_cons, List.any_nil, Bool.or_false, Bool.or_eq_false_iff] at free
  simp [message, code, Catalog.errorText, Catalog.text, free.1, free.2, found, filled, String.append_assoc]

end Foundry
