import FluentSql.Proofs.Numbering.Spelling

namespace FluentSql

open Text

namespace Text

variable {s t : List Char}

theorem trimEnd_append (s t : List Char) :
    trimEnd (s ++ t) = if trimEnd t = [] then trimEnd s else s ++ trimEnd t := by
  rw [trimEnd, trimEnd, trimEnd, List.reverse_append, List.dropWhile_append]
  by_cases h : t.reverse.dropWhile isBlank = [] <;> simp [h]

theorem trimEnd_ne_nil {c : Char} (hc : c ∈ s) (hb : isBlank c = false) : trimEnd s ≠ [] := by
  intro hs
  rw [List.rdropWhile_eq_nil_iff.1 hs c hc] at hb
  cases hb

theorem trimEnd_of_notBlank (h : ∀ c ∈ s, isBlank c = false) : trimEnd s = s :=
  List.rdropWhile_eq_self_iff.2 fun hs ↦ by simp [h _ (List.getLast_mem hs)]

theorem isBlank_of_isDigit {c : Char} (hc : isDigit c) : isBlank c = false := by
  rw [Bool.eq_false_iff]
  intro hb
  rw [Placeholders.isDigit_of_isBlank hb] at hc
  cases hc

end Text

namespace Sql

theorem toList_trimmedText (s : String) : (trimmedText s).toList = Text.trimEnd s.toList :=
  String.toList_ofList

theorem toList_written_mapText (p : Piece) :
    (p.mapText trimmedText).written.toList = Text.trimEnd p.written.toList := by
  cases p with
  | text s => exact toList_trimmedText s
  | raw sql values => exact toList_trimmedText sql
  | slot v => exact (by decide : "?".toList = Text.trimEnd "?".toList)

theorem letters_trimEndPieces_eq (ps : List Piece) :
    letters (trimEndPieces ps) = Text.trimEnd (letters ps) := by
  induction ps with
  | nil => rfl
  | cons p rest ih =>
    have hcons (p : Piece) (ps : List Piece) :
        letters (p :: ps) = p.written.toList ++ letters ps := List.flatMap_cons
    have hall : ((trimEndPieces rest).all fun q ↦ q.written.isEmpty) = true ↔
        Text.trimEnd (letters rest) = [] := by
      rw [← ih, letters, List.flatMap_eq_nil_iff, List.all_eq_true]
      simp
    rw [trimEndPieces, hcons, Text.trimEnd_append, ← ih]
    split
    · rename_i h
      rw [if_pos (ih.trans (hall.1 h)), hcons, ih, hall.1 h, List.append_nil,
        toList_written_mapText]
    · rename_i h
      rw [if_neg fun hn ↦ h (hall.2 (ih.symm.trans hn)), hcons]

theorem text_trimEnd (s : Sql) : s.trimEnd.text = trimmedText s.text := by
  rw [← String.toList_inj, toList_text, toList_trimmedText, toList_text]
  exact letters_trimEndPieces_eq s.pieces

end Sql

end FluentSql
