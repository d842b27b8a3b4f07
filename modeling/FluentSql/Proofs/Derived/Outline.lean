import FluentSql.Proofs.Derived.Numbered

namespace FluentSql

open Lexing Lexis

/-- What is written of the piece, a mark in place of a fragment from outside. -/
def Piece.outline : Piece → List Char
  | raw _ _ => ['…']
  | p => p.written.toList

namespace Sql

def outline (s : Sql) : List Char := s.pieces.flatMap Piece.outline

/-- Text that, its fragments from outside apart, names row numbers only where there are any. -/
def NumberedIn (banned : List String) (s : Sql) : Prop := ReadsNumbered banned s.outline

def RowsNumbered (s : Sql) : Prop := s.NumberedIn []

variable {banned banned' : List String} {s t : Sql} {mark : String}

/-- Without fragments from outside it is the text itself. -/
theorem outline_eq (h : ∀ sql values, .raw sql values ∉ s.pieces) : s.outline = s.text.toList := by
  rw [toList_text, outline, letters]
  refine List.flatMap_congr fun p hp ↦ ?_
  cases p with
  | raw sql values => exact absurd hp (h sql values)
  | _ => rfl

@[simp] theorem outline_append (a b : Sql) : (a ++ b).outline = a.outline ++ b.outline :=
  List.flatMap_append

@[simp] theorem outline_coe (s : String) : (s : Sql).outline = s.toList :=
  List.flatMap_singleton ..

@[simp] theorem outline_enclosed (s : Sql) :
    s.enclosed.outline = '(' :: s.outline ++ [')'] := by
  simp [enclosed]

@[simp] theorem outline_slot (v : Value) : (slot v).outline = ['?'] := by
  simp [outline, slot, Piece.outline, Piece.written]

section trimEnd

theorem isLone_outline {ps : List Piece} (h : ps.all fun p ↦ p.written.isEmpty) :
    ∀ c ∈ ps.flatMap Piece.outline, isLone c := by
  intro c hc
  obtain ⟨p, hp, hc⟩ := List.mem_flatMap.1 hc
  have hempty : p.written = "" := by simpa using List.all_eq_true.1 h p hp
  cases p with
  | raw sql values =>
    obtain rfl : c = '…' := List.mem_singleton.1 hc
    decide
  | text s =>
    rw [Piece.outline, hempty] at hc
    cases hc
    nofun
  | slot v =>
    have hmark : "?" ≠ "" := by decide
    exact absurd hempty hmark

/-- A mark stands for a fragment from outside whether or not its blanks are cut off. -/
theorem endsAlike_outline (ps : List Piece) :
    EndsAlike (ps.flatMap Piece.outline) ((trimEndPieces ps).flatMap Piece.outline) := by
  induction ps with
  | nil => exact ⟨[], [], [], rfl, rfl, nofun, nofun, rfl⟩
  | cons p rest ih =>
    rw [trimEndPieces, List.flatMap_cons]
    split
    · rename_i hall
      rw [List.flatMap_cons]
      cases p with
      | text t =>
        have htrim : t.toList = Text.trimEnd t.toList ++ t.toList.rtakeWhile Text.isBlank :=
          (List.rdropWhile_append_rtakeWhile ..).symm
        have hblank : ∀ c ∈ t.toList.rtakeWhile Text.isBlank, Text.isBlank c :=
          fun c hc ↦ List.mem_rtakeWhile_imp hc
        have hend := (ih.blanks (isLone_outline hall) hblank).cons (Text.trimEnd t.toList)
        rw [← List.append_assoc, ← htrim] at hend
        simpa [Piece.outline, Piece.written, Piece.mapText, toList_trimmedText] using hend
      | _ => exact ih.cons _
    · exact ih.cons _

theorem NumberedIn.trimEnd (h : s.NumberedIn banned) : s.trimEnd.NumberedIn banned := by
  obtain ⟨ts, hts, hn⟩ := h
  exact ⟨ts, (lexemes_of_endsAlike (endsAlike_outline s.pieces)).trans hts, hn⟩

end trimEnd

namespace NumberedIn

theorem mono (h : s.NumberedIn banned) (hb : banned' ⊆ banned) : s.NumberedIn banned' :=
  ReadsNumbered.mono h hb

theorem rowsNumbered (h : s.NumberedIn banned) : s.RowsNumbered := h.mono (List.nil_subset _)

theorem text (h : ReadsNumbered banned mark.toList) : (mark : Sql).NumberedIn banned := by
  rwa [NumberedIn, outline_coe]

theorem fixed (h : isFixed banned mark.toList) : (mark : Sql).NumberedIn banned :=
  text (.fixed h)

theorem slot (v : Value) : (Sql.slot v).NumberedIn banned := by
  have hread : (of .sqlServer).tokens (Sql.slot v).outline = some [.symbol '?'] := by
    rw [outline_slot]
    rfl
  exact .of_token hread rfl (by simp [special, word])

theorem raw (sql : String) (values : List Value) : (Sql.raw sql values).NumberedIn banned := by
  have hread : (of .sqlServer).tokens (Sql.raw sql values).outline = some [.symbol '…'] := rfl
  exact .of_token hread rfl (by simp [special, word])

theorem empty : Sql.empty.NumberedIn banned := ⟨[], rfl, .nil⟩

theorem prefixed (hm : isOpening banned mark.toList) (hs : s.NumberedIn banned) :
    ((mark : Sql) ++ s).NumberedIn banned := by
  rw [NumberedIn, outline_append, outline_coe]
  exact ReadsNumbered.prefixed hm hs

theorem suffixed (hs : s.NumberedIn banned) (hm : isClosing banned mark.toList) :
    (s ++ (mark : Sql)).NumberedIn banned := by
  rw [NumberedIn, outline_append, outline_coe]
  exact ReadsNumbered.suffixed hs hm

theorem joined (hs : s.NumberedIn banned) (hm : isJoint banned mark.toList)
    (ht : t.NumberedIn banned) : (s ++ mark ++ t).NumberedIn banned := by
  rw [NumberedIn, outline_append, outline_append, outline_coe]
  exact ReadsNumbered.joined hs hm ht

theorem join (hm : isJoint banned mark.toList) {ss : List Sql} (h : ∀ s ∈ ss, s.NumberedIn banned) :
    (Sql.join mark ss).NumberedIn banned := by
  fun_induction Sql.join mark ss with
  | case1 => exact empty
  | case2 s => exact h s List.mem_cons_self
  | case3 s t rest ih =>
    exact (h s List.mem_cons_self).joined hm (ih fun u hu ↦ h u (List.mem_cons_of_mem _ hu))

theorem called (hs : s.NumberedIn banned) (ht : t.RowsNumbered) :
    (s ++ t.enclosed).NumberedIn banned := by
  have h := ReadsNumbered.called hs ht
  rw [NumberedIn]
  simpa using h

theorem enclosed (hs : s.RowsNumbered) : s.enclosed.NumberedIn banned :=
  empty.called hs

end NumberedIn

end Sql

end FluentSql
