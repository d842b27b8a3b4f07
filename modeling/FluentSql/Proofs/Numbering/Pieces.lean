import FluentSql.Proofs.Numbering.Quoted

namespace FluentSql

open Text Placeholders

namespace Sql

def letters (pieces : List Piece) : List Char :=
  pieces.flatMap fun p ↦ p.written.toList

/-- Every piece has a placeholder for each of its values, and none meets the next piece. -/
def PiecesSound : List Piece → Prop
  | [] => True
  | p :: rest =>
    Reads none p.values.length p.written.toList ∧ Apart p.written.toList (letters rest) ∧
      PiecesSound rest

def Sound (s : Sql) : Prop := PiecesSound s.pieces

/-- The pieces one after the other, each with its own placeholders numbered on from those in front
of it. -/
def numberedPieces (n : Nat) : List Piece → List Char
  | [] => []
  | p :: rest => number none n p.written.toList ++ numberedPieces (n + p.values.length) rest

def isMark (s : String) : Bool :=
  s.toList.all isPlain && s.toList.head?.any fun c ↦ !isDigit c

theorem isMark_iff {s : String} :
    isMark s ↔ s.toList.all isPlain ∧ Clear s.toList ∧ s.toList ≠ [] := by
  unfold isMark Clear
  cases s.toList with
  | nil => simp
  | cons c s =>
    simp only [List.all_cons, List.head?_cons, Option.any_some, Option.mem_some, isPlain]
    grind

theorem append_assoc (a b c : Sql) : a ++ b ++ c = a ++ (b ++ c) :=
  congrArg Sql.mk (List.append_assoc ..)

@[simp] theorem append_empty (s : Sql) : s ++ empty = s :=
  congrArg Sql.mk (List.append_nil _)

theorem toList_text (s : Sql) : s.text.toList = letters s.pieces := by
  simp [text, letters, List.flatMap_map]

variable {p : Piece} {ps qs : List Piece} {s t : Sql} {mark : String} {n : Nat}

theorem PiecesSound.reads (h : PiecesSound ps) :
    Reads none (ps.flatMap Piece.values).length (letters ps) := by
  induction ps with
  | nil => exact .done
  | cons p rest ih =>
    obtain ⟨hp, ha, hrest⟩ := h
    rw [List.flatMap_cons, List.length_append]
    exact hp.append (ih hrest) ha

theorem PiecesSound.number_letters (h : PiecesSound ps) (n : Nat) :
    number none n (letters ps) = numberedPieces n ps := by
  induction ps generalizing n with
  | nil => rfl
  | cons p rest ih =>
    obtain ⟨hp, ha, hrest⟩ := h
    rw [numberedPieces, ← ih hrest]
    exact number_append hp ha n

theorem letters_append : letters (ps ++ qs) = letters ps ++ letters qs :=
  List.flatMap_append

theorem PiecesSound.append (hp : PiecesSound ps) (hq : PiecesSound qs)
    (h : Apart (letters ps) (letters qs)) : PiecesSound (ps ++ qs) := by
  induction ps with
  | nil => exact hq
  | cons p rest ih =>
    obtain ⟨hr, ha, hrest⟩ := hp
    rw [List.cons_append]
    refine ⟨hr, fun hl ↦ ?_, ih hrest h.of_append⟩
    rw [letters_append]
    refine (ha hl).append fun hn ↦ h ?_
    rw [letters, List.flatMap_cons, ← letters, hn, List.append_nil]
    exact hl

theorem initial_trimmedText (text : String) : (trimmedText text).toList <+: text.toList := by
  rw [trimmedText, String.toList_ofList]
  exact List.rdropWhile_prefix _ _

theorem initial_mapText (p : Piece) :
    (p.mapText trimmedText).written.toList <+: p.written.toList := by
  cases p with
  | slot v => exact List.prefix_rfl
  | _ => exact initial_trimmedText _

theorem values_mapText (p : Piece) : (p.mapText trimmedText).values = p.values := by
  cases p <;> rfl

theorem reads_mapText (h : Reads none n p.written.toList) :
    Reads none n (p.mapText trimmedText).written.toList := by
  have ht (text : String) (h : Reads none n text.toList) :
      Reads none n (trimmedText text).toList := by
    rw [trimmedText, String.toList_ofList]
    exact h.trimEnd .none
  cases p with
  | slot v => exact h
  | _ => exact ht _ h

theorem trimEndPieces_cons (p : Piece) (rest : List Piece) :
    trimEndPieces (p :: rest) = p :: trimEndPieces rest ∨
      letters (trimEndPieces rest) = [] ∧
        trimEndPieces (p :: rest) = p.mapText trimmedText :: trimEndPieces rest := by
  rw [trimEndPieces]
  split
  · rename_i h
    refine .inr ⟨List.flatMap_eq_nil_iff.2 fun q hq ↦ ?_, rfl⟩
    simpa using List.all_eq_true.1 h q hq
  · exact .inl rfl

theorem letters_trimEndPieces (ps : List Piece) : letters (trimEndPieces ps) <+: letters ps := by
  induction ps with
  | nil => exact List.prefix_rfl
  | cons p rest ih =>
    rcases trimEndPieces_cons p rest with h | ⟨hn, h⟩
    · rw [h]
      exact (List.prefix_append_right_inj _).2 ih
    · rw [h, letters, List.flatMap_cons, ← letters, hn, List.append_nil]
      exact (initial_mapText p).trans (List.prefix_append _ _)

theorem PiecesSound.trimEnd (h : PiecesSound ps) : PiecesSound (trimEndPieces ps) := by
  induction ps with
  | nil => exact h
  | cons p rest ih =>
    obtain ⟨hp, ha, hrest⟩ := h
    rcases trimEndPieces_cons p rest with h | ⟨hn, h⟩
    · rw [h]
      exact ⟨hp, fun hl ↦ (ha hl).of_initial (letters_trimEndPieces rest), ih hrest⟩
    · rw [h]
      refine ⟨?_, fun _ ↦ ?_, ih hrest⟩
      · rw [values_mapText]
        exact reads_mapText hp
      · rw [hn]
        simp [Clear]

namespace Sound

theorem reads (h : s.Sound) : Reads none s.slots.length s.text.toList := by
  rw [toList_text]
  exact PiecesSound.reads h

theorem append (hs : s.Sound) (ht : t.Sound) (h : Apart s.text.toList t.text.toList) :
    (s ++ t).Sound := by
  rw [toList_text, toList_text] at h
  exact PiecesSound.append hs ht h

theorem of_piece (h : Reads none p.values.length p.written.toList) : Sound ⟨[p]⟩ :=
  ⟨h, fun _ ↦ by simp [Clear, letters], trivial⟩

theorem empty : Sql.empty.Sound := trivial

theorem slot (v : Value) : (Sql.slot v).Sound := by
  have h : Reads none 1 "?".toList := by
    simpa using Reads.placeholder (k := 0) (by simp [Clear]) .done
  exact of_piece h

theorem of_text {text : String} (h : Quiet none text.toList) : (text : Sql).Sound :=
  of_piece h.reads

theorem raw {sql : String} {values : List Value} (h : Reads none values.length sql.toList) :
    (Sql.raw sql values).Sound :=
  of_piece h

theorem prefixed {text : String} (h : Quiet none text.toList) (hs : s.Sound) :
    ((text : Sql) ++ s).Sound := by
  refine (of_text h).append hs ?_
  rw [text_coe]
  exact h.apart

theorem suffixed (hs : s.Sound) (hm : isMark mark) : (s ++ (mark : Sql)).Sound := by
  obtain ⟨hp, hc, -⟩ := isMark_iff.1 hm
  refine hs.append (of_text (.of_plain hp)) fun _ ↦ ?_
  rwa [text_coe]

theorem joined (hs : s.Sound) (hm : isMark mark) (ht : t.Sound) :
    (s ++ (mark : Sql) ++ t).Sound := by
  obtain ⟨hp, hc, hn⟩ := isMark_iff.1 hm
  rw [append_assoc]
  refine hs.append (prefixed (.of_plain hp) ht) fun _ ↦ ?_
  rw [text_append, text_coe, String.toList_append]
  exact hc.append fun h ↦ absurd h hn

theorem enclosed (hs : s.Sound) : s.enclosed.Sound :=
  (prefixed (.of_plain (by decide)) hs).suffixed (by decide)

theorem join (hm : isMark mark) {ss : List Sql} (h : ∀ s ∈ ss, s.Sound) :
    (Sql.join mark ss).Sound := by
  fun_induction Sql.join mark ss with
  | case1 => exact empty
  | case2 s => exact h s List.mem_cons_self
  | case3 s t rest ih =>
    exact (h s List.mem_cons_self).joined hm (ih fun s hs ↦ h s (List.mem_cons_of_mem _ hs))

theorem trimEnd (hs : s.Sound) : s.trimEnd.Sound := PiecesSound.trimEnd hs

end Sound

def PartSound (part : Option Sql) : Prop := ∀ s ∈ part, s.Sound

namespace PartSound

theorem none : PartSound none := by
  simp [PartSound]

theorem some (h : s.Sound) : PartSound (some s) := by
  simpa [PartSound] using h

theorem join {parts : List (Option Sql)} (hm : isMark mark) (h : ∀ part ∈ parts, PartSound part) :
    (Sql.join mark (parts.filterMap id)).Sound := by
  refine .join hm fun s hs ↦ ?_
  obtain ⟨part, hp, he⟩ := List.mem_filterMap.1 hs
  exact h part hp s he

end PartSound

end Sql

end FluentSql
