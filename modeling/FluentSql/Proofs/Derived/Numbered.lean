import FluentSql.Proofs.Lexing.Adjoined
import FluentSql.Proofs.Windows.Trimming
import FluentSql.Statement.Select

namespace FluentSql

open Lexing Lexis

def word (s : String) : Token := .word s.toList

def lexed (s : String) : List Token := ((of .sqlServer).lexemes s.toList).getD []

/-- What stands only where `Numbered` says where it may. -/
def special (banned : List String) : List Token :=
  .symbol '(' :: .symbol ')' :: ("row_num" :: "row_number" :: banned).map word

abbrev borders : List String := ["from", "union"]

inductive IsRange : List Token → Prop where
  | after (n : Nat) : IsRange (lexed ">=" ++ [word (toString n)])
  | between (m n : Nat) :
    IsRange (word "between" :: word (toString m) :: word "and" :: [word (toString n)])

/-- Tokens that name row numbers nowhere but in a select from a derived table, whose own select
gives them behind its other columns. Banned words stand in parentheses at most: neither does the
list of columns end before the row numbers nor the select with them. -/
inductive Numbered : List String → List Token → Prop where
  | nil {banned : List String} : Numbered banned []
  | token {banned : List String} {t : Token} (h : t ∉ special banned) : Numbered banned [t]
  | append {banned : List String} {ts us : List Token} (ht : Numbered banned ts)
    (hu : Numbered banned us) : Numbered banned (ts ++ us)
  | group {banned : List String} {ts : List Token} (h : Numbered [] ts) :
    Numbered banned (.symbol '(' :: ts ++ [.symbol ')'])
  | derived {columns orders rest range : List Token} (hc : Numbered borders columns)
    (ho : Numbered [] orders) (hr : Numbered ["union"] rest) (hrange : IsRange range) :
    Numbered [] (lexed "select * from (select" ++ columns ++ lexed ", row_number() over (" ++
      orders ++ lexed ") as row_num" ++ rest ++ lexed ") as temp_table where row_num" ++ range ++
      lexed "order by row_num")

theorem special_subset {banned banned' : List String} (hb : banned' ⊆ banned) :
    special banned' ⊆ special banned := by
  unfold special
  exact List.cons_subset_cons _ (List.cons_subset_cons _
    (List.map_subset _ (List.cons_subset_cons _ (List.cons_subset_cons _ hb))))

theorem all_toString (n : Nat) : (toString n).toList.all Text.isDigit :=
  List.all_eq_true.2 fun _ ↦ Placeholders.isDigit_of_mem_toString

theorem word_ne_of_all {p : Char → Bool} {w : List Char} {s : String} (hw : w.all p)
    (hs : s.toList.all p = false) : Token.word w ≠ word s := by
  intro h
  rw [← Token.word.inj h, hw] at hs
  cases hs

namespace Numbered

variable {banned banned' : List String} {ts : List Token}

theorem of_all (h : ∀ t ∈ ts, t ∉ special banned) : Numbered banned ts := by
  induction ts with
  | nil => exact .nil
  | cons t ts ih =>
    exact (token (h t List.mem_cons_self)).append (ih fun u hu ↦ h u (List.mem_cons_of_mem _ hu))

theorem mono (h : Numbered banned ts) (hb : banned' ⊆ banned) : Numbered banned' ts := by
  induction h with
  | nil => exact .nil
  | token h => exact .token fun hm ↦ h (special_subset hb hm)
  | append _ _ iht ihu => exact (iht hb).append (ihu hb)
  | group h => exact .group h
  | derived hc ho hr hrange =>
    cases List.eq_nil_of_subset_nil hb
    exact .derived hc ho hr hrange

end Numbered

theorem count_eq_zero {banned : List String} {ts : List Token} {w : String}
    (h : ∀ t ∈ ts, t ∉ special banned) (hw : word w ∈ special banned) : ts.count (word w) = 0 :=
  List.count_eq_zero_of_not_mem fun hm ↦ h _ hm hw

theorem IsRange.inert {range : List Token} (h : IsRange range) : ∀ t ∈ range, t ∉ special [] := by
  have hn (n : Nat) : word (toString n) ∉ special [] := by
    simp only [special, List.map_cons, List.map_nil, List.mem_cons, List.not_mem_nil, or_false,
      not_or]
    exact ⟨nofun, nofun, word_ne_of_all (all_toString n) (by decide),
      word_ne_of_all (all_toString n) (by decide)⟩
  have hfixed : ∀ t ∈ lexed ">=" ++ [word "between", word "and"], t ∉ special [] := by decide
  cases h with
  | after n =>
    intro t ht
    rcases List.mem_append.1 ht with ht | ht
    · exact hfixed t (List.mem_append_left _ ht)
    · exact List.mem_singleton.1 ht ▸ hn n
  | between m n =>
    intro t ht
    simp only [List.mem_cons, List.not_mem_nil, or_false] at ht
    rcases ht with rfl | rfl | rfl | rfl
    · exact hfixed _ (by decide)
    · exact hn m
    · exact hfixed _ (by decide)
    · exact hn n

namespace Numbered

variable {banned : List String} {ts range : List Token}

theorem count (h : Numbered banned ts) :
    ts.count (word "row_num") = 3 * ts.count (word "row_number") := by
  induction h with
  | nil => rfl
  | @token banned t ht =>
    have hinert : ∀ u ∈ [t], u ∉ special banned := List.forall_mem_singleton.2 ht
    rw [count_eq_zero hinert (by simp [special]), count_eq_zero hinert (by simp [special])]
  | append _ _ iht ihu =>
    rw [List.count_append, List.count_append, iht, ihu, Nat.mul_add]
  | @group banned ts _ ih =>
    have hparens (w : String) :
        (Token.symbol '(' :: ts ++ [Token.symbol ')']).count (word w) = ts.count (word w) := by
      simp [word]
    rw [hparens, hparens, ih]
  | derived _ _ _ hrange ihc iho ihr =>
    have hrows := count_eq_zero hrange.inert (w := "row_num") (by decide)
    have hnumbers := count_eq_zero hrange.inert (w := "row_number") (by decide)
    have hgiven : (lexed "select * from (select" ++ lexed ", row_number() over (" ++
        lexed ") as row_num" ++ lexed ") as temp_table where row_num" ++
        lexed "order by row_num").count (word "row_number") = 1 := by decide
    have hasked : (lexed "select * from (select" ++ lexed ", row_number() over (" ++
        lexed ") as row_num" ++ lexed ") as temp_table where row_num" ++
        lexed "order by row_num").count (word "row_num") = 3 := by decide
    simp only [List.count_append] at hgiven hasked ⊢
    omega

theorem not_derived (h : Numbered banned ts) (hrange : IsRange range) (banned' : List String) :
    ¬ Numbered banned' (lexed "select * from (" ++ ts ++ lexed ") as temp_table where row_num" ++
      range ++ lexed "order by row_num") := by
  intro hd
  have hts := h.count
  have hall := hd.count
  have hrows := count_eq_zero hrange.inert (w := "row_num") (by decide)
  have hasked : (lexed "select * from (" ++ lexed ") as temp_table where row_num" ++
      lexed "order by row_num").count (word "row_num") = 2 := by decide
  have hgiven : (lexed "select * from (" ++ lexed ") as temp_table where row_num" ++
      lexed "order by row_num").count (word "row_number") = 0 := by decide
  simp only [List.count_append] at hall hasked hgiven
  omega

end Numbered

/-- A text of which SQL Server reads such tokens. -/
def ReadsNumbered (banned : List String) (s : List Char) : Prop :=
  ∃ ts, (of .sqlServer).lexemes s = some ts ∧ Numbered banned ts

def isFixed (banned : List String) (s : List Char) : Bool :=
  ((of .sqlServer).lexemes s).any fun ts ↦ ts.all fun t ↦ !(special banned).contains t

def isOpening (banned : List String) (s : List Char) : Bool :=
  isFixed banned s && s.getLast?.any isLone

def isClosing (banned : List String) (s : List Char) : Bool :=
  isFixed banned s && s.head?.any isBreak

def isJoint (banned : List String) (s : List Char) : Bool :=
  isOpening banned s && isClosing banned s

theorem exists_of_isFixed {banned : List String} {s : List Char} (h : isFixed banned s) :
    ∃ ts, (of .sqlServer).lexemes s = some ts ∧ ∀ t ∈ ts, t ∉ special banned := by
  obtain ⟨ts, hts, hall⟩ := (Option.any_eq_true _ _).1 h
  exact ⟨ts, hts, fun t ht ↦ by simpa using List.all_eq_true.1 hall t ht⟩

namespace ReadsNumbered

variable {banned banned' : List String} {s t mark f : List Char} {ts : List Token}

theorem of_token {t : Token} (hs : (of .sqlServer).tokens s = some [t]) (hb : t.isBlank = false)
    (ht : t ∉ special banned) : ReadsNumbered banned s :=
  ⟨[t], by simp [lexemes, hs, hb], .token ht⟩

theorem fixed (h : isFixed banned s) : ReadsNumbered banned s :=
  let ⟨ts, hts, hall⟩ := exists_of_isFixed h
  ⟨ts, hts, .of_all hall⟩

theorem mono (h : ReadsNumbered banned s) (hb : banned' ⊆ banned) : ReadsNumbered banned' s :=
  let ⟨ts, hts, hn⟩ := h
  ⟨ts, hts, hn.mono hb⟩

theorem append (hs : ReadsNumbered banned s) (ht : ReadsNumbered banned t) (h : Severed s t) :
    ReadsNumbered banned (s ++ t) := by
  obtain ⟨ts, hts, hs⟩ := hs
  obtain ⟨us, hus, ht⟩ := ht
  exact ⟨ts ++ us, lexemes_append hts hus h, hs.append ht⟩

theorem prefixed (hm : isOpening banned mark) (ht : ReadsNumbered banned t) :
    ReadsNumbered banned (mark ++ t) := by
  obtain ⟨hf, hl⟩ := Bool.and_eq_true_iff.1 hm
  obtain ⟨c, hc, hlone⟩ := (Option.any_eq_true _ _).1 hl
  exact (fixed hf).append ht (.inl ⟨c, hc, hlone⟩)

theorem suffixed (hs : ReadsNumbered banned s) (hm : isClosing banned mark) :
    ReadsNumbered banned (s ++ mark) := by
  obtain ⟨hf, hb⟩ := Bool.and_eq_true_iff.1 hm
  obtain ⟨c, hc, hbreak⟩ := (Option.any_eq_true _ _).1 hb
  exact hs.append (fixed hf) (.inr fun e he ↦ Option.some.inj (hc.symm.trans he) ▸ hbreak)

theorem joined (hs : ReadsNumbered banned s) (hm : isJoint banned mark)
    (ht : ReadsNumbered banned t) : ReadsNumbered banned (s ++ mark ++ t) := by
  obtain ⟨ho, hc⟩ := Bool.and_eq_true_iff.1 hm
  obtain ⟨hf, hl⟩ := Bool.and_eq_true_iff.1 ho
  have hb := (Bool.and_eq_true_iff.1 hc).2
  obtain ⟨ms, hms, hm⟩ := exists_of_isFixed hf
  obtain ⟨ts, hts, hs⟩ := hs
  obtain ⟨us, hus, ht⟩ := ht
  exact ⟨_, lexemes_joined hts hms hb hl hus, (hs.append (.of_all hm)).append ht⟩

theorem intercalate (hm : isJoint banned mark) {ss : List (List Char)}
    (h : ∀ s ∈ ss, ReadsNumbered banned s) : ReadsNumbered banned (mark.intercalate ss) := by
  induction ss with
  | nil => exact ⟨[], rfl, .nil⟩
  | cons s rest ih =>
    obtain ⟨hs, hrest⟩ := List.forall_mem_cons.1 h
    by_cases hne : rest = []
    · subst hne
      simpa using hs
    · rw [List.intercalate_cons_of_ne_nil hne]
      exact hs.joined hm (ih hrest)

/-- What stands in parentheses, behind the name of a function or for itself. -/
theorem called (hf : ReadsNumbered banned f) (hs : ReadsNumbered [] s) :
    ReadsNumbered banned (f ++ '(' :: s ++ [')']) := by
  obtain ⟨ts, hts, hs⟩ := hs
  obtain ⟨fs, hfs, hf⟩ := hf
  have hopened : (of .sqlServer).lexemes (f ++ ['('] ++ s) = some (fs ++ [.symbol '('] ++ ts) :=
    lexemes_joined hfs rfl rfl rfl hts
  have hclosed : (of .sqlServer).lexemes (f ++ ['('] ++ s ++ [')']) =
      some (fs ++ [.symbol '('] ++ ts ++ [.symbol ')']) :=
    lexemes_append hopened rfl (.cons rfl)
  have hgroup : Numbered banned (fs ++ (.symbol '(' :: ts ++ [.symbol ')'])) :=
    hf.append (.group hs)
  exact ⟨_, by simpa using hclosed, by simpa using hgroup⟩

end ReadsNumbered

section range

variable {body range : List Char} {ts numbers : List Token}

theorem lexemes_range (hbody : (of .sqlServer).lexemes body = some ts)
    (hrange : (of .sqlServer).lexemes range = some numbers) :
    (of .sqlServer).lexemes ("select * from (".toList ++ body ++
        ") as temp_table where row_num ".toList ++ range ++ " order by row_num".toList) =
      some (lexed "select * from (" ++ ts ++ lexed ") as temp_table where row_num" ++ numbers ++
        lexed "order by row_num") := by
  have hfront : (of .sqlServer).lexemes ("select * from (".toList ++ body) =
      some (lexed "select * from (" ++ ts) :=
    lexemes_append rfl hbody (.inl ⟨'(', rfl, rfl⟩)
  have hmiddle : (of .sqlServer).lexemes ("select * from (".toList ++ body ++
      ") as temp_table where row_num ".toList ++ range) =
        some (lexed "select * from (" ++ ts ++ lexed ") as temp_table where row_num" ++ numbers) :=
    lexemes_joined hfront rfl rfl rfl hrange
  exact lexemes_append hmiddle rfl (.cons (c := ' ') rfl)

/-- The rows of a select, each with its number, and a range of them. -/
theorem ReadsNumbered.derived {head orders rest : List Char} {columns : List Token}
    (hh : (of .sqlServer).lexemes head = some (word "select" :: columns))
    (hc : Numbered borders columns) (ho : ReadsNumbered [] orders)
    (hr : ReadsNumbered ["union"] rest) (hb : ∀ c ∈ rest.head?, isBreak c)
    (hrange : (of .sqlServer).lexemes range = some numbers) (hn : IsRange numbers) :
    ReadsNumbered [] ("select * from (".toList ++ (head ++ ", row_number() over (".toList ++
      orders ++ ") as row_num".toList ++ rest) ++ ") as temp_table where row_num ".toList ++
        range ++ " order by row_num".toList) := by
  obtain ⟨os, hos, ho⟩ := ho
  obtain ⟨rs, hrs, hr⟩ := hr
  have hover : (of .sqlServer).lexemes (head ++ ", row_number() over (".toList ++ orders) =
      some (word "select" :: columns ++ lexed ", row_number() over (" ++ os) :=
    lexemes_joined hh rfl rfl rfl hos
  have hnumbers : (of .sqlServer).lexemes (head ++ ", row_number() over (".toList ++ orders ++
      ") as row_num".toList) =
        some (word "select" :: columns ++ lexed ", row_number() over (" ++ os ++
          lexed ") as row_num") :=
    lexemes_append hover rfl (.cons (c := ')') rfl)
  have hselect : lexed "select * from (select" = lexed "select * from (" ++ [word "select"] := rfl
  refine ⟨_, lexemes_range (lexemes_append hnumbers hrs (.inr hb)) hrange, ?_⟩
  have hderived := Numbered.derived hc ho hr hn
  rw [hselect] at hderived
  simpa using hderived

end range

end FluentSql
