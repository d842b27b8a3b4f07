import FluentSql.Proofs.Derived.Outline
import FluentSql.Proofs.Lexing.Selectors
import FluentSql.Proofs.Slots.Select

namespace FluentSql

open Text Lexing Lexis Sql
open Placeholders (isDigit_of_mem_toString)

theorem toList_toString_ne_nil (n : Nat) : (toString n).toList ≠ [] := by
  rw [Nat.toString_eq_ofList_toDigits, String.toList_ofList]
  exact Nat.toDigits_ne_nil

theorem tokens_toString (n : Nat) :
    (of .sqlServer).tokens (toString n).toList = some [word (toString n)] := by
  have hword : (toString n).toList.all isWordChar := List.all_eq_true.2 fun c hc ↦
    isWordChar_of_isDigit (isDigit_of_mem_toString hc)
  have hs : (of .sqlServer).tokens ((toString n).toList ++ []) = some [word (toString n)] :=
    tokens_word (toList_toString_ne_nil n) hword nofun rfl
  rwa [List.append_nil] at hs

theorem exists_isRange (c : Clauses) : ∃ ts,
    (of .sqlServer).lexemes (Grammar.rowRange c).toList = some ts ∧ IsRange ts := by
  have hn (n : Nat) : (of .sqlServer).lexemes (toString n).toList = some [word (toString n)] := by
    rw [lexemes, tokens_toString]
    rfl
  have hbetween (m n : Nat) : (of .sqlServer).lexemes
      ("between ".toList ++ (toString m).toList ++ " and ".toList ++ (toString n).toList) =
        some ([word "between"] ++ [word (toString m)] ++ [word "and"] ++ [word (toString n)]) :=
    lexemes_joined (lexemes_append rfl (hn m) (.inl ⟨' ', rfl, rfl⟩)) rfl rfl rfl (hn n)
  have hafter (n : Nat) : (of .sqlServer).lexemes (">= ".toList ++ (toString n).toList) =
      some (lexed ">=" ++ [word (toString n)]) :=
    lexemes_append rfl (hn n) (.inl ⟨' ', rfl, rfl⟩)
  unfold Grammar.rowRange
  dsimp only
  split
  · exact ⟨_, by simpa using hbetween _ _, .between _ _⟩
  · exact ⟨_, by simpa using hafter _, .after _⟩

namespace ReadsNumbered

variable {s : List Char} {n : Nat}

theorem enclose (s : List Char) : ReadsNumbered borders (Dialect.sqlServer.quotes.enclose s) := by
  have hread : (of .sqlServer).tokens (Dialect.sqlServer.quotes.enclose s ++ []) =
      some [nameToken .sqlServer s] := tokens_enclose s nofun rfl
  rw [List.append_nil, nameToken] at hread
  split at hread
  · exact of_token hread rfl (by decide)
  · exact of_token hread rfl (by simp [special, word])

theorem names (names : List (List Char)) :
    ReadsNumbered borders (['.'].intercalate (names.map Dialect.sqlServer.quotes.enclose)) := by
  refine .intercalate (by decide) fun s hs ↦ ?_
  obtain ⟨name, -, rfl⟩ := List.mem_map.1 hs
  exact enclose name

theorem pathLiteral (path : List Char) : ReadsNumbered borders (Selector.pathLiteral path) :=
  of_token (Selector.reads_pathLiteral .sqlServer path).tokens rfl (by simp [special, word])

theorem of_word (hs : (of .sqlServer).tokens s = some [.word s])
    (hd : s.all fun c ↦ isDigit c || c == '-') : ReadsNumbered borders s := by
  have hborders : ∀ b ∈ "row_num" :: "row_number" :: borders,
      (b.toList.all fun c ↦ isDigit c || c == '-') = false := by decide
  refine of_token hs rfl fun hm ↦ ?_
  obtain ⟨b, hb, he⟩ : ∃ b ∈ "row_num" :: "row_number" :: borders, .word s = word b := by
    simpa [special] using hm
  exact word_ne_of_all hd (hborders b hb) he

theorem natural (n : Nat) : ReadsNumbered borders (toString n).toList :=
  of_word (tokens_toString n) (List.all_eq_true.2 fun c hc ↦ by simp [isDigit_of_mem_toString hc])

theorem integer (i : Int) : ReadsNumbered borders (toString i).toList := by
  cases i with
  | ofNat n => exact natural n
  | negSucc n =>
    have hs : (of .sqlServer).tokens ('-' :: (toString (n + 1)).toList ++ []) =
        some [.word ('-' :: (toString (n + 1)).toList)] :=
      tokens_signed (.inl rfl) (toList_toString_ne_nil (n + 1)) (fun _ ↦ isDigit_of_mem_toString)
        nofun rfl
    have hi : (toString (Int.negSucc n)).toList = '-' :: (toString (n + 1)).toList :=
      String.toList_append
    rw [List.append_nil] at hs
    rw [hi]
    refine of_word hs (List.all_eq_true.2 fun c hc ↦ ?_)
    rcases List.mem_cons.1 hc with rfl | hc
    · decide
    · simp [isDigit_of_mem_toString hc]

end ReadsNumbered

namespace Grammar

variable {g : Grammar} {s : Sql} {column : String} {operator : Operator}

theorem numbered_operand (value : Operand Value) : value.sql.NumberedIn borders := by
  cases value with
  | bound v => exact .slot v
  | raw sql => exact .raw sql []

theorem numbered_operands (values : List (Operand Value)) :
    (operands values).NumberedIn borders := by
  refine .join (by decide) fun s hs ↦ ?_
  obtain ⟨value, -, rfl⟩ := List.mem_map.1 hs
  exact numbered_operand value

theorem numbered_operator (o : Operator) : o.sql.NumberedIn ["union"] := by
  have hknown : Operator.known.all fun s ↦ isFixed ["union"] s.toList := by decide
  unfold Operator.sql Operator.spelled
  split
  · rename_i ho
    exact .fixed (List.all_eq_true.1 hknown _ (List.contains_iff_mem.1 ho))
  · exact .raw o.symbol []

theorem numbered_compared {left right : Sql} (hl : left.NumberedIn ["union"]) (o : Operator)
    (hr : right.NumberedIn ["union"]) :
    (left ++ " " ++ o.sql ++ " " ++ right).NumberedIn ["union"] :=
  (hl.joined (by decide) (numbered_operator o)).joined (by decide) hr

theorem isJoint_connective (c : Connective) : isJoint ["union"] (" " ++ c.word ++ " ").toList := by
  cases c <;> decide

theorem numbered_emptyMembership (negated : Bool) :
    (emptyMembership negated).NumberedIn ["union"] := by
  cases negated <;> exact .fixed (by decide)

theorem numbered_negation (negated : Bool) {s : Sql} (hs : s.NumberedIn ["union"]) :
    (negation negated ++ s : Sql).NumberedIn ["union"] := by
  cases negated with
  | true => exact .prefixed (by decide) hs
  | false =>
    rw [NumberedIn, outline_append]
    exact hs

theorem isClosing_membership (negated : Bool) :
    isClosing ["union"] (membership negated).toList := by
  cases negated <;> decide

theorem isJoint_between (negated : Bool) :
    isJoint ["union"] (" " ++ negation negated ++ "between ").toList := by
  cases negated <;> decide

section

variable (hd : g.dialect = .sqlServer)

include hd

theorem numbered_enclose (s : List Char) : ReadsNumbered borders (g.quotes.enclose s) := by
  rw [quotes, hd]
  exact .enclose s

theorem numbered_column (s : List Char) : ReadsNumbered borders (g.columnChars s) := by
  rw [columnChars, Quoting.column_eq, Quoting.spelled, List.append_nil, quotes, hd]
  exact .names _

theorem numbered_table (tablePrefix s : List Char) :
    ReadsNumbered borders (Quoting.table g.quotes tablePrefix s) := by
  rw [Quoting.table, quotes, hd]
  exact .names _

theorem numbered_pathArguments (s : List Char) : ReadsNumbered borders (g.pathArguments s) := by
  unfold pathArguments fieldAndPath
  split
  · rename_i field path _
    have hread : ReadsNumbered borders
        (g.columnChars field ++ [',', ' '] ++ Selector.pathLiteral path) :=
      (numbered_column hd field).joined (by decide) (.pathLiteral path)
    simpa using hread
  · simpa using numbered_column hd s

theorem numbered_unaliased {s t : List Char} (h : g.unaliased s = .ok t) :
    ReadsNumbered borders t := by
  unfold unaliased at h
  split at h
  · rw [selector, hd] at h
    cases h
    have hname : ReadsNumbered borders "json_value".toList := .fixed (by decide)
    exact hname.called ((numbered_pathArguments hd s).mono (List.nil_subset borders))
  · cases h
    exact numbered_column hd s

theorem numbered_wrap {s t : String} (h : g.wrap s = .ok t) : ReadsNumbered borders t.toList := by
  unfold wrap at h
  split at h
  all_goals
    obtain ⟨column, hc, h⟩ := bind_eq_ok.1 h
    cases pure_eq_ok.1 h
    rw [String.toList_ofList]
  · exact (numbered_unaliased hd hc).joined (by decide) (numbered_enclose hd _)
  · exact numbered_unaliased hd hc

theorem numbered_wrapTable (s : String) : ReadsNumbered borders (g.wrapTable s).toList := by
  unfold wrapTable
  dsimp only
  split
  all_goals rw [String.toList_ofList]
  · exact (numbered_table hd _ _).joined (by decide) (numbered_enclose hd _)
  · exact numbered_table hd _ _

theorem numbered_wrapSegment (s : String) : ReadsNumbered borders (g.wrapSegment s).toList := by
  rw [wrapSegment, String.toList_ofList]
  exact numbered_enclose hd _

theorem numbered_names {columns : List String} {t : String} (h : g.names columns = .ok t) :
    ReadsNumbered borders t.toList := by
  simp only [Grammar.names, bind_eq_ok, pure_eq_ok] at h
  obtain ⟨names, hnames, rfl⟩ := h
  rw [String.toList_intercalate]
  refine .intercalate (by decide) fun s hs ↦ ?_
  obtain ⟨name, hmem, rfl⟩ := List.mem_map.1 hs
  obtain ⟨c, -, hc⟩ := exists_of_mem_mapM hnames hmem
  exact numbered_wrap hd hc

theorem numbered_left {c : String} (h : g.wrap column = .ok c) : (c : Sql).NumberedIn ["union"] :=
  .text ((numbered_wrap hd h).mono (by decide))

theorem numbered_basicTest {value : Operand Value}
    (h : g.basicTest column operator value = .ok s) : s.NumberedIn ["union"] := by
  simp only [basicTest, comparisonSymbol, hd, reduceCtorEq, false_and, if_false, bind_eq_ok,
    pure_eq_ok] at h
  obtain ⟨c, hc, rfl⟩ := h
  exact numbered_compared (numbered_left hd hc) operator ((numbered_operand value).mono (by decide))

theorem numbered_jsonBooleanTest {value : Bool}
    (h : g.jsonBooleanTest column operator value = .ok s) : s.NumberedIn ["union"] := by
  simp only [jsonBooleanTest, hd, pure_bind, bind_eq_ok, pure_eq_ok] at h
  obtain ⟨c, hc, rfl⟩ := h
  refine numbered_compared (numbered_left hd hc) operator (.fixed ?_)
  cases value <;> decide

theorem numbered_null {c : String} (hc : g.wrap column = .ok c) (negated : Bool) :
    ((c ++ " is " ++ negation negated ++ "null" : String) : Sql).NumberedIn ["union"] := by
  have hnull : isClosing ["union"]
      (" is ".toList ++ (negation negated).toList ++ "null".toList) := by
    cases negated <;> decide
  have hleft : ReadsNumbered ["union"] c.toList := (numbered_wrap hd hc).mono (by decide)
  exact .text (by simpa using hleft.suffixed hnull)

theorem numbered_nullTest {negated : Bool} (h : g.nullTest column negated = .ok s) :
    s.NumberedIn ["union"] := by
  simp only [nullTest, hd, reduceCtorEq, false_and, if_false, bind_eq_ok, pure_eq_ok] at h
  obtain ⟨c, hc, rfl⟩ := h
  exact numbered_null hd hc negated

theorem numbered_between {c : String} (hc : g.wrap column = .ok c) {low high : List Char}
    (hl : ReadsNumbered borders low) (hh : ReadsNumbered borders high) (negated : Bool) :
    ReadsNumbered ["union"] (c.toList ++ (" " ++ negation negated ++ "between ").toList ++ low ++
      " and ".toList ++ high) :=
  (((numbered_wrap hd hc).mono (by decide)).joined (isJoint_between negated)
    (hl.mono (by decide))).joined (by decide) (hh.mono (by decide))

theorem numbered_betweenTest {low high : Operand Value} {negated : Bool}
    (h : g.betweenTest column low high negated = .ok s) : s.NumberedIn ["union"] := by
  simp only [betweenTest, bind_eq_ok, pure_eq_ok] at h
  obtain ⟨c, hc, rfl⟩ := h
  have hread := numbered_between hd hc (numbered_operand low) (numbered_operand high) negated
  rw [NumberedIn]
  simpa using hread

theorem numbered_datePartTest {part : DatePart} {value : Operand Value}
    (h : g.datePartTest part column operator value = .ok s) : s.NumberedIn ["union"] := by
  simp only [datePartTest, hd, bind_eq_ok, pure_eq_ok] at h
  obtain ⟨c, hc, rfl⟩ := h
  have hwrap : ReadsNumbered [] c.toList := (numbered_wrap hd hc).mono (List.nil_subset _)
  have hcall {left : String} (f : String) (hf : isFixed ["union"] f.toList) {inner : List Char}
      (hi : ReadsNumbered [] inner) (he : left.toList = f.toList ++ '(' :: inner ++ [')']) :
      ((left : Sql) ++ " " ++ operator.sql ++ " " ++ value.sql).NumberedIn ["union"] := by
    refine numbered_compared (.text ?_) operator ((numbered_operand value).mono (by decide))
    exact he ▸ (ReadsNumbered.fixed hf).called hi
  cases part with
  | date =>
    have htype : isClosing [] " as date".toList := by decide
    exact hcall "cast" (by decide) (hwrap.suffixed htype) (by simp)
  | time =>
    have htype : isClosing [] " as time".toList := by decide
    exact hcall "cast" (by decide) (hwrap.suffixed htype) (by simp)
  | day => exact hcall "day" (by decide) hwrap (by simp [DatePart.word])
  | month => exact hcall "month" (by decide) hwrap (by simp [DatePart.word])
  | year => exact hcall "year" (by decide) hwrap (by simp [DatePart.word])

theorem numbered_rowValuesTest {columns : List String} {values : List (Operand Value)}
    (h : g.rowValuesTest columns operator values = .ok s) : s.NumberedIn ["union"] := by
  simp only [rowValuesTest, bind_eq_ok, pure_eq_ok] at h
  obtain ⟨names, hnames, rfl⟩ := h
  have hleft : (names : Sql).RowsNumbered :=
    .text ((numbered_names hd hnames).mono (List.nil_subset _))
  have hread := numbered_compared (NumberedIn.enclosed hleft) operator
    (NumberedIn.enclosed (numbered_operands values).rowsNumbered)
  rw [NumberedIn] at hread ⊢
  simpa using hread

theorem numbered_jsonContainsTest {value : Value}
    (h : g.jsonContainsTest column value = .ok s) : s.NumberedIn ["union"] := by
  simp only [jsonContainsTest, hd, pure_eq_ok] at h
  subst h
  have harguments : ReadsNumbered [] (g.pathArguments column.toList) :=
    (numbered_pathArguments hd _).mono (List.nil_subset _)
  have hopen : ReadsNumbered [] ("select [value] from openjson".toList ++
      '(' :: g.pathArguments column.toList ++ [')']) :=
    (ReadsNumbered.fixed (by decide)).called harguments
  have hin : ReadsNumbered ["union"] "? in ".toList := .fixed (by decide)
  have hread := hin.called hopen
  rw [NumberedIn]
  simpa [pathArguments] using hread

theorem numbered_jsonLengthTest {value : Operand Value}
    (h : g.jsonLengthTest column operator value = .ok s) : s.NumberedIn ["union"] := by
  simp only [jsonLengthTest, hd, pure_bind, pure_eq_ok] at h
  subst h
  refine numbered_compared (.text ?_) operator ((numbered_operand value).mono (by decide))
  have harguments : ReadsNumbered [] (g.pathArguments column.toList) :=
    (numbered_pathArguments hd _).mono (List.nil_subset _)
  have hcount : ReadsNumbered [] ("select count".toList ++ '(' :: ['*'] ++ [')']) :=
    (ReadsNumbered.fixed (by decide)).called (.fixed (by decide))
  have hopen : ReadsNumbered [] ("select count".toList ++ '(' :: ['*'] ++ [')'] ++
      " from openjson".toList ++ '(' :: g.pathArguments column.toList ++ [')']) :=
    (hcount.suffixed (by decide)).called harguments
  have hempty : ReadsNumbered ["union"] [] := .fixed (by decide)
  simpa using hempty.called hopen

theorem numbered_columnTest {second : String}
    (h : g.columnTest column operator second = .ok s) : s.NumberedIn ["union"] := by
  simp only [columnTest, bind_eq_ok, pure_eq_ok] at h
  obtain ⟨a, ha, b, hb, rfl⟩ := h
  exact numbered_compared (numbered_left hd ha) operator (numbered_left hd hb)

theorem numbered_betweenColumnsTest {low high : String} {negated : Bool}
    (h : g.betweenColumnsTest column low high negated = .ok s) : s.NumberedIn ["union"] := by
  simp only [betweenColumnsTest, bind_eq_ok, pure_eq_ok] at h
  obtain ⟨c, hc, low, hl, high, hh, rfl⟩ := h
  have hread := numbered_between hd hc (numbered_wrap hd hl) (numbered_wrap hd hh) negated
  exact .text (by simpa using hread)

theorem numbered_inTest {values : List (Operand Value)} {negated : Bool}
    (h : g.inTest column values negated = .ok s) : s.NumberedIn ["union"] := by
  simp only [inTest] at h
  split at h
  · cases h
    exact numbered_emptyMembership negated
  · simp only [bind_eq_ok, pure_eq_ok] at h
    obtain ⟨c, hc, rfl⟩ := h
    have hread := ((numbered_left hd hc).suffixed (isClosing_membership negated)).called
      (numbered_operands values).rowsNumbered
    simpa [NumberedIn] using hread

theorem numbered_inIntegersTest {values : List Int64} {negated : Bool}
    (h : g.inIntegersTest column values negated = .ok s) : s.NumberedIn ["union"] := by
  simp only [inIntegersTest] at h
  split at h
  · cases h
    exact numbered_emptyMembership negated
  · simp only [bind_eq_ok, pure_eq_ok] at h
    obtain ⟨c, hc, rfl⟩ := h
    have hlist : ReadsNumbered borders
        (", ".intercalate (values.map fun i ↦ toString i.toInt)).toList := by
      rw [String.toList_intercalate]
      refine .intercalate (by decide) fun s hs ↦ ?_
      obtain ⟨t, ht, rfl⟩ := List.mem_map.1 hs
      obtain ⟨i, -, rfl⟩ := List.mem_map.1 ht
      exact .integer _
    have hleft : ReadsNumbered ["union"] c.toList := (numbered_wrap hd hc).mono (by decide)
    have hread := (hleft.suffixed (isClosing_membership negated)).called
      (hlist.mono (List.nil_subset _))
    exact .text (by simpa using hread)

end

end Grammar

end FluentSql
