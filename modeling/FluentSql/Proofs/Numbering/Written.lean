import FluentSql.Proofs.Numbering.Pieces
import FluentSql.Proofs.Slots.Select

namespace FluentSql

open Text Placeholders

namespace Operator

def isUnmarked (o : Operator) : Bool := o.isKnown && o.symbol.toList.all isPlain

end Operator

def Operand.Neat (operand : Operand Value) : Prop := operand.sql.Sound

def Reference.Neat : Reference → Prop
  | name _ => True
  | fragment sql => sql.Sound

def Order.Neat : Order → Prop
  | column c _ => c.Neat
  | raw sql => sql.Sound

def HavingTest.Neat : HavingTest → Prop
  | basic _ o value => o.isUnmarked ∧ value.Neat
  | raw sql => sql.Sound
  | null _ _ => True
  | between _ low high => low.Neat ∧ high.Neat

def Lock.Neat : Lock → Prop
  | raw sql => Reads none 0 sql.toList
  | update => True
  | shared => True

namespace Placeholders

variable {n : Nat} {s : List Char}

theorem reads_double (h : ∀ c ∈ s, ¬ IsQuote c ∧ c ≠ '$') : Reads none 0 (double '?' s) := by
  induction s with
  | nil => exact .done
  | cons c s ih =>
    obtain ⟨hq, hd⟩ := h c List.mem_cons_self
    have hs := ih fun d hd ↦ h d (List.mem_cons_of_mem _ hd)
    rw [double]
    split
    · rename_i hc
      exact hc ▸ .mark hs
    · rename_i hc
      exact .other hq hc hd hs

theorem number_double (h : ∀ c ∈ s, ¬ IsQuote c) : number none n (double '?' s) = s := by
  induction s with
  | nil => rfl
  | cons c s ih =>
    have hs := ih fun d hd ↦ h d (List.mem_cons_of_mem _ hd)
    rw [double]
    split
    · rename_i hc
      subst hc
      rw [number_mark, hs]
    · rename_i hc
      rw [number_other (h c List.mem_cons_self) hc, hs]

namespace Quiet

theorem concat {a b : String} (ha : Quiet none a.toList) (hb : Quiet none b.toList) :
    Quiet none (a ++ b).toList := by
  rw [String.toList_append]
  exact ha.append hb

theorem natural (n : Nat) : Quiet none (toString n).toList :=
  of_digits (List.all_eq_true.2 fun _ ↦ isDigit_of_mem_toString)

theorem integer (i : Int) : Quiet none (toString i).toList := by
  cases i with
  | ofNat n => exact natural n
  | negSucc n => exact concat (.of_plain (by decide)) (natural (n + 1))

end Quiet

end Placeholders

namespace Operator

variable {o : Operator}

theorem not_isQuote_of_isKnown (h : o.isKnown) : ∀ c ∈ o.symbol.toList, ¬ IsQuote c ∧ c ≠ '$' := by
  have hall : known.all fun s ↦ s.toList.all fun c ↦ c != '\x27' && c != '"' && c != '$' := by
    decide
  have hs := List.all_eq_true.1 hall o.symbol (List.contains_iff_mem.1 h)
  intro c hc
  have hp := List.all_eq_true.1 hs c hc
  simp only [Bool.and_eq_true, bne_iff_ne] at hp
  exact ⟨fun hq ↦ hq.elim hp.1.1 hp.1.2, hp.2⟩

theorem isUnmarked_of_isLike (h : o.isLike) : o.isUnmarked := by
  obtain ⟨symbol⟩ := o
  have hs : symbol ∈ ["like", "not like", "ilike", "not ilike"] := List.contains_iff_mem.1 h
  simp only [List.mem_cons, List.not_mem_nil, or_false] at hs
  rcases hs with rfl | rfl | rfl | rfl <;> decide

theorem quiet_of_isUnmarked (h : o.isUnmarked) : Quiet none o.symbol.toList := by
  rw [isUnmarked, Bool.and_eq_true] at h
  exact .of_plain h.2

theorem sound_sql (h : o.isUnmarked) : o.sql.Sound := by
  have hk : o.isKnown := (Bool.and_eq_true_iff.1 h).1
  rw [sql_of_isKnown hk]
  exact .of_text (quiet_of_isUnmarked h)

end Operator

namespace Grammar

variable {g : Grammar} {s : Sql} {column : String} {o : Operator} {value : Operand Value}

theorem sound_operands {values : List (Operand Value)} (h : ∀ v ∈ values, v.Neat) :
    (operands values).Sound := by
  refine .join (by decide) fun s hs ↦ ?_
  obtain ⟨v, hv, rfl⟩ := List.mem_map.1 hs
  exact h v hv

theorem isMark_connective (c : Connective) : Sql.isMark (" " ++ c.word ++ " ") := by
  cases c <;> decide

theorem sound_connect {tests : List (Connective × Sql)} (h : ∀ t ∈ tests, t.2.Sound) :
    (connect tests).Sound := by
  cases tests with
  | nil => exact .empty
  | cons first rest =>
    obtain ⟨hfirst, hrest⟩ := List.forall_mem_cons.1 h
    rw [connect]
    clear h
    generalize first.2 = s at hfirst
    induction rest generalizing s with
    | nil =>
      have he : (⟨[]⟩ : Sql).Sound := .empty
      exact hfirst.append he fun _ ↦ by simp [Clear, Sql.text]
    | cons t rest ih =>
      obtain ⟨ht, hrest⟩ := List.forall_mem_cons.1 hrest
      have hj := ih hrest _ (hfirst.joined (isMark_connective t.1) ht)
      rw [Sql.append_assoc, Sql.append_assoc] at hj
      exact hj

theorem quiet_negation (negated : Bool) : Quiet none (negation negated).toList := by
  cases negated <;> exact .of_plain (by decide)

theorem sound_emptyMembership (negated : Bool) : (emptyMembership negated).Sound := by
  cases negated <;> exact .of_text (.of_plain (by decide))

theorem quiet_membership (negated : Bool) : Quiet none (membership negated).toList := by
  cases negated <;> exact .of_plain (by decide)

theorem isMark_membership (negated : Bool) : Sql.isMark (membership negated) := by
  cases negated <;> decide

variable (hg : g.dialect = .postgres)

include hg

theorem sound_comparisonSymbol (ho : o.isKnown) : (g.comparisonSymbol o : Sql).Sound := by
  rw [comparisonSymbol, hg]
  change (o.spelled _).Sound
  rw [Operator.spelled, if_pos ho]
  refine .of_piece ?_
  rw [Piece.written, String.toList_ofList]
  exact reads_double (o.not_isQuote_of_isKnown ho)

theorem sound_wrap {t : String} (h : g.wrap column = .ok t) : (t : Sql).Sound :=
  .of_text (quiet_wrap hg h)

theorem quiet_names {columns : List String} {t : String} (h : g.names columns = .ok t) :
    Quiet none t.toList := by
  simp only [names, bind_eq_ok, pure_eq_ok] at h
  obtain ⟨ts, hts, rfl⟩ := h
  refine .intercalate (.of_plain (by decide)) fun t ht ↦ ?_
  obtain ⟨column, -, hc⟩ := exists_of_mem_mapM hts ht
  exact quiet_wrap hg hc

theorem sound_basicTest (ho : o.isKnown) (hv : value.Neat)
    (h : g.basicTest column o value = .ok s) : s.Sound := by
  simp only [basicTest, bind_eq_ok] at h
  obtain ⟨c, hc, h⟩ := h
  have hw := sound_wrap hg hc
  split at h
  · rename_i hl
    cases pure_eq_ok.1 h
    have hs := o.sound_sql (o.isUnmarked_of_isLike hl.2)
    exact (hw.joined (by decide) hs).joined (by decide) hv
  · cases pure_eq_ok.1 h
    exact (hw.joined (by decide) (sound_comparisonSymbol hg ho)).joined (by decide) hv

theorem sound_jsonBooleanTest {value : Bool} (ho : o.isUnmarked)
    (h : g.jsonBooleanTest column o value = .ok s) : s.Sound := by
  have hliteral : Quiet none ("'" ++ (if value then "true" else "false") ++ "'::jsonb").toList := by
    have hq (word : List Char) :
        Quiet none ('\x27' :: double '\x27' word ++ ['\x27'] ++ "::jsonb".toList) :=
      (Quiet.quoted (.inl rfl) word).append (.of_plain (by decide))
    cases value with
    | true => simpa [double] using hq "true".toList
    | false => simpa [double] using hq "false".toList
  rw [jsonBooleanTest, hg] at h
  cases pure_eq_ok.1 h
  have hchain : Quiet none (asDocument (String.ofList (g.postgresChain column.toList))).toList := by
    refine quiet_asDocument ?_
    rw [String.toList_ofList]
    exact quiet_chain hg _
  have hselector := ((Quiet.of_plain (s := "(".toList) (by decide)).concat hchain).concat
    (b := ")::jsonb") (.of_plain (by decide))
  exact ((Sql.Sound.of_text hselector).joined (by decide) (o.sound_sql ho)).joined (by decide)
    (.of_text hliteral)

theorem sound_nullTest {negated : Bool} (h : g.nullTest column negated = .ok s) : s.Sound := by
  rw [nullTest, hg, if_neg (by simp)] at h
  simp only [bind_eq_ok, pure_eq_ok] at h
  obtain ⟨c, hc, rfl⟩ := h
  have hp (text : String) (ht : text.toList.all isPlain) : Quiet none text.toList := .of_plain ht
  exact .of_text ((((quiet_wrap hg hc).concat (hp _ (by decide))).concat
    (quiet_negation negated)).concat (hp _ (by decide)))

theorem sound_betweenTest {low high : Operand Value} {negated : Bool} (hl : low.Neat)
    (hh : high.Neat) (h : g.betweenTest column low high negated = .ok s) : s.Sound := by
  simp only [betweenTest, bind_eq_ok, pure_eq_ok] at h
  obtain ⟨c, hc, rfl⟩ := h
  have hn : (negation negated : Sql).Sound := .of_text (quiet_negation negated)
  exact ((((sound_wrap hg hc).joined (by decide) hn).joined (by decide) hl).joined (by decide) hh)

theorem sound_datePartTest {part : DatePart} (ho : o.isUnmarked) (hv : value.Neat)
    (h : g.datePartTest part column o value = .ok s) : s.Sound := by
  simp only [datePartTest, bind_eq_ok, pure_eq_ok] at h
  obtain ⟨c, hc, rfl⟩ := h
  have hw := quiet_wrap hg hc
  have hcompared (left : String) (hl : Quiet none left.toList) :
      ((left : Sql) ++ " " ++ o.sql ++ " " ++ value.sql).Sound :=
    ((Sql.Sound.of_text hl).joined (by decide) (o.sound_sql ho)).joined (by decide) hv
  rw [hg]
  cases part with
  | date => exact hcompared _ (hw.concat (.of_plain (by decide)))
  | time => exact hcompared _ (hw.concat (.of_plain (by decide)))
  | _ =>
    refine hcompared _ (.concat (.concat (.concat (.concat ?_ ?_) ?_) hw) ?_)
    all_goals exact .of_plain (by decide)

theorem sound_rowValuesTest {columns : List String} {values : List (Operand Value)}
    (ho : o.isUnmarked) (hv : ∀ v ∈ values, v.Neat)
    (h : g.rowValuesTest columns o values = .ok s) : s.Sound := by
  simp only [rowValuesTest, bind_eq_ok, pure_eq_ok] at h
  obtain ⟨t, ht, rfl⟩ := h
  have hleft : (("(" : Sql) ++ t).Sound :=
    .prefixed (.of_plain (by decide)) (.of_text (quiet_names hg ht))
  exact ((hleft.joined (by decide) (o.sound_sql ho)).joined (by decide)
    (sound_operands hv)).suffixed (by decide)

theorem sound_jsonContainsTest {value : Value} (h : g.jsonContainsTest column value = .ok s) :
    s.Sound := by
  rw [jsonContainsTest, hg] at h
  simp only [bind_eq_ok, pure_eq_ok] at h
  obtain ⟨c, hc, rfl⟩ := h
  have hleft : (("(" : Sql) ++ asDocument c).Sound :=
    .prefixed (.of_plain (by decide)) (.of_text (quiet_asDocument (quiet_wrap hg hc)))
  exact hleft.joined (by decide) (.slot value)

theorem sound_jsonLengthTest (ho : o.isUnmarked) (hv : value.Neat)
    (h : g.jsonLengthTest column o value = .ok s) : s.Sound := by
  rw [jsonLengthTest, hg] at h
  simp only [bind_eq_ok, pure_eq_ok] at h
  obtain ⟨c, hc, _, rfl, rfl⟩ := h
  have hleft : Quiet none ("jsonb_array_length((" ++ asDocument c ++ ")::jsonb)").toList := by
    refine .concat (.concat ?_ (quiet_asDocument (quiet_wrap hg hc))) ?_
    all_goals exact .of_plain (by decide)
  exact ((Sql.Sound.of_text hleft).joined (by decide) (o.sound_sql ho)).joined (by decide) hv

theorem sound_columnTest {second : String} (ho : o.isUnmarked)
    (h : g.columnTest column o second = .ok s) : s.Sound := by
  simp only [columnTest, bind_eq_ok, pure_eq_ok] at h
  obtain ⟨a, ha, b, hb, rfl⟩ := h
  exact ((sound_wrap hg ha).joined (by decide) (o.sound_sql ho)).joined (by decide)
    (sound_wrap hg hb)

theorem sound_betweenColumnsTest {low high : String} {negated : Bool}
    (h : g.betweenColumnsTest column low high negated = .ok s) : s.Sound := by
  simp only [betweenColumnsTest, bind_eq_ok, pure_eq_ok] at h
  obtain ⟨a, ha, b, hb, c, hc, rfl⟩ := h
  exact .of_text ((((((quiet_wrap hg ha).concat (.of_plain (by decide))).concat
    (quiet_negation negated)).concat (.of_plain (by decide))).concat (quiet_wrap hg hb)).concat
      (.of_plain (by decide)) |>.concat (quiet_wrap hg hc))

theorem sound_inTest {values : List (Operand Value)} {negated : Bool}
    (hv : ∀ v ∈ values, v.Neat) (h : g.inTest column values negated = .ok s) : s.Sound := by
  simp only [inTest] at h
  split at h
  · cases h
    exact sound_emptyMembership negated
  · simp only [bind_eq_ok, pure_eq_ok] at h
    obtain ⟨c, hc, rfl⟩ := h
    have hleft := (sound_wrap hg hc).suffixed (isMark_membership negated)
    exact (hleft.joined (by decide) (sound_operands hv)).suffixed (by decide)

theorem sound_inIntegersTest {values : List Int64} {negated : Bool}
    (h : g.inIntegersTest column values negated = .ok s) : s.Sound := by
  simp only [inIntegersTest] at h
  split at h
  · cases h
    exact sound_emptyMembership negated
  · simp only [bind_eq_ok, pure_eq_ok] at h
    obtain ⟨c, hc, rfl⟩ := h
    refine .of_text (.concat (.concat (.concat (.concat (quiet_wrap hg hc)
      (quiet_membership negated)) ?_) ?_) ?_)
    · exact .of_plain (by decide)
    · refine .intercalate (.of_plain (by decide)) fun t ht ↦ ?_
      obtain ⟨i, -, rfl⟩ := List.mem_map.1 ht
      exact .integer _
    · exact .of_plain (by decide)

end Grammar

end FluentSql
