import FluentSql.Proofs.Numbering.Neat

namespace FluentSql

open Text Placeholders

def Piece.Spells (o : Operator) : Piece → Prop
  | text t => o.symbol.toList <:+: number none 0 t.toList
  | _ => False

def Sql.Spells (o : Operator) (s : Sql) : Prop := ∃ p ∈ s.pieces, p.Spells o

section

variable (o : Operator) (embedded : Sql → Prop)

def Reference.Writes : Reference → Prop
  | name _ => False
  | fragment sql => embedded sql

def Order.Writes : Order → Prop
  | column c _ => c.Writes embedded
  | raw sql => embedded sql

def HavingTest.Writes : HavingTest → Prop
  | basic _ operator _ => operator = o
  | _ => False

/-- The operator stands in a part of the query that holds no other query as such. -/
inductive Clauses.Writes (c : Clauses) : Prop
  | column (r : Reference) (hr : r ∈ c.columns.getD []) (h : r.Writes embedded)
  | source (r : Reference) (hr : r ∈ c.source) (h : r.Writes embedded)
  | group (r : Reference) (hr : r ∈ c.groups) (h : r.Writes embedded)
  | having (t : Having) (ht : t ∈ c.havings) (h : t.test.Writes o)
  | order (r : Order) (hr : r ∈ c.orders) (h : r.Writes embedded)

mutual

/-- The operator stands in a clause of the query or of one inside it. `embedded` tells it of a query
that was put in as text. -/
def Query.Writes : Query → Prop
  | ⟨c, joins, conditions, unions⟩ =>
    c.Writes o embedded ∨ (unions ≠ [] ∧ ∃ order ∈ c.unionOrders, order.Writes embedded) ∨
      joinsWrite joins ∨ conditionsWrite conditions ∨ membersWrite unions

def joinsWrite : List (Join Query) → Prop
  | [] => False
  | ⟨_, table, ⟨_, joins, conditions, _⟩⟩ :: rest =>
    table.Writes embedded ∨ joinsWrite joins ∨ conditionsWrite conditions ∨ joinsWrite rest

def conditionsWrite : List (Condition Query) → Prop
  | [] => False
  | ⟨_, t⟩ :: rest => t.Writes ∨ conditionsWrite rest

def membersWrite : List (Member Query) → Prop
  | [] => False
  | ⟨query, _⟩ :: rest => query.Writes ∨ membersWrite rest

def Test.Writes : Test Query → Prop
  | .basic _ operator _ => operator = o
  | .jsonBoolean _ operator _ => operator = o
  | .columns _ operator _ => operator = o
  | .isInQuery _ query _ => query.Writes
  | .datePart _ _ operator _ => operator = o
  | .nested ⟨_, _, conditions, _⟩ => conditionsWrite conditions
  | .query _ operator query => operator = o ∨ query.Writes
  | .existence query _ => query.Writes
  | .rowValues _ operator _ => operator = o
  | .jsonLength _ operator _ => operator = o
  | _ => False

end

/-- The operator stands in the query or in one that was put in as text, at most `depth` deep. What
is put in has to be fit for numbering itself. -/
def Query.UsesWithin : Nat → Query → Prop
  | 0, q => q.Writes o fun _ ↦ False
  | depth + 1, q =>
    q.Writes o fun sql ↦ ∃ inner text, inner.Neat ∧ q.grammar.select inner = .ok text ∧
      text.pieces ⊆ sql.pieces ∧ UsesWithin depth inner

end

def Query.Uses (o : Operator) (q : Query) : Prop := ∃ depth, q.UsesWithin o depth

namespace Placeholders

variable {quote : Option Char} {k n : Nat} {s t word : List Char}

theorem Reads.number_zero (h : Reads quote k s) (hk : k = 0) :
    number quote n s = number quote 0 s := by
  induction h generalizing n with
  | done => rfl
  | within hc _ ih => rw [number_within hc, number_within hc, ih hk]
  | close _ ih => rw [number_close, number_close, ih hk]
  | «open» hc _ ih => rw [number_open hc, number_open hc, ih hk]
  | mark _ ih => rw [number_mark, number_mark, ih hk]
  | placeholder => cases hk
  | other hq hm _ _ ih => rw [number_other hq hm, number_other hq hm, ih hk]

theorem isPlain_of_isBlank {c : Char} (hc : isBlank c) : isPlain c :=
  isPlain_of_class hc (by decide)

theorem isDigit_of_isBlank {c : Char} (hc : isBlank c) : isDigit c = false := by
  have hn : c.toNat < 48 ∨ 57 < c.toNat := by
    simp only [isBlank, Bool.or_eq_true, Bool.and_eq_true, decide_eq_true_eq, beq_iff_eq] at hc
    omega
  simp only [isDigit, Bool.and_eq_false_iff, decide_eq_false_iff_not, Char.le_def,
    UInt32.le_iff_toNat_le]
  exact hn.imp Nat.not_le_of_lt Nat.not_le_of_lt

theorem clear_of_blank (ht : t.all isBlank) : Clear t := by
  intro c hc
  have hb := List.all_eq_true.1 ht c (List.mem_of_mem_head? hc)
  exact ⟨ne_of_class hb (by decide), isDigit_of_isBlank hb⟩

theorem infix_of_infix_append_blank (hw : ∀ c ∈ word.getLast?, ¬ isBlank c) (ht : t.all isBlank)
    (h : word <:+: s ++ t) : word <:+: s := by
  obtain ⟨before, after, h⟩ := h
  rcases List.append_eq_append_iff.1 h with ⟨rest, hs, -⟩ | ⟨rest, hs, hr⟩
  · exact ⟨before, rest, hs.symm⟩
  · rcases List.eq_nil_or_concat rest with rfl | ⟨rest, c, rfl⟩
    · exact ⟨before, [], by simpa using hs⟩
    · rcases List.eq_nil_or_concat word with rfl | ⟨word, d, rfl⟩
      · exact List.nil_infix
      · have hcd : d = c := by simpa using congrArg List.getLast? hs
        have hb : isBlank c := List.all_eq_true.1 ht c (by simp [hr])
        exact absurd hb (hcd ▸ hw d (by simp))

end Placeholders

theorem Operator.getLast?_of_isKnown {o : Operator} (ho : o.isKnown) :
    ∀ c ∈ o.symbol.toList.getLast?, ¬ isBlank c := by
  have hall : known.all fun s ↦ s.toList.getLast?.all fun c ↦ !isBlank c := by
    decide
  have hs := List.all_eq_true.1 hall o.symbol (List.contains_iff_mem.1 ho)
  intro c hc
  rw [Option.mem_def.1 hc] at hs
  simpa using hs

namespace Sql

variable {o : Operator} {ps : List Piece} {s t : Sql} {n : Nat}

theorem number_infix {p : Piece} (hp : p ∈ ps) (n : Nat) :
    ∃ m, number none m p.written.toList <:+: numberedPieces n ps := by
  induction ps generalizing n with
  | nil => cases hp
  | cons q rest ih =>
    rcases List.mem_cons.1 hp with rfl | hp
    · exact ⟨n, (List.prefix_append _ _).isInfix⟩
    · obtain ⟨m, hm⟩ := ih hp (n + q.values.length)
      exact ⟨m, hm.trans (List.suffix_append _ _).isInfix⟩

theorem PiecesSound.reads_of_mem (h : PiecesSound ps) {p : Piece} (hp : p ∈ ps) :
    Reads none p.values.length p.written.toList := by
  induction ps with
  | nil => cases hp
  | cons q rest ih =>
    rcases List.mem_cons.1 hp with rfl | hp
    · exact h.1
    · exact ih h.2.2 hp

theorem spells_mapText {p : Piece} (ho : o.isKnown)
    (hp : Reads none p.values.length p.written.toList) (h : p.Spells o) :
    (p.mapText trimmedText).Spells o := by
  cases p with
  | text t =>
    change o.symbol.toList <:+: number none 0 (trimmedText t).toList
    obtain ⟨blanks, ht, hb⟩ : ∃ blanks, t.toList = Text.trimEnd t.toList ++ blanks ∧
        blanks.all isBlank :=
      ⟨_, List.rdropWhile_append_rtakeWhile.symm,
        List.all_eq_true.2 fun _ ↦ List.mem_rtakeWhile_imp⟩
    have hplain : blanks.all isPlain :=
      List.all_eq_true.2 fun c hc ↦ isPlain_of_isBlank (List.all_eq_true.1 hb c hc)
    have hr : Reads none 0 (Text.trimEnd t.toList) := hp.trimEnd .none
    have hn : number none 0 t.toList = number none 0 (Text.trimEnd t.toList) ++ blanks := by
      conv_lhs => rw [ht]
      rw [number_append hr fun _ ↦ clear_of_blank hb, (Quiet.of_plain hplain).number_eq]
    rw [trimmedText, String.toList_ofList]
    have hi : o.symbol.toList <:+: number none 0 t.toList := h
    rw [hn] at hi
    exact infix_of_infix_append_blank (o.getLast?_of_isKnown ho) hb hi
  | raw sql values => cases h
  | slot v => cases h

namespace Spells

theorem mono (h : s.Spells o) (hs : s.pieces ⊆ t.pieces) : t.Spells o := by
  obtain ⟨p, hp, h⟩ := h
  exact ⟨p, hs hp, h⟩

theorem of_text {text : String} (ht : Quiet none text.toList)
    (h : o.symbol.toList <:+: text.toList) : (text : Sql).Spells o := by
  refine ⟨.text text, List.mem_singleton_self _, ?_⟩
  rwa [Piece.Spells, ht.number_eq]

theorem append_left (h : s.Spells o) : (s ++ t).Spells o :=
  h.mono (List.subset_append_left ..)

theorem append_right (h : t.Spells o) : (s ++ t).Spells o :=
  h.mono (List.subset_append_right ..)

theorem enclosed (h : s.Spells o) : s.enclosed.Spells o :=
  h.append_right.append_left

theorem join (h : s.Spells o) {mark : String} {ss : List Sql} (hs : s ∈ ss) :
    (Sql.join mark ss).Spells o := by
  fun_induction Sql.join mark ss with
  | case1 => cases hs
  | case2 t => exact List.mem_singleton.1 hs ▸ h
  | case3 t t' rest ih =>
    rcases List.mem_cons.1 hs with rfl | hs
    · exact h.append_left.append_left
    · exact (ih hs).append_right

theorem join_parts (h : s.Spells o) (mark : String) {parts : List (Option Sql)}
    (hs : some s ∈ parts) : (Sql.join mark (parts.filterMap id)).Spells o :=
  h.join (List.mem_filterMap.2 ⟨some s, hs, rfl⟩)

theorem connect {t : Connective × Sql} (h : t.2.Spells o) {tests : List (Connective × Sql)}
    (ht : t ∈ tests) : (Grammar.connect tests).Spells o := by
  cases tests with
  | nil => cases ht
  | cons first rest =>
    rw [Grammar.connect]
    rcases List.mem_cons.1 ht with rfl | ht
    · exact h.append_left
    · refine Spells.append_right (h.mono fun p hp ↦ ?_)
      exact List.mem_flatMap.2 ⟨t, ht, List.mem_cons_of_mem _ hp⟩

theorem trimEnd (ho : o.isKnown) (hs : s.Sound) (h : s.Spells o) : s.trimEnd.Spells o := by
  obtain ⟨ps⟩ := s
  obtain ⟨p, hp, h⟩ := h
  have hsound : PiecesSound ps := hs
  change ∃ p ∈ trimEndPieces ps, p.Spells o
  clear hs
  change p ∈ ps at hp
  induction ps with
  | nil => cases hp
  | cons q rest ih =>
    rcases List.mem_cons.1 hp with rfl | hp
    · rcases trimEndPieces_cons p rest with he | ⟨-, he⟩
      · exact ⟨p, he ▸ List.mem_cons_self, h⟩
      · exact ⟨_, he ▸ List.mem_cons_self, spells_mapText ho hsound.1 h⟩
    · obtain ⟨p', hp', h'⟩ := ih hsound.2.2 hp
      refine ⟨p', ?_, h'⟩
      rcases trimEndPieces_cons q rest with he | ⟨-, he⟩
      · exact he ▸ List.mem_cons_of_mem _ hp'
      · exact he ▸ List.mem_cons_of_mem _ hp'

theorem numbered (hs : s.Sound) (h : s.Spells o) :
    o.symbol.toList <:+: (numberedPlaceholders s.text).toList := by
  obtain ⟨p, hp, h⟩ := h
  obtain ⟨m, hm⟩ := number_infix hp 0
  rw [numberedPlaceholders, String.toList_ofList, toList_text, PiecesSound.number_letters hs]
  cases p with
  | text t =>
    have hr : Reads none 0 t.toList := PiecesSound.reads_of_mem hs hp
    have ht : number none m t.toList = number none 0 t.toList := hr.number_zero rfl
    exact (h.trans (ht ▸ List.infix_rfl)).trans hm
  | raw sql values => cases h
  | slot v => cases h

end Spells

end Sql

namespace Grammar

variable {g : Grammar} {o : Operator} {s : Sql} {c : Clauses} {column : String}
  {value : Operand Value}

theorem spells_sql (ho : o.isUnmarked) : o.sql.Spells o := by
  have hk : o.isKnown := (Bool.and_eq_true_iff.1 ho).1
  rw [Operator.sql_of_isKnown hk]
  exact .of_text (o.quiet_of_isUnmarked ho) List.infix_rfl

section

variable {embedded : Sql → Prop} (he : ∀ sql, embedded sql → sql.Spells o)

include he

theorem spells_reference {r : Reference} (h : g.reference r = .ok s) (hr : r.Writes embedded) :
    s.Spells o := by
  cases r with
  | name n => cases hr
  | fragment sql =>
    cases h
    exact he _ hr

theorem spells_tableReference {r : Reference} (hr : r.Writes embedded) :
    (g.tableReference r).Spells o := by
  cases r with
  | name n => cases hr
  | fragment sql => exact he _ hr

theorem spells_references {rs : List Reference} {r : Reference} (hm : r ∈ rs)
    (hr : r.Writes embedded) (h : g.references rs = .ok s) : s.Spells o := by
  simp only [references, bind_eq_ok, pure_eq_ok] at h
  obtain ⟨ss, hss, rfl⟩ := h
  obtain ⟨t, ht, hrt⟩ := exists_mem_of_mapM hss hm
  exact (spells_reference he hrt hr).join ht

theorem spells_columnClause {r : Reference} (hm : r ∈ c.columns.getD []) (hr : r.Writes embedded)
    (h : g.columnClause c = .ok s) : s.Spells o := by
  rw [columnClause] at h
  dsimp only at h
  split at h
  · rename_i r' rs hcs
    rw [hcs] at hm
    obtain ⟨columns, hcolumns, h⟩ := bind_eq_ok.1 h
    cases pure_eq_ok.1 h
    exact (spells_references he hm hr hcolumns).append_right
  · rename_i hne
    cases hcs : c.columns with
    | none =>
      rw [hcs] at hm
      cases hm
    | some rs =>
      rw [hcs] at hm
      cases rs with
      | nil => cases hm
      | cons r' rs => exact absurd hcs (hne r' rs)

theorem spells_orderText {order : Order} (hr : order.Writes embedded)
    (h : g.orderText order = .ok s) : s.Spells o := by
  cases order with
  | column c direction =>
    simp only [orderText, bind_eq_ok, pure_eq_ok] at h
    obtain ⟨t, ht, rfl⟩ := h
    exact (spells_reference he ht hr).append_left.append_left
  | raw sql =>
    cases h
    exact he _ hr

theorem spells_orderClause? {orders : List Order} {order : Order} (hm : order ∈ orders)
    (hr : order.Writes embedded) {part : Option Sql} (h : g.orderClause? orders = .ok part) :
    ∃ s, part = some s ∧ s.Spells o := by
  simp only [orderClause?] at h
  split at h
  · rename_i he
    cases List.isEmpty_iff.1 he
    cases hm
  · simp only [orderClause, map_eq_ok, bind_eq_ok, pure_eq_ok] at h
    obtain ⟨_, ⟨ss, hss, rfl⟩, rfl⟩ := h
    obtain ⟨t, ht, hrt⟩ := exists_mem_of_mapM hss hm
    exact ⟨_, rfl, ((spells_orderText he hr hrt).join ht).append_right⟩

end

theorem spells_havingTest {t : HavingTest} (ht : t.Neat) (hu : t.Writes o)
    (h : g.havingTest t = .ok s) : s.Spells o := by
  cases t with
  | basic column operator value =>
    cases hu
    simp only [havingTest, bind_eq_ok, pure_eq_ok] at h
    obtain ⟨c, hc, rfl⟩ := h
    exact (spells_sql ht.1).append_right.append_left.append_left
  | raw sql => cases hu
  | null column negated => cases hu
  | between column low high => cases hu

theorem spells_havingClause {havings : List Having} {t : Having} (hm : t ∈ havings)
    (ht : t.test.Neat) (hu : t.test.Writes o) (h : g.havingClause havings = .ok s) :
    s.Spells o := by
  simp only [havingClause, bind_eq_ok, pure_eq_ok] at h
  obtain ⟨tests, htests, rfl⟩ := h
  obtain ⟨t', hm', h⟩ := exists_mem_of_mapM htests hm
  simp only [bind_eq_ok, pure_eq_ok] at h
  obtain ⟨s, hs, rfl⟩ := h
  exact ((spells_havingTest ht hu hs).connect hm').append_right

theorem spells_conditionClause? {tests : List (Connective × Sql)} {t : Connective × Sql}
    (ht : t ∈ tests) (h : t.2.Spells o) :
    ∃ s, c.conditionClause? tests = some s ∧ s.Spells o := by
  unfold Clauses.conditionClause?
  split
  · rename_i he
    cases List.isEmpty_iff.1 he
    cases ht
  · exact ⟨_, rfl, (h.connect ht).append_right⟩

variable (hg : g.dialect = .postgres)

include hg

theorem spells_comparisonSymbol (ho : o.isKnown) : (g.comparisonSymbol o : Sql).Spells o := by
  rw [comparisonSymbol, hg]
  change (o.spelled _).Spells o
  rw [Operator.spelled, if_pos ho]
  refine ⟨_, List.mem_singleton_self _, ?_⟩
  rw [Piece.Spells, String.toList_ofList,
    number_double fun c hc ↦ (o.not_isQuote_of_isKnown ho c hc).1]

theorem spells_basicTest (ho : o.isKnown) (h : g.basicTest column o value = .ok s) :
    s.Spells o := by
  simp only [basicTest, bind_eq_ok] at h
  obtain ⟨c, hc, h⟩ := h
  split at h
  · rename_i hl
    cases pure_eq_ok.1 h
    have hs := spells_sql (o.isUnmarked_of_isLike hl.2)
    exact hs.append_right.append_left.append_left
  · cases pure_eq_ok.1 h
    exact (spells_comparisonSymbol hg ho).append_right.append_left.append_left

theorem spells_jsonBooleanTest {value : Bool} (ho : o.isUnmarked)
    (h : g.jsonBooleanTest column o value = .ok s) : s.Spells o := by
  rw [jsonBooleanTest, hg] at h
  cases pure_eq_ok.1 h
  exact (spells_sql ho).append_right.append_left.append_left

theorem spells_datePartTest {part : DatePart} (ho : o.isUnmarked)
    (h : g.datePartTest part column o value = .ok s) : s.Spells o := by
  simp only [datePartTest, bind_eq_ok, pure_eq_ok] at h
  obtain ⟨c, hc, rfl⟩ := h
  rw [hg]
  cases part <;> exact (spells_sql ho).append_right.append_left.append_left

theorem spells_jsonLengthTest (ho : o.isUnmarked) (h : g.jsonLengthTest column o value = .ok s) :
    s.Spells o := by
  rw [jsonLengthTest, hg] at h
  simp only [bind_eq_ok, pure_eq_ok] at h
  obtain ⟨c, hc, _, rfl, rfl⟩ := h
  exact (spells_sql ho).append_right.append_left.append_left

omit hg

theorem spells_columnTest {second : String} (ho : o.isUnmarked)
    (h : g.columnTest column o second = .ok s) : s.Spells o := by
  simp only [columnTest, bind_eq_ok, pure_eq_ok] at h
  obtain ⟨a, -, b, -, rfl⟩ := h
  exact (spells_sql ho).append_right.append_left.append_left

theorem spells_rowValuesTest {columns : List String} {values : List (Operand Value)}
    (ho : o.isUnmarked) (h : g.rowValuesTest columns o values = .ok s) : s.Spells o := by
  simp only [rowValuesTest, bind_eq_ok, pure_eq_ok] at h
  obtain ⟨t, ht, rfl⟩ := h
  exact (spells_sql ho).append_right.append_left.append_left.append_left

theorem spells_unionMember (hg : g.dialect = .postgres) (h : s.Spells o) :
    (g.unionMember s).Spells o := by
  rw [unionMember, hg]
  exact h.enclosed

/-- Blanks are cut off behind a join, but no operator ends in one. -/
theorem spells_joinText (hg : g.dialect = .postgres) (ho : o.isKnown) {embedded : Sql → Prop}
    (he : ∀ sql, embedded sql → sql.Spells o) {kind : JoinKind} {table : Reference} {e : Embedded}
    (ht : table.Neat) (hj : ∀ s ∈ e.joins, s.Sound)
    (hc : ∀ t ∈ e.conditions, t.2.Sound)
    (h : table.Writes embedded ∨ (∃ s ∈ e.joins, s.Spells o) ∨ ∃ t ∈ e.conditions, t.2.Spells o) :
    (g.joinText kind table c e).Spells o := by
  have hs := sound_untrimmed kind (sound_joined hg ht hj) (sound_conditions (c := c) hc)
  refine Sql.Spells.trimEnd ho hs ?_
  rcases h with h | ⟨s, hs, h⟩ | ⟨t, ht, h⟩
  · refine Sql.Spells.append_left (Sql.Spells.append_left (Sql.Spells.append_right ?_))
    have htable : (g.tableReference table).Spells o := spells_tableReference he h
    split
    · exact htable
    · exact htable.append_left.append_left.enclosed
  · refine Sql.Spells.append_left (Sql.Spells.append_left (Sql.Spells.append_right ?_))
    rw [if_neg fun hn ↦ List.ne_nil_of_mem hs (List.isEmpty_iff.1 hn)]
    exact (h.join hs).append_right.enclosed
  · obtain ⟨s, hs, h⟩ := spells_conditionClause? (c := c) ht h
    rw [hs]
    exact h.append_right

end Grammar

inductive Embedded.Spells (o : Operator) (e : Embedded) : Prop
  | join (s : Sql) (hs : s ∈ e.joins) (h : s.Spells o)
  | condition (t : Connective × Sql) (ht : t ∈ e.conditions) (h : t.2.Spells o)
  | union (s : Sql) (hs : s ∈ e.unions) (h : s.Spells o)

namespace Clauses

open Grammar

variable {g : Grammar} {o : Operator} {c : Clauses} {e : Embedded} {s : Sql}

variable {embedded : Sql → Prop} (he : ∀ sql, embedded sql → sql.Spells o)

include he

theorem spells_middle (hn : c.Neat) {parts : List (Option Sql)} (h : c.middle g e = .ok parts)
    (hu : (∃ r ∈ c.source, r.Writes embedded) ∨ (∃ r ∈ c.groups, r.Writes embedded) ∨
      (∃ t ∈ c.havings, t.test.Writes o) ∨ (∃ s ∈ e.joins, s.Spells o) ∨
      ∃ t ∈ e.conditions, t.2.Spells o) :
    ∃ s, some s ∈ parts ∧ s.Spells o := by
  simp only [middle, bind_eq_ok, pure_eq_ok] at h
  obtain ⟨groups, hgroups, havings, hhavings, rfl⟩ := h
  rcases hu with ⟨r, hr, hu⟩ | ⟨r, hr, hu⟩ | ⟨t, ht, hu⟩ | ⟨s, hs, hu⟩ | ⟨t, ht, hu⟩
  · have hs : (g.sourceClause c r).Spells o :=
      (spells_tableReference he hu).append_right.append_left
    exact ⟨g.sourceClause c r, by simp [Option.mem_def.1 hr], hs⟩
  · simp only [groupClause?] at hgroups
    rw [if_neg fun hn ↦ List.ne_nil_of_mem hr (List.isEmpty_iff.1 hn)] at hgroups
    obtain ⟨s, hs, rfl⟩ := map_eq_ok.1 hgroups
    refine ⟨("group by " : Sql) ++ s, by simp, (spells_references he hr hu hs).append_right⟩
  · simp only [havingClause?] at hhavings
    rw [if_neg fun hn ↦ List.ne_nil_of_mem ht (List.isEmpty_iff.1 hn)] at hhavings
    obtain ⟨s, hs, rfl⟩ := map_eq_ok.1 hhavings
    exact ⟨s, by simp, spells_havingClause ht (hn.havings t ht) hu hs⟩
  · rw [if_neg fun hn ↦ List.ne_nil_of_mem hs (List.isEmpty_iff.1 hn)]
    exact ⟨.join " " e.joins, by simp, hu.join hs⟩
  · obtain ⟨s, hs, hu⟩ := spells_conditionClause? (c := c) ht hu
    exact ⟨s, by simp [hs], hu⟩

theorem spells_unionTail (h : c.unionTail g e = .ok s)
    (hu : (∃ order ∈ c.unionOrders, order.Writes embedded) ∨ ∃ s ∈ e.unions, s.Spells o) :
    s.Spells o := by
  simp only [unionTail, bind_eq_ok, pure_eq_ok] at h
  obtain ⟨orders, horders, rfl⟩ := h
  rcases hu with ⟨order, hm, hu⟩ | ⟨s, hs, hu⟩
  · obtain ⟨s, rfl, hs⟩ := spells_orderClause? he hm hu horders
    refine hs.join (List.mem_append_right _ ?_)
    exact List.mem_filterMap.2 ⟨some s, List.mem_cons_self, rfl⟩
  · exact hu.join (List.mem_append_left _ hs)

theorem spells_part (hn : c.Neat) {columns : Sql} {middle : List (Option Sql)}
    {orders : Option Sql} (hcolumns : g.columnClause c = .ok columns)
    (hmiddle : c.middle g e = .ok middle) (horders : g.orderClause? c.orders = .ok orders)
    (hu : c.Writes o embedded ∨ (∃ s ∈ e.joins, s.Spells o) ∨ ∃ t ∈ e.conditions, t.2.Spells o)
    (windows : List (Option Sql)) :
    ∃ s, some s ∈ some columns :: middle ++ orders :: windows ∧ s.Spells o := by
  have hinner (hu : (∃ r ∈ c.source, r.Writes embedded) ∨ (∃ r ∈ c.groups, r.Writes embedded) ∨
      (∃ t ∈ c.havings, t.test.Writes o) ∨ (∃ s ∈ e.joins, s.Spells o) ∨
      ∃ t ∈ e.conditions, t.2.Spells o) :
      ∃ s, some s ∈ some columns :: middle ++ orders :: windows ∧ s.Spells o := by
    obtain ⟨s, hs, h⟩ := spells_middle he hn hmiddle hu
    exact ⟨s, List.mem_append_left _ (List.mem_cons_of_mem _ hs), h⟩
  rcases hu with hu | hu
  · cases hu with
    | column r hr h => exact ⟨columns, by simp, spells_columnClause he hr h hcolumns⟩
    | source r hr h => exact hinner (.inl ⟨r, hr, h⟩)
    | group r hr h => exact hinner (.inr (.inl ⟨r, hr, h⟩))
    | having t ht h => exact hinner (.inr (.inr (.inl ⟨t, ht, h⟩)))
    | order r hr h =>
      obtain ⟨s, rfl, hs⟩ := spells_orderClause? he hr h horders
      exact ⟨s, by simp, hs⟩
  · exact hinner (.inr (.inr (.inr hu)))

theorem spells_plain (hg : g.dialect = .postgres) (hn : c.Neat) (h : c.plain g e = .ok s)
    (hu : c.Writes o embedded ∨
      (e.unions ≠ [] ∧ ∃ order ∈ c.unionOrders, order.Writes embedded) ∨ e.Spells o) :
    s.Spells o := by
  have hs : ¬ (g.dialect = .sqlServer ∧ Query.skipsRows c) := by simp [hg]
  simp only [plain, hn.aggregate, hs, false_and, if_false, bind_eq_ok] at h
  obtain ⟨columns, hcolumns, middle, hmiddle, orders, horders, h⟩ := h
  -- The operator stands in front of the unions or behind them.
  have hsplit : (c.Writes o embedded ∨ (∃ s ∈ e.joins, s.Spells o) ∨
      ∃ t ∈ e.conditions, t.2.Spells o) ∨
      e.unions ≠ [] ∧
        ((∃ order ∈ c.unionOrders, order.Writes embedded) ∨ ∃ s ∈ e.unions, s.Spells o) := by
    rcases hu with hu | ⟨hne, hu⟩ | ⟨s, hs, h⟩ | ⟨t, ht, h⟩ | ⟨s, hs, h⟩
    · exact .inl (.inl hu)
    · exact .inr ⟨hne, .inl hu⟩
    · exact .inl (.inr (.inl ⟨s, hs, h⟩))
    · exact .inl (.inr (.inr ⟨t, ht, h⟩))
    · exact .inr ⟨List.ne_nil_of_mem hs, .inr ⟨s, hs, h⟩⟩
  rcases hsplit with hu | ⟨hne, hu⟩
  · obtain ⟨part, hp, hu⟩ := spells_part he hn hcolumns hmiddle horders hu
      [g.limitClause? c.limit, g.offsetClause? c.offset, c.lock.bind g.lockClause?]
    have hbody := hu.join_parts " " hp
    split at h
    · cases pure_eq_ok.1 h
      exact hbody
    · simp only [bind_eq_ok, pure_eq_ok] at h
      obtain ⟨tail, htail, rfl⟩ := h
      exact (spells_unionMember hg hbody).append_left.append_left
  · rw [if_neg fun he ↦ hne (List.isEmpty_iff.1 he)] at h
    simp only [bind_eq_ok, pure_eq_ok] at h
    obtain ⟨tail, htail, rfl⟩ := h
    exact (spells_unionTail he htail hu).append_right

theorem spells_assemble (hg : g.dialect = .postgres) (hn : c.Neat) (h : c.assemble g e = .ok s)
    (hu : c.Writes o embedded ∨
      (e.unions ≠ [] ∧ ∃ order ∈ c.unionOrders, order.Writes embedded) ∨ e.Spells o) :
    s.Spells o := by
  rw [assemble, hn.aggregate] at h
  exact spells_plain he hg hn h hu

end Clauses

namespace Grammar

variable {g : Grammar} {o : Operator} {embedded : Sql → Prop}

theorem ne_nil_of_memberList {members : List (Member Query)} {ss : List Sql}
    (h : g.memberList members = .ok ss) (hm : members ≠ []) : ss ≠ [] := by
  rw [memberList_eq_mapM] at h
  cases members with
  | nil => exact absurd rfl hm
  | cons member rest =>
    obtain ⟨s, hs, -⟩ := exists_mem_of_mapM h List.mem_cons_self
    exact List.ne_nil_of_mem hs

mutual

/-- An operator that a query uses anywhere stands in its text. -/
theorem spells_select (hg : g.dialect = .postgres) (ho : o.isKnown)
    (he : ∀ sql, embedded sql → sql.Spells o) :
    ∀ q : Query, q.Neat → q.Writes o embedded → ∀ s, g.select q = .ok s → s.Spells o
  | ⟨c, joins, conditions, unions⟩, ⟨hn, hj, hc, hu⟩, huse, s, h => by
    simp only [select, bind_eq_ok] at h
    obtain ⟨_, -, js, hjs, cs, hcs, us, hus, h⟩ := h
    refine Clauses.spells_assemble he hg hn h ?_
    rcases huse with huse | ⟨hne, huse⟩ | huse | huse | huse
    · exact .inl huse
    · exact .inr (.inl ⟨ne_nil_of_memberList hus hne, huse⟩)
    · obtain ⟨s, hs, h⟩ := spells_joinList hg ho he joins hj huse js hjs
      exact .inr (.inr (.join s hs h))
    · obtain ⟨t, ht, h⟩ := spells_conditionList hg ho he conditions hc huse cs hcs
      exact .inr (.inr (.condition t ht h))
    · obtain ⟨s, hs, h⟩ := spells_memberList hg ho he unions hu huse us hus
      exact .inr (.inr (.union s hs h))

theorem spells_joinList (hg : g.dialect = .postgres) (ho : o.isKnown)
    (he : ∀ sql, embedded sql → sql.Spells o) :
    ∀ joins, joinsNeat joins → joinsWrite o embedded joins → ∀ ss, g.joinList joins = .ok ss →
      ∃ s ∈ ss, s.Spells o
  | [], _, huse, _, _ => huse.elim
  | ⟨kind, table, ⟨c, joins, conditions, _⟩⟩ :: rest, ⟨ht, ⟨_, hj, hc, _⟩, hr⟩, huse, ss, h => by
    simp only [joinList, bind_eq_ok, pure_eq_ok] at h
    obtain ⟨js, hjs, cs, hcs, ss, hss, rfl⟩ := h
    have hfirst (h : table.Writes embedded ∨ (∃ s ∈ js, s.Spells o) ∨ ∃ t ∈ cs, t.2.Spells o) :
        (g.joinText kind table c ⟨js, cs, []⟩).Spells o :=
      spells_joinText hg ho he ht (sound_joinList hg joins hj js hjs)
        (sound_conditionList hg conditions hc cs hcs) h
    rcases huse with huse | huse | huse | huse
    · exact ⟨_, List.mem_cons_self, hfirst (.inl huse)⟩
    · have hu := spells_joinList hg ho he joins hj huse js hjs
      exact ⟨_, List.mem_cons_self, hfirst (.inr (.inl hu))⟩
    · have hu := spells_conditionList hg ho he conditions hc huse cs hcs
      exact ⟨_, List.mem_cons_self, hfirst (.inr (.inr hu))⟩
    · obtain ⟨s, hs, h⟩ := spells_joinList hg ho he rest hr huse ss hss
      exact ⟨s, List.mem_cons_of_mem _ hs, h⟩

theorem spells_conditionList (hg : g.dialect = .postgres) (ho : o.isKnown)
    (he : ∀ sql, embedded sql → sql.Spells o) :
    ∀ conditions, conditionsNeat conditions → conditionsWrite o embedded conditions →
    ∀ ts, g.conditionList conditions = .ok ts → ∃ t ∈ ts, t.2.Spells o
  | [], _, huse, _, _ => huse.elim
  | ⟨_, t⟩ :: rest, ⟨ht, hr⟩, huse, ts, h => by
    simp only [conditionList, bind_eq_ok, pure_eq_ok] at h
    obtain ⟨s, hs, ts, hts, rfl⟩ := h
    rcases huse with huse | huse
    · exact ⟨_, List.mem_cons_self, spells_test hg ho he t ht huse s hs⟩
    · obtain ⟨t', ht', h⟩ := spells_conditionList hg ho he rest hr huse ts hts
      exact ⟨t', List.mem_cons_of_mem _ ht', h⟩

theorem spells_memberList (hg : g.dialect = .postgres) (ho : o.isKnown)
    (he : ∀ sql, embedded sql → sql.Spells o) :
    ∀ members, membersNeat members → membersWrite o embedded members →
    ∀ ss, g.memberList members = .ok ss → ∃ s ∈ ss, s.Spells o
  | [], _, huse, _, _ => huse.elim
  | ⟨query, all⟩ :: rest, ⟨hq, hr⟩, huse, ss, h => by
    simp only [memberList, bind_eq_ok, pure_eq_ok] at h
    obtain ⟨s, hs, ss, hss, rfl⟩ := h
    rcases huse with huse | huse
    · have hmember := spells_unionMember hg (spells_select hg ho he query hq huse s hs)
      exact ⟨_, List.mem_cons_self, hmember.append_right⟩
    · obtain ⟨s', hs', h⟩ := spells_memberList hg ho he rest hr huse ss hss
      exact ⟨s', List.mem_cons_of_mem _ hs', h⟩

theorem spells_test (hg : g.dialect = .postgres) (ho : o.isKnown)
    (he : ∀ sql, embedded sql → sql.Spells o) :
    ∀ t : Test Query, t.Neat → t.Writes o embedded → ∀ s, g.test t = .ok s → s.Spells o
  | .isInQuery column query negated, hq, huse, s, h => by
    simp only [test, bind_eq_ok, pure_eq_ok] at h
    obtain ⟨c, hc, sql, hsql, rfl⟩ := h
    exact (spells_select hg ho he query hq huse sql hsql).enclosed.append_right
  | .nested ⟨_, _, conditions, _⟩, ⟨_, _, hc, _⟩, huse, s, h => by
    simp only [test, bind_eq_ok, pure_eq_ok] at h
    obtain ⟨ts, hts, rfl⟩ := h
    obtain ⟨t, ht, h⟩ := spells_conditionList hg ho he conditions hc huse ts hts
    exact (h.connect ht).enclosed
  | .query column operator query, ⟨hn, hq⟩, huse, s, h => by
    simp only [test, bind_eq_ok, pure_eq_ok] at h
    obtain ⟨c, hc, sql, hsql, rfl⟩ := h
    rcases huse with rfl | huse
    · exact (spells_sql hn).append_right.append_left.append_left
    · exact (spells_select hg ho he query hq huse sql hsql).enclosed.append_right
  | .existence query negated, hq, huse, s, h => by
    simp only [test, bind_eq_ok, pure_eq_ok] at h
    obtain ⟨sql, hsql, rfl⟩ := h
    exact (spells_select hg ho he query hq huse sql hsql).enclosed.append_right
  | .basic .., ⟨hk, _⟩, huse, s, h => by
    cases huse
    exact spells_basicTest hg hk h
  | .jsonBoolean .., hn, huse, s, h => by
    cases huse
    exact spells_jsonBooleanTest hg hn h
  | .columns .., hn, huse, s, h => by
    cases huse
    exact spells_columnTest hn h
  | .raw .., _, huse, _, _ => huse.elim
  | .isIn .., _, huse, _, _ => huse.elim
  | .isInIntegers .., _, huse, _, _ => huse.elim
  | .null .., _, huse, _, _ => huse.elim
  | .between .., _, huse, _, _ => huse.elim
  | .betweenColumns .., _, huse, _, _ => huse.elim
  | .datePart .., ⟨hn, _⟩, huse, s, h => by
    cases huse
    exact spells_datePartTest hg hn h
  | .rowValues .., ⟨hn, _⟩, huse, s, h => by
    cases huse
    exact spells_rowValuesTest hn h
  | .jsonContains .., _, huse, _, _ => huse.elim
  | .jsonLength .., ⟨hn, _⟩, huse, s, h => by
    cases huse
    exact spells_jsonLengthTest hg hn h

end

end Grammar

/-- An operator that a query uses stands in its text. -/
theorem spells_of_usesWithin {o : Operator} (ho : o.isKnown) (depth : Nat) :
    ∀ (g : Grammar) (q : Query), g.dialect = .postgres → q.Neat → q.UsesWithin o depth →
      ∀ s, g.select q = .ok s → s.Spells o := by
  induction depth with
  | zero =>
    intro g q hg hq hu s hs
    exact g.spells_select hg ho (fun _ h ↦ h.elim) q hq hu s hs
  | succ depth ih =>
    intro g q hg hq hu s hs
    refine g.spells_select hg ho ?_ q hq hu s hs
    rintro sql ⟨inner, text, hn, ht, hp, hi⟩
    exact (ih q.grammar inner (Query.neat_iff.1 hq).1.dialect hn hi text ht).mono hp

end FluentSql
