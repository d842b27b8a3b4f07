import FluentSql.Proofs.Numbering.Written

namespace FluentSql

open Text Placeholders

structure Clauses.Neat (c : Clauses) : Prop where
  dialect : c.grammar.dialect = .postgres
  aggregate : c.aggregate = none
  columns : ∀ r ∈ c.columns.getD [], r.Neat
  source : ∀ r ∈ c.source, r.Neat
  groups : ∀ r ∈ c.groups, r.Neat
  havings : ∀ h ∈ c.havings, h.test.Neat
  orders : ∀ o ∈ c.orders, o.Neat
  unionOrders : ∀ o ∈ c.unionOrders, o.Neat
  lock : ∀ l ∈ c.lock, l.Neat

mutual

def Query.Neat : Query → Prop
  | ⟨c, joins, conditions, unions⟩ =>
    c.Neat ∧ joinsNeat joins ∧ conditionsNeat conditions ∧ membersNeat unions

def joinsNeat : List (Join Query) → Prop
  | [] => True
  | ⟨_, table, clause⟩ :: rest => table.Neat ∧ clause.Neat ∧ joinsNeat rest

def conditionsNeat : List (Condition Query) → Prop
  | [] => True
  | ⟨_, t⟩ :: rest => t.Neat ∧ conditionsNeat rest

def membersNeat : List (Member Query) → Prop
  | [] => True
  | ⟨query, _⟩ :: rest => query.Neat ∧ membersNeat rest

def Test.Neat : Test Query → Prop
  | .basic _ o value => o.isKnown ∧ value.Neat
  | .jsonBoolean _ o _ => o.isUnmarked
  | .columns _ o _ => o.isUnmarked
  | .raw sql => sql.Sound
  | .isIn _ values _ => ∀ v ∈ values, v.Neat
  | .isInQuery _ query _ => query.Neat
  | .isInIntegers .. => True
  | .null .. => True
  | .between _ low high _ => low.Neat ∧ high.Neat
  | .betweenColumns .. => True
  | .datePart _ _ o value => o.isUnmarked ∧ value.Neat
  | .nested query => query.Neat
  | .query _ o query => o.isUnmarked ∧ query.Neat
  | .existence query _ => query.Neat
  | .rowValues _ o values => o.isUnmarked ∧ ∀ v ∈ values, v.Neat
  | .jsonContains .. => True
  | .jsonLength _ o value => o.isUnmarked ∧ value.Neat

end

theorem Query.neat_iff {q : Query} : q.Neat ↔
    q.toClauses.Neat ∧ joinsNeat q.joins ∧ conditionsNeat q.conditions ∧ membersNeat q.unions := by
  obtain ⟨c, joins, conditions, unions⟩ := q
  rfl

namespace Grammar

variable {g : Grammar} {c : Clauses} {s : Sql} (hg : g.dialect = .postgres)

include hg

theorem sound_reference {r : Reference} (hr : r.Neat) (h : g.reference r = .ok s) : s.Sound := by
  cases r with
  | name n =>
    simp only [reference, bind_eq_ok, pure_eq_ok] at h
    obtain ⟨t, ht, rfl⟩ := h
    exact sound_wrap hg ht
  | fragment sql =>
    cases h
    exact hr

theorem sound_tableReference {r : Reference} (hr : r.Neat) : (g.tableReference r).Sound := by
  cases r with
  | name n => exact .of_text (quiet_wrapTable hg n)
  | fragment sql => exact hr

theorem sound_references {rs : List Reference} (hr : ∀ r ∈ rs, r.Neat)
    (h : g.references rs = .ok s) : s.Sound := by
  simp only [references, bind_eq_ok, pure_eq_ok] at h
  obtain ⟨ss, hss, rfl⟩ := h
  refine .join (by decide) fun s hs ↦ ?_
  obtain ⟨r, hm, hr'⟩ := exists_of_mem_mapM hss hs
  exact sound_reference hg (hr r hm) hr'

theorem sound_columnClause (hc : ∀ r ∈ c.columns.getD [], r.Neat) (h : g.columnClause c = .ok s) :
    s.Sound := by
  have hverb : Quiet none (if c.distinct then "select distinct " else "select ").toList := by
    split <;> exact .of_plain (by decide)
  have htop : Quiet none (g.top c).toList := by
    have ht : g.top c = "" := by simp [top, hg]
    exact ht ▸ .of_plain (by decide)
  have hclause (columns : Sql) (hs : columns.Sound) :
      (((if c.distinct then "select distinct " else "select " : String) : Sql) ++ g.top c ++
        columns).Sound := by
    rw [Sql.append_assoc]
    exact .prefixed hverb (.prefixed htop hs)
  rw [columnClause] at h
  dsimp only at h
  split at h
  · rename_i r rs hcs
    obtain ⟨columns, hcolumns, h⟩ := bind_eq_ok.1 h
    cases pure_eq_ok.1 h
    refine hclause columns (sound_references hg (fun r hr ↦ hc r ?_) hcolumns)
    rwa [hcs]
  · cases pure_eq_ok.1 h
    exact hclause _ (.of_text (.of_plain (by decide)))

theorem sound_sourceClause {r : Reference} (hr : r.Neat) : (g.sourceClause c r).Sound := by
  have hl : g.lockHint c.lock = .empty := by
    simp [lockHint, hg]
  rw [sourceClause, hl, Sql.append_empty]
  exact .prefixed (.of_plain (by decide)) (sound_tableReference hg hr)

theorem sound_havingTest {t : HavingTest} (ht : t.Neat) (h : g.havingTest t = .ok s) : s.Sound := by
  cases t with
  | basic column o value =>
    simp only [havingTest, bind_eq_ok, pure_eq_ok] at h
    obtain ⟨c, hc, rfl⟩ := h
    exact ((sound_wrap hg hc).joined (by decide) (o.sound_sql ht.1)).joined (by decide) ht.2
  | raw sql =>
    cases h
    exact ht
  | null column negated =>
    simp only [havingTest, bind_eq_ok, pure_eq_ok] at h
    obtain ⟨c, hc, rfl⟩ := h
    have hnull := ((quiet_wrap hg hc).concat (.of_plain (s := " is ".toList) (by decide))).concat
      (quiet_negation negated)
    exact .of_text (hnull.concat (.of_plain (by decide)))
  | between column low high => exact sound_betweenTest hg ht.1 ht.2 h

theorem sound_havingClause {havings : List Having} (hh : ∀ h ∈ havings, h.test.Neat)
    (h : g.havingClause havings = .ok s) : s.Sound := by
  simp only [havingClause, bind_eq_ok, pure_eq_ok] at h
  obtain ⟨tests, htests, rfl⟩ := h
  refine .prefixed (.of_plain (by decide)) (sound_connect fun t ht ↦ ?_)
  obtain ⟨having, hm, h⟩ := exists_of_mem_mapM htests ht
  simp only [bind_eq_ok, pure_eq_ok] at h
  obtain ⟨s, hs, rfl⟩ := h
  exact sound_havingTest hg (hh having hm) hs

theorem sound_orderText {o : Order} (ho : o.Neat) (h : g.orderText o = .ok s) : s.Sound := by
  cases o with
  | column c direction =>
    simp only [orderText, bind_eq_ok, pure_eq_ok] at h
    obtain ⟨t, ht, rfl⟩ := h
    have hd : (direction.word : Sql).Sound := by
      cases direction <;> exact .of_text (.of_plain (by decide))
    exact (sound_reference hg ho ht).joined (by decide) hd
  | raw sql =>
    cases h
    exact ho

theorem sound_orderClause? {orders : List Order} (ho : ∀ o ∈ orders, o.Neat) {part : Option Sql}
    (h : g.orderClause? orders = .ok part) : Sql.PartSound part := by
  simp only [orderClause?] at h
  split at h
  · cases h
    exact .none
  · simp only [orderClause, map_eq_ok, bind_eq_ok, pure_eq_ok] at h
    obtain ⟨_, ⟨ss, hss, rfl⟩, rfl⟩ := h
    refine .some (.prefixed (.of_plain (by decide)) (.join (by decide) fun s hs ↦ ?_))
    obtain ⟨o, hm, h⟩ := exists_of_mem_mapM hss hs
    exact sound_orderText hg (ho o hm) h

omit hg

theorem sound_limitClause? (limit : Option Nat) : Sql.PartSound (g.limitClause? limit) := by
  unfold limitClause?
  cases limit with
  | none => split <;> exact .none
  | some n =>
    split
    · exact .none
    · exact .some (.of_text (.concat (.of_plain (by decide)) (.natural n)))

theorem sound_offsetClause? (offset : Option Nat) : Sql.PartSound (g.offsetClause? offset) := by
  unfold offsetClause?
  cases offset with
  | none => split <;> exact .none
  | some n =>
    split
    · exact .none
    · exact .some (.of_text (.concat (.of_plain (by decide)) (.natural n)))

theorem sound_lockClause? {lock : Option Lock} (hl : ∀ l ∈ lock, l.Neat) :
    Sql.PartSound (lock.bind g.lockClause?) := by
  cases lock with
  | none => exact .none
  | some l =>
    rw [Option.bind_some]
    cases l with
    | raw sql =>
      rw [lockClause?]
      split
      · exact .none
      · exact .some (.raw (hl _ rfl))
    | update =>
      rw [lockClause?]
      split
      · exact .some (.of_text (.of_plain (by decide)))
      · exact .none
    | shared =>
      rw [lockClause?]
      repeat' split
      · exact .some (.of_text (.of_plain (by decide)))
      · exact .some (.of_text (.of_plain (by decide)))
      · exact .none

theorem sound_conditionClause? {tests : List (Connective × Sql)} (h : ∀ t ∈ tests, t.2.Sound) :
    Sql.PartSound (c.conditionClause? tests) := by
  unfold Clauses.conditionClause?
  split
  · exact .none
  · have hword : Quiet none (if c.isJoin then "on " else "where ").toList := by
      split <;> exact .of_plain (by decide)
    exact .some (.prefixed hword (sound_connect h))

include hg

theorem sound_unionMember (hs : s.Sound) : (g.unionMember s).Sound := by
  rw [unionMember, hg]
  exact hs.enclosed

omit hg

theorem sound_conditions {tests : List (Connective × Sql)} (h : ∀ t ∈ tests, t.2.Sound) :
    ((c.conditionClause? tests).getD .empty).Sound := by
  cases hs : c.conditionClause? tests with
  | none => exact .empty
  | some s => exact sound_conditionClause? h s hs

theorem sound_untrimmed (kind : JoinKind) {table conditions : Sql} (ht : table.Sound)
    (hc : conditions.Sound) :
    ((kind.word : Sql) ++ " join " ++ table ++ " " ++ conditions).Sound := by
  have hkind : Quiet none kind.word.toList := by
    cases kind <;> exact .of_plain (by decide)
  have hjoin : Sql.isMark " join " := by decide
  exact ((Sql.Sound.of_text hkind).joined hjoin ht).joined (by decide) hc

include hg

theorem sound_joined {table : Reference} {joins : List Sql} (ht : table.Neat)
    (hj : ∀ s ∈ joins, s.Sound) :
    (if joins.isEmpty then g.tableReference table
      else (g.tableReference table ++ " " ++ .join " " joins).enclosed).Sound := by
  have htable := sound_tableReference hg ht
  split
  · exact htable
  · exact Sql.Sound.enclosed (htable.joined (by decide) (.join (by decide) hj))

theorem sound_joinText {kind : JoinKind} {table : Reference} {e : Embedded} (ht : table.Neat)
    (hj : ∀ s ∈ e.joins, s.Sound) (hc : ∀ t ∈ e.conditions, t.2.Sound) :
    (g.joinText kind table c e).Sound :=
  (sound_untrimmed kind (sound_joined hg ht hj) (sound_conditions hc)).trimEnd

end Grammar

namespace Clauses

open Grammar

structure EmbeddedSound (e : Embedded) : Prop where
  joins : ∀ s ∈ e.joins, s.Sound
  conditions : ∀ t ∈ e.conditions, t.2.Sound
  unions : ∀ s ∈ e.unions, s.Sound

variable {g : Grammar} {c : Clauses} {e : Embedded} {s : Sql}

variable (hg : g.dialect = .postgres) (hc : c.Neat) (he : EmbeddedSound e)

include hg hc he

theorem sound_middle {parts : List (Option Sql)} (h : c.middle g e = .ok parts) :
    ∀ part ∈ parts, Sql.PartSound part := by
  simp only [middle, bind_eq_ok, pure_eq_ok] at h
  obtain ⟨groups, hgroups, havings, hhavings, rfl⟩ := h
  have hsource : Sql.PartSound (c.source.map (g.sourceClause c)) := by
    cases hs : c.source with
    | none => exact .none
    | some r => exact .some (sound_sourceClause hg (hc.source r hs))
  have hjoins : Sql.PartSound (if e.joins.isEmpty then none else some (Sql.join " " e.joins)) := by
    split
    · exact .none
    · exact .some (.join (by decide) he.joins)
  have hgroups : Sql.PartSound groups := by
    simp only [groupClause?] at hgroups
    split at hgroups
    · cases hgroups
      exact .none
    · obtain ⟨s, hs, rfl⟩ := map_eq_ok.1 hgroups
      exact .some (.prefixed (.of_plain (by decide)) (sound_references hg hc.groups hs))
  have hhavings : Sql.PartSound havings := by
    simp only [havingClause?] at hhavings
    split at hhavings
    · cases hhavings
      exact .none
    · obtain ⟨s, hs, rfl⟩ := map_eq_ok.1 hhavings
      exact .some (sound_havingClause hg hc.havings hs)
  simp only [List.forall_mem_cons]
  exact ⟨hsource, hjoins, sound_conditionClause? he.conditions, hgroups, hhavings, by simp⟩

theorem sound_unionTail (h : c.unionTail g e = .ok s) : s.Sound := by
  simp only [unionTail, bind_eq_ok, pure_eq_ok] at h
  obtain ⟨orders, horders, rfl⟩ := h
  have htail : ∀ part ∈ [orders, g.limitClause? c.unionLimit, g.offsetClause? c.unionOffset],
      Sql.PartSound part := by
    simp only [List.forall_mem_cons]
    exact ⟨sound_orderClause? hg hc.unionOrders horders, sound_limitClause? _,
      sound_offsetClause? _, by simp⟩
  refine .join (by decide) fun s hs ↦ ?_
  rcases List.mem_append.1 hs with hs | hs
  · exact he.unions s hs
  · obtain ⟨part, hp, hs⟩ := List.mem_filterMap.1 hs
    exact htail part hp s hs

theorem sound_plain (h : c.plain g e = .ok s) : s.Sound := by
  have hn : ¬ (g.dialect = .sqlServer ∧ Query.skipsRows c) := by simp [hg]
  simp only [plain, hc.aggregate, hn, false_and, if_false, bind_eq_ok] at h
  obtain ⟨columns, hcolumns, middle, hmiddle, orders, horders, h⟩ := h
  have hbody : (Sql.join " " ((some columns :: middle ++ orders ::
      [g.limitClause? c.limit, g.offsetClause? c.offset,
        c.lock.bind g.lockClause?]).filterMap id)).Sound := by
    refine Sql.PartSound.join (by decide) ?_
    simp only [List.cons_append, List.forall_mem_cons, List.forall_mem_append]
    exact ⟨.some (sound_columnClause hg hc.columns hcolumns), sound_middle hg hc he hmiddle,
      sound_orderClause? hg hc.orders horders, sound_limitClause? _, sound_offsetClause? _,
      sound_lockClause? hc.lock, by simp⟩
  split at h
  · cases pure_eq_ok.1 h
    exact hbody
  · simp only [bind_eq_ok, pure_eq_ok] at h
    obtain ⟨tail, htail, rfl⟩ := h
    exact (sound_unionMember hg hbody).joined (by decide) (sound_unionTail hg hc he htail)

theorem sound_assemble (h : c.assemble g e = .ok s) : s.Sound := by
  rw [assemble, hc.aggregate] at h
  exact sound_plain hg hc he h

end Clauses

namespace Grammar

variable {g : Grammar}

mutual

theorem sound_select (hg : g.dialect = .postgres) :
    ∀ q : Query, q.Neat → ∀ s, g.select q = .ok s → s.Sound
  | ⟨c, joins, conditions, unions⟩, ⟨hn, hj, hc, hu⟩, s, h => by
    simp only [select, bind_eq_ok] at h
    obtain ⟨_, -, js, hjs, cs, hcs, us, hus, h⟩ := h
    exact Clauses.sound_assemble hg hn ⟨sound_joinList hg joins hj js hjs,
      sound_conditionList hg conditions hc cs hcs, sound_memberList hg unions hu us hus⟩ h

theorem sound_joinList (hg : g.dialect = .postgres) :
    ∀ joins, joinsNeat joins → ∀ ss, g.joinList joins = .ok ss → ∀ s ∈ ss, s.Sound
  | [], _, ss, h => by
    cases h
    simp
  | ⟨kind, table, ⟨c, joins, conditions, _⟩⟩ :: rest, ⟨ht, ⟨_, hj, hc, _⟩, hr⟩, ss, h => by
    simp only [joinList, bind_eq_ok, pure_eq_ok] at h
    obtain ⟨js, hjs, cs, hcs, ss, hss, rfl⟩ := h
    refine List.forall_mem_cons.2 ⟨?_, sound_joinList hg rest hr ss hss⟩
    exact sound_joinText hg ht (sound_joinList hg joins hj js hjs)
      (sound_conditionList hg conditions hc cs hcs)

theorem sound_conditionList (hg : g.dialect = .postgres) :
    ∀ conditions, conditionsNeat conditions →
    ∀ ts, g.conditionList conditions = .ok ts → ∀ t ∈ ts, t.2.Sound
  | [], _, ts, h => by
    cases h
    simp
  | ⟨_, t⟩ :: rest, ⟨ht, hr⟩, ts, h => by
    simp only [conditionList, bind_eq_ok, pure_eq_ok] at h
    obtain ⟨s, hs, ts, hts, rfl⟩ := h
    exact List.forall_mem_cons.2 ⟨sound_test hg t ht s hs, sound_conditionList hg rest hr ts hts⟩

theorem sound_memberList (hg : g.dialect = .postgres) :
    ∀ members, membersNeat members → ∀ ss, g.memberList members = .ok ss → ∀ s ∈ ss, s.Sound
  | [], _, ss, h => by
    cases h
    simp
  | ⟨query, all⟩ :: rest, ⟨hq, hr⟩, ss, h => by
    simp only [memberList, bind_eq_ok, pure_eq_ok] at h
    obtain ⟨s, hs, ss, hss, rfl⟩ := h
    have hword : Quiet none (if all then "union all " else "union ").toList := by
      split <;> exact .of_plain (by decide)
    refine List.forall_mem_cons.2 ⟨.prefixed hword ?_, sound_memberList hg rest hr ss hss⟩
    exact sound_unionMember hg (sound_select hg query hq s hs)

theorem sound_test (hg : g.dialect = .postgres) :
    ∀ t : Test Query, t.Neat → ∀ s, g.test t = .ok s → s.Sound
  | .isInQuery column query negated, hq, s, h => by
    simp only [test, bind_eq_ok, pure_eq_ok] at h
    obtain ⟨c, hc, sql, hsql, rfl⟩ := h
    exact (sound_wrap hg hc).joined (isMark_membership negated)
      (sound_select hg query hq sql hsql).enclosed
  | .nested ⟨_, _, conditions, _⟩, ⟨_, _, hc, _⟩, s, h => by
    simp only [test, bind_eq_ok, pure_eq_ok] at h
    obtain ⟨ts, hts, rfl⟩ := h
    exact (sound_connect (sound_conditionList hg conditions hc ts hts)).enclosed
  | .query column o query, ⟨ho, hq⟩, s, h => by
    simp only [test, bind_eq_ok, pure_eq_ok] at h
    obtain ⟨c, hc, sql, hsql, rfl⟩ := h
    exact ((sound_wrap hg hc).joined (by decide) (o.sound_sql ho)).joined (by decide)
      (sound_select hg query hq sql hsql).enclosed
  | .existence query negated, hq, s, h => by
    simp only [test, bind_eq_ok, pure_eq_ok] at h
    obtain ⟨sql, hsql, rfl⟩ := h
    rw [Sql.append_assoc]
    exact .prefixed (quiet_negation negated)
      (.prefixed (.of_plain (by decide)) (sound_select hg query hq sql hsql).enclosed)
  | .basic .., ⟨ho, hv⟩, s, h => sound_basicTest hg ho hv h
  | .jsonBoolean .., ho, s, h => sound_jsonBooleanTest hg ho h
  | .columns .., ho, s, h => sound_columnTest hg ho h
  | .raw .., hs, s, h => by
    cases h
    exact hs
  | .isIn .., hv, s, h => sound_inTest hg hv h
  | .isInIntegers .., _, s, h => sound_inIntegersTest hg h
  | .null .., _, s, h => sound_nullTest hg h
  | .between .., ⟨hl, hh⟩, s, h => sound_betweenTest hg hl hh h
  | .betweenColumns .., _, s, h => sound_betweenColumnsTest hg h
  | .datePart .., ⟨ho, hv⟩, s, h => sound_datePartTest hg ho hv h
  | .rowValues .., ⟨ho, hv⟩, s, h => sound_rowValuesTest hg ho hv h
  | .jsonContains column value negated, _, s, h => by
    simp only [test, bind_eq_ok, pure_eq_ok] at h
    obtain ⟨sql, hsql, rfl⟩ := h
    exact .prefixed (quiet_negation negated) (sound_jsonContainsTest hg hsql)
  | .jsonLength .., ⟨ho, hv⟩, s, h => sound_jsonLengthTest hg ho hv h

end

end Grammar

end FluentSql
