import FluentSql.Proofs.Counting.Selected

namespace FluentSql

open Grammar

structure Sql.Alike (s t : Sql) : Prop where
  text : s.text = t.text
  slots : s.slots = t.slots

def Tally.sql (g : Grammar) : Tally → Sql
  | direct c => .join " " ((some (("select count(*) as aggregate" : String) : Sql) ::
      [c.source, c.joins, c.condition, c.lock]).filterMap id)
  | derived s label => "select count(*) as aggregate from (" ++ s.sql g ++ ") as " ++ label

def countAll : Aggregate := ⟨"count", [.name "*"]⟩

def countHead : Sql :=
  ("select " : Sql) ++ ("count" : String) ++ "(" ++ ("*" : String) ++ ") as aggregate"

theorem aggregateColumns_countAll (g : Grammar) (c : Clauses) :
    g.aggregateColumns c countAll = .ok countHead := by
  have hstar : g.references countAll.columns = .ok (("*" : String) : Sql) := rfl
  have htext : ¬ (c.distinct = true ∧ (("*" : String) : Sql).text ≠ "*") := fun h ↦
    h.2 (Sql.text_coe "*")
  rw [aggregateColumns, hstar]
  exact congrArg (fun s : Sql ↦ Except.ok (("select " : Sql) ++ ("count" : String) ++ "(" ++ s ++
    ") as aggregate")) (if_neg htext)

namespace Clauses

variable {g : Grammar} {c : Clauses}

theorem plain_countAll (ha : c.aggregate = some countAll) (hw : c.windows = {})
    (hg : c.groups = []) (hh : c.havings = []) (ho : c.orders = []) (joins : List Sql)
    (conditions : List (Connective × Sql)) : c.plain g ⟨joins, conditions, []⟩ =
      .ok (.join " " ((some countHead :: [c.source.map (g.sourceClause c),
        if joins.isEmpty then none else some (.join " " joins), c.conditionClause? conditions,
        c.lock.bind g.lockClause?]).filterMap id)) := by
  obtain ⟨⟨hl, hoff⟩, -, -⟩ : (c.limit = none ∧ c.offset = none) ∧ c.unionLimit = none ∧
      c.unionOffset = none := by
    simpa [windows] using hw
  have hskips : ¬ (g.dialect = .sqlServer ∧ Query.skipsRows c = true) := by
    rw [Query.skipsRows, hoff]
    simp
  unfold plain middle groupClause? havingClause? orderClause?
  simp only [ha, hskips, hl, hoff, hg, hh, ho, limitClause?_none, offsetClause?_none,
    aggregateColumns_countAll, false_and, if_false, List.isEmpty_nil, if_true]
  refine congrArg (fun parts ↦ Except.ok (Sql.join " " (countHead :: parts))) ?_
  simp only [List.append_eq, List.cons_append, List.nil_append, filterMap_cons_toList,
    Option.toList_none, List.filterMap_nil, List.append_nil]

def stripped (c : Clauses) (bindings : Bindings) : Clauses :=
  { c with orders := [], unionOrders := [], limit := none, offset := none, unionLimit := none,
           unionOffset := none, bindings }

variable {joins : List Sql} {conditions : List (Connective × Sql)} {members : List (Bool × Sql)}
  {s : Selection}

theorem selection_stripped (h : c.selection g joins conditions members = .ok s)
    (bindings : Bindings) :
    (c.stripped bindings).selection g joins conditions members = .ok s.unordered := by
  obtain ⟨hfirst, -, rfl⟩ := selection_eq_ok.1 h
  obtain ⟨hcolumns, hgroups, hhavings, -, hrest⟩ := core_eq_ok.1 hfirst
  refine selection_eq_ok.2 ⟨?_, ite_self _, rfl⟩
  exact core_eq_ok.2 ⟨hcolumns, hgroups, hhavings, rfl, hrest⟩

theorem selection_columns (h : c.selection g joins conditions members = .ok s) {r : Reference}
    {columns : Sql} (hr : g.references [r] = .ok columns) (bindings : Bindings) :
    selection g { c with columns := some [r], bindings } joins conditions members =
      .ok (s.withColumns columns) := by
  obtain ⟨hfirst, horders, rfl⟩ := selection_eq_ok.1 h
  obtain ⟨-, hrest⟩ := core_eq_ok.1 hfirst
  exact selection_eq_ok.2 ⟨core_eq_ok.2 ⟨hr, hrest⟩, horders, rfl⟩

end Clauses

namespace Grammar

variable {g : Grammar} {q : Query} {s : Selection}

theorem select_eq_assemble {joins : List Sql} {conditions : List (Connective × Sql)}
    {members : List (Bool × Sql)} (hchecked : q.toClauses.checked = .ok ())
    (hj : g.joinList q.joins = .ok joins) (hc : g.conditionList q.conditions = .ok conditions)
    (hm : q.unions.mapM g.readMember = .ok members) : g.select q =
      q.toClauses.assemble g ⟨joins, conditions, members.map Selection.memberSql⟩ := by
  obtain ⟨c, joins, conditions, unions⟩ := q
  dsimp only at hchecked hj hc hm
  rw [select, hchecked, hj, hc, memberList_eq_map, hm]
  rfl

end Grammar

/-- A statement that begins with a count as it is put together begins with it as it is read. -/
theorem Sql.Alike.countHead_append (s : Sql) :
    (countHead ++ s).Alike ((("select count(*) as aggregate" : String) : Sql) ++ s) where
  text := by simp only [Sql.text_append]; rfl
  slots := rfl

theorem Sql.Alike.countHead_join (parts : List Sql) : Sql.Alike (.join " " (countHead :: parts))
    (.join " " ((("select count(*) as aggregate" : String) : Sql) :: parts)) := by
  cases parts with
  | nil => exact ⟨rfl, rfl⟩
  | cons p parts => exact countHead_append _

theorem Sql.Alike.derived (s : Sql) (label : String) :
    (countHead ++ " from (" ++ s ++ ") as " ++ label).Alike
      ("select count(*) as aggregate from (" ++ s ++ ") as " ++ label) where
  text := by simp only [Sql.text_append]; rfl
  slots := rfl

namespace Query

variable {q : Query} {s : Selection}

def stripped (q : Query) (bindings : Bindings) : Query :=
  { q with toClauses := q.toClauses.stripped bindings }

theorem unwindowed_eq (q : Query) : ∃ bindings, q.unwindowed = q.stripped bindings := by
  unfold unwindowed reorder clearBindings stripped Clauses.stripped
  exact ⟨_, rfl⟩

theorem setAggregate_stripped (q : Query) (bindings : Bindings) (function : String)
    (columns : List Reference) : ∃ bindings', (q.stripped bindings).setAggregate function columns =
      { q.stripped bindings' with aggregate := some ⟨function, columns⟩ } := by
  unfold setAggregate clearBindings stripped Clauses.stripped
  dsimp only
  split <;> exact ⟨_, rfl⟩

/-- The query itself as a count, without its columns unless it has unions. -/
def tallied (q : Query) (bindings : Bindings) : Query :=
  { q.stripped bindings with
    aggregate := some countAll, columns := if q.unions.isEmpty then none else q.columns }

theorem counting_ungrouped (hg : q.groups = []) (hh : q.havings = []) :
    ∃ bindings, q.counting = .ok (q.tallied bindings) := by
  obtain ⟨bindings, he⟩ := q.unwindowed_eq
  unfold counting tallied
  rw [he, if_pos (by simp [hg, hh])]
  dsimp only
  split
  · obtain ⟨bindings', he⟩ := setAggregate_stripped { q with columns := none }
      (bindings.clear .columns) "count" [.name "*"]
    exact ⟨bindings', congrArg Except.ok he⟩
  · obtain ⟨bindings', he⟩ := setAggregate_stripped q bindings "count" [.name "*"]
    exact ⟨bindings', congrArg Except.ok he⟩

/-- How the query counts its rows is written as a tally. -/
def Tallies (q : Query) (t : Tally) : Prop :=
  ∃ counting sql, q.counting = .ok counting ∧ counting.sql = .ok sql ∧
    sql.Alike (t.sql q.grammar)

/-- Without groups and unions, the rows are counted that the conditions leave. -/
theorem tallies_direct (h : q.grammar.selection q = .ok s) (hg : q.groups = [])
    (hh : q.havings = []) (hu : q.unions = []) : q.Tallies (.direct s.first) := by
  obtain ⟨bindings, hcounting⟩ := counting_ungrouped hg hh
  obtain ⟨hchecked, joins, conditions, hj, hc, hm, hs⟩ := Grammar.selection_eq_ok.1 h
  obtain ⟨hfirst, -, -⟩ := Clauses.selection_eq_ok.1 hs
  obtain ⟨-, -, -, -, -, hsource, hjoins, hcondition, hlock⟩ := Clauses.core_eq_ok.1 hfirst
  refine ⟨_, _, hcounting, ?_, .countHead_join _⟩
  have hmembers : s.members = [] := by
    simpa [hu] using Grammar.isEmpty_members hm
  have hempty : (s.members.map Selection.memberSql).isEmpty ∧
      (q.tallied bindings).havings.isEmpty := by
    rw [hmembers]
    exact ⟨rfl, List.isEmpty_iff.2 hh⟩
  refine (Grammar.select_eq_assemble (q := q.tallied bindings) hchecked hj hc hm).trans ?_
  refine (if_pos hempty).trans ?_
  rw [hmembers, hsource, hjoins, hcondition, hlock]
  exact Clauses.plain_countAll (c := (q.tallied bindings).toClauses) rfl rfl hg hh rfl joins
    conditions

/-- Combined rows are counted as a derived table, without orderings. -/
theorem tallies_combined (h : q.grammar.selection q = .ok s) (ha : q.aggregate = none)
    (hg : q.groups = []) (hh : q.havings = []) (hu : q.unions ≠ []) :
    q.Tallies (.derived s.unordered (q.grammar.wrapTable "temp_table")) := by
  obtain ⟨bindings, hcounting⟩ := counting_ungrouped hg hh
  obtain ⟨hchecked, joins, conditions, hj, hc, hm, hs⟩ := Grammar.selection_eq_ok.1 h
  have hempty : ¬ ((s.members.map Selection.memberSql).isEmpty ∧
      (q.tallied bindings).havings.isEmpty) := by
    rw [List.isEmpty_map, Grammar.isEmpty_members hm]
    simp [hu]
  have hinner : Clauses.plain q.grammar (q.toClauses.stripped bindings)
      ⟨joins, conditions, s.members.map Selection.memberSql⟩ =
        .ok (s.unordered.sql q.grammar) := by
    rw [Clauses.plain_eq_map (c := q.toClauses.stripped bindings) ha rfl,
      Clauses.selection_stripped hs]
    rfl
  have hclauses : { (q.tallied bindings).toClauses with aggregate := none } =
      q.toClauses.stripped bindings := by
    unfold tallied
    dsimp only
    rw [if_neg (by simpa using hu), ← ha]
    rfl
  refine ⟨_, _, hcounting, ?_, .derived _ _⟩
  refine (Grammar.select_eq_assemble (q := q.tallied bindings) hchecked hj hc hm).trans ?_
  refine (if_neg hempty).trans ?_
  rw [aggregateColumns_countAll, hclauses, hinner]
  rfl

/-- The columns of the source alone, which are counted where a query has joins and chooses no
columns. -/
def ownColumns? (q : Query) : Option Reference :=
  match q.columns, q.source.bind Reference.name? with
  | none, some table => if q.joins.isEmpty then none else some (.name (table ++ ".*"))
  | _, _ => none

def listed (q : Query) : Query :=
  q.ownColumns?.elim q fun r ↦ q.select [r]

theorem apply_listed {α : Sort*} (f : Query → α) (h : ∀ r, f (q.select [r]) = f q) :
    f q.listed = f q := by
  unfold listed
  cases q.ownColumns? with
  | none => rfl
  | some r => exact h r

theorem counting_grouped (h : q.groups ≠ [] ∨ q.havings ≠ []) :
    q.counting = do
      let sql ← q.unwindowed.listed.sql
      let outer := q.fresh.setSource (aliased sql (q.grammar.wrapSegment "aggregate_table"))
      return (outer.bind .source q.unwindowed.listed.allBindings).setAggregate "count"
        [.name "*"] := by
  have hcount : ¬ (q.groups.isEmpty ∧ q.havings.isEmpty) := by
    simpa [← not_and_or] using h
  have hlisted (all : Query) : all.listed = match all.columns, all.source.bind Reference.name? with
      | none, some table =>
        if all.joins.isEmpty then all else all.select [.name (table ++ ".*")]
      | _, _ => all := by
    unfold listed ownColumns?
    split
    · split <;> rfl
    · rfl
  exact (if_neg hcount).trans (hlisted q.unwindowed ▸ rfl)

def countOf (q : Query) (source : Reference) (bindings : Bindings) : Query :=
  { q.fresh with source := some source, aggregate := some countAll, bindings }

theorem sql_countOf (q : Query) (s : Sql) (label : String) (bindings : Bindings) :
    ∃ sql, (q.countOf (aliased s label) bindings).sql = .ok sql ∧
      sql.Alike ("select count(*) as aggregate from (" ++ s ++ ") as " ++ label) := by
  have hhint : q.grammar.lockHint none = .empty := by
    unfold Grammar.lockHint
    split <;> simp_all
  have hselect : (q.countOf (aliased s label) bindings).sql =
      (q.countOf (aliased s label) bindings).toClauses.assemble q.grammar ⟨[], [], []⟩ :=
    Grammar.select_eq_assemble (q := q.countOf (aliased s label) bindings) rfl rfl rfl rfl
  have hplain := Clauses.plain_countAll (g := q.grammar)
    (c := (q.countOf (aliased s label) bindings).toClauses) rfl rfl rfl rfl rfl [] []
  refine ⟨countHead ++ " " ++ ("from " ++ (s.enclosed ++ " as " ++ label) ++
    q.grammar.lockHint none), hselect.trans hplain, ?_, ?_⟩
  · have htext : countHead.text ++ " " ++ ("from " ++ ("(" ++ s.text ++ ")" ++ " as " ++ label)) =
        "select count(*) as aggregate from (" ++ s.text ++ ") as " ++ label := by
      simp only [← String.toList_inj, String.toList_append, List.append_assoc]
      rfl
    have hempty : Sql.empty.text = "" := rfl
    simp only [hhint, Sql.text_append, Sql.text_coe, Sql.enclosed, hempty, String.append_empty]
    exact htext
  · simp [hhint, countHead]

theorem selection_listed (h : q.grammar.selection q = .ok s) (bindings : Bindings) {columns : Sql}
    (hcolumns : q.ownColumns?.elim (.ok s.first.columns) (q.grammar.references [·]) = .ok columns) :
    q.grammar.selection (q.stripped bindings).listed = .ok (s.unordered.withColumns columns) := by
  obtain ⟨hchecked, joins, conditions, hj, hc, hm, hs⟩ := Grammar.selection_eq_ok.1 h
  have hstripped := Clauses.selection_stripped hs bindings
  have hown : (q.stripped bindings).ownColumns? = q.ownColumns? := rfl
  rw [listed, hown]
  cases ho : q.ownColumns? with
  | none =>
    rw [ho] at hcolumns
    cases hcolumns
    exact Grammar.selection_eq_ok.2 ⟨hchecked, joins, conditions, hj, hc, hm, hstripped⟩
  | some r =>
    rw [ho] at hcolumns
    exact Grammar.selection_eq_ok.2 ⟨hchecked, joins, conditions, hj, hc, hm,
      Clauses.selection_columns hstripped hcolumns _⟩

/-- Groups are counted as a derived table, without orderings and maybe by other columns. -/
theorem tallies_grouped (h : q.grammar.selection q = .ok s) (ha : q.aggregate = none)
    (hg : q.groups ≠ [] ∨ q.havings ≠ []) {columns : Sql}
    (hcolumns : q.ownColumns?.elim (.ok s.first.columns) (q.grammar.references [·]) = .ok columns) :
    q.Tallies (.derived (s.unordered.withColumns columns)
      (q.grammar.wrapSegment "aggregate_table")) := by
  obtain ⟨bindings, he⟩ := q.unwindowed_eq
  have hlisted : (q.stripped bindings).listed.sql =
      .ok ((s.unordered.withColumns columns).sql q.grammar) := by
    have haggregate : (q.stripped bindings).listed.aggregate = none :=
      (apply_listed (·.aggregate) fun _ ↦ rfl).trans ha
    have hwindows : (q.stripped bindings).listed.windows = {} :=
      apply_listed (·.windows) fun _ ↦ rfl
    have hgrammar : (q.stripped bindings).listed.grammar = q.grammar :=
      apply_listed (·.grammar) fun _ ↦ rfl
    rw [Query.sql, hgrammar, Grammar.select_eq_map haggregate hwindows,
      selection_listed h bindings hcolumns]
    rfl
  obtain ⟨sql, hsql, halike⟩ := q.sql_countOf _ (q.grammar.wrapSegment "aggregate_table")
    (({} : Bindings).extend .source (q.stripped bindings).listed.allBindings)
  refine ⟨_, sql, ?_, hsql, halike⟩
  rw [counting_grouped hg, he, hlisted]
  rfl

end Query

end FluentSql
