import FluentSql.Proofs.Counting.Tallied
import FluentSql.Proofs.Paging.Tiling
import FluentSql.Proofs.Windows.Setting

namespace FluentSql

open Grammar Quoting

/-- Whether the groups of a query can be counted by the columns of its source, if they are: they are
neither made distinct nor combined, and the source has a name without an alias. -/
def Query.CountsOwn (q : Query) : Prop :=
  q.groups ≠ [] ∨ q.havings ≠ [] → ∀ r ∈ q.ownColumns?, q.distinct = false ∧ q.unions = [] ∧
    ∃ table, q.source = some (.name table) ∧ ¬ arrow <:+: table.toList ∧
      ¬ aliasMark <:+: table.toList.map Char.toLower

namespace Selection

/-- How rows are counted: in the select itself unless they are in groups or combined, else as a
derived table without orderings, in which groups may have other columns. -/
def tally (g : Grammar) (s : Selection) (columns : Sql) : Tally :=
  if s.first.Grouped then
    .derived (s.unordered.withColumns columns) (g.wrapSegment "aggregate_table")
  else if s.members = [] then .direct s.first
  else .derived s.unordered (g.wrapTable "temp_table")

end Selection

/-- What a count of a selection comes to. Groups and combined rows are counted as they are;
orderings by aggregates need groups for that. All other rows are counted before duplicates are
dropped, and before an aggregate puts them into one group. -/
structure Tally.Counts (db : Database) (t : Tally) (s : Selection) : Prop where
  derived : s.first.Grouped ∨ s.members ≠ [] →
    (¬ s.first.Grouped → ∀ orders ∈ s.first.orders, db.aggregates orders = false) →
    t.answer db = (s.rows db).length
  direct : s.members = [] → s.first.Plain db → (s.rows db).length ≤ t.answer db ∧
    ((s.rows db).length = t.answer db ↔
      s.first.distinct = false ∨ ((s.first.sorted db).map (db.result s.first.columns)).Nodup)
  single : s.members = [] → ¬ s.first.Grouped →
    db.aggregates s.first.columns ∨ s.first.orders.any db.aggregates →
    t.answer db = (s.first.kept db).length ∧ (s.rows db).length = 1

namespace Selection

variable {db : Database} {s : Selection} {columns : Sql} {g : Grammar}

theorem counts_tally (h : s.first.Grouped → columns = s.first.columns ∨
    s.first.distinct = false ∧ s.members = []) : (s.tally g columns).Counts db s where
  derived hs ho := by
    refine Eq.trans ?_ (length_rows_unordered ho)
    unfold tally
    split
    · rename_i hg
      rcases h hg with rfl | ⟨hd, hm⟩
      · rfl
      · exact length_rows_withColumns (s := s.unordered) hm hd hg columns
    · rename_i hg
      rw [if_neg (hs.resolve_left hg)]
      rfl
  direct hm hp := by
    rw [tally, if_neg hp.apart, if_pos hm, length_rows_of_members hm]
    exact hp.length_rows
  single hm hg ha := by
    rw [tally, if_neg hg, if_pos hm, length_rows_of_members hm]
    exact ⟨rfl, Core.length_rows_aggregate hg ha⟩

end Selection

namespace CountedPage

theorem drop_last {α β : Type} {rows : List β} {total perPage : Nat} (h : rows.length ≤ total)
    (hs : 0 < perPage) (items : List α) (current : Nat) :
    rows.drop ((of items total perPage current).last * perPage) = [] := by
  have hlast : (total + perPage - 1) / perPage ≤ (of items total perPage current).last := by
    rw [of, if_neg (Nat.ne_of_gt hs)]
    exact Nat.le_max_right _ _
  have hpages : total ≤ (total + perPage - 1) / perPage * perPage := by
    have hdiv := Nat.div_add_mod' (total + perPage - 1) perPage
    have hmod := Nat.mod_lt (total + perPage - 1) hs
    omega
  exact List.drop_eq_nil_iff.2 (h.trans (hpages.trans (Nat.mul_le_mul_right perPage hlast)))

end CountedPage

namespace Grammar

variable {g : Grammar} {q : Query} {s : Selection}

theorem grouped_iff (h : g.selection q = .ok s) :
    s.first.Grouped ↔ q.groups ≠ [] ∨ q.havings ≠ [] := by
  obtain ⟨-, joins, conditions, -, -, -, hs⟩ := selection_eq_ok.1 h
  obtain ⟨hfirst, -, -⟩ := Clauses.selection_eq_ok.1 hs
  obtain ⟨-, hgroups, hhavings, -⟩ := Clauses.core_eq_ok.1 hfirst
  refine or_congr ?_ ?_
  · unfold Clauses.groupClause? at hgroups
    split at hgroups
    · rename_i he
      simp [← Except.ok.inj hgroups, List.isEmpty_iff.1 he]
    · rename_i he
      obtain ⟨columns, -, hsome⟩ := map_eq_ok.1 hgroups
      simpa [← hsome] using he
  · unfold Clauses.havingClause? at hhavings
    split at hhavings
    · rename_i he
      simp [← Except.ok.inj hhavings, List.isEmpty_iff.1 he]
    · rename_i he
      obtain ⟨columns, -, hsome⟩ := map_eq_ok.1 hhavings
      simpa [← hsome] using he

theorem references_qualify (g : Grammar) {table : String} (h : ¬ arrow <:+: table.toList) :
    ∃ columns, g.references [.name (table ++ ".*")] = .ok columns := by
  have hstar : table ++ ".*" = qualify table "*" := by
    rw [← append_dot]
    rfl
  have harrow : ¬ arrow <:+: (qualify table "*").toList := by
    rw [toList_qualify]
    exact arrow_qualified h (by decide)
  obtain ⟨expression, label, hparted⟩ := exists_parted (qualify table "*").toList
  obtain ⟨text, htext⟩ : ∃ text, g.wrap (qualify table "*") = .ok text :=
    ⟨_, wrap_spelled harrow hparted⟩
  refine ⟨.join ", " [text], ?_⟩
  rw [references, List.mapM_cons, reference, hstar, htext]
  rfl

end Grammar

namespace Query

open Session FluentSql.Action

variable {σ H : Type} {d : Driver σ H} {q : Query} {s : Selection} {session t : Session σ H}
  {perPage number n : Nat} {page : CountedPage Row}

theorem paginate_counted (hn : CountedAs d q n) (hp : session.connection.pretending = false)
    (h : (q.paginate d perPage number).on session = (.ok page, t)) :
    ∃ items, page = .of items n perPage (max 1 number) := by
  obtain ⟨u, hu, -⟩ := countRows_answered hn hp
  unfold paginate at h
  rw [on_bind_ok hu] at h
  split at h
  · cases hi : ((q.page (max 1 number) perPage).get d).on u with
    | mk result v =>
      cases result with
      | ok items =>
        rw [on_bind_ok hi] at h
        exact ⟨items, (Except.ok.inj (Prod.mk.inj h).1).symm⟩
      | error e =>
        rw [on_bind_error hi] at h
        cases h
  · rw [on_bind_ok on_pure] at h
    exact ⟨[], (Except.ok.inj (Prod.mk.inj h).1).symm⟩

theorem ownColumns?_eq_some {r : Reference} (h : q.ownColumns? = some r) {table : String}
    (hs : q.source = some (.name table)) : r = .name (table ++ ".*") := by
  unfold ownColumns? at h
  rw [hs] at h
  split at h
  · rename_i he
    cases he
    split at h
    · cases h
    · exact (Option.some.inj h).symm
  · cases h

/-- The statement that counts the rows of a query is the tally of its selection. -/
theorem tallies_tally (h : q.grammar.selection q = .ok s) (ha : q.aggregate = none)
    (ho : q.CountsOwn) : ∃ columns, q.Tallies (s.tally q.grammar columns) ∧
      (s.first.Grouped → columns = s.first.columns ∨
        s.first.distinct = false ∧ s.members = []) := by
  obtain ⟨-, joins, conditions, -, -, hm, hs⟩ := Grammar.selection_eq_ok.1 h
  obtain ⟨hfirst, -, -⟩ := Clauses.selection_eq_ok.1 hs
  have hd : s.first.distinct = q.distinct := (Clauses.core_eq_ok.1 hfirst).2.2.2.2.1
  have hmembers : s.members = [] ↔ q.unions = [] := by
    rw [← List.isEmpty_iff, ← List.isEmpty_iff, Grammar.isEmpty_members hm]
  by_cases hg : s.first.Grouped
  · have hgroups := (Grammar.grouped_iff h).1 hg
    cases hown : q.ownColumns? with
    | none =>
      refine ⟨s.first.columns, ?_, fun _ ↦ .inl rfl⟩
      rw [Selection.tally, if_pos hg]
      exact tallies_grouped h ha hgroups (by rw [hown]; rfl)
    | some r =>
      obtain ⟨hdistinct, hunions, table, hsource, harrow, -⟩ := ho hgroups r hown
      obtain ⟨columns, hcolumns⟩ := q.grammar.references_qualify harrow
      refine ⟨columns, ?_, fun _ ↦ .inr ⟨hd.trans hdistinct, hmembers.2 hunions⟩⟩
      rw [Selection.tally, if_pos hg]
      refine tallies_grouped h ha hgroups ?_
      rwa [hown, ownColumns?_eq_some hown hsource]
  · refine ⟨s.first.columns, ?_, fun _ ↦ .inl rfl⟩
    obtain ⟨hgroups, hhavings⟩ : q.groups = [] ∧ q.havings = [] := by
      simpa using (Grammar.grouped_iff h).not.1 hg
    rw [Selection.tally, if_neg hg]
    split
    · rename_i he
      exact tallies_direct h hgroups hhavings (hmembers.1 he)
    · rename_i he
      exact tallies_combined h ha hgroups hhavings (hmembers.not.1 he)

/-- Whatever steps build a query, the statement that counts its rows is the tally of what is
written for it without windows. In every database it comes to as many rows as the query has without
windows if they are in groups or combined, or if nothing is dropped as a duplicate. The total of a
page is what the count is answered with, and if that is no less than the rows, then the pages up to
the last one have all of them. -/
theorem total_counts (g : Grammar) (macros : Macros) (steps : List Step) {sql : Sql}
    (h : ((Query.run { grammar := g, macros } steps).1.withWindows {}).sql = .ok sql)
    (ho : (Query.run { grammar := g, macros } steps).1.CountsOwn) :
    let q := (Query.run { grammar := g, macros } steps).1
    ∃ s columns, g.selection q = .ok s ∧ sql = s.sql g ∧ q.Tallies (s.tally g columns) ∧
      ∀ db : Database, (s.tally g columns).Counts db s ∧
        ∀ (σ H : Type) (d : Driver σ H) (session t : Session σ H) perPage number page,
          CountedAs d q ((s.tally g columns).answer db) →
          session.connection.pretending = false →
          (q.paginate d perPage number).on session = (.ok page, t) →
          page.total = (s.tally g columns).answer db ∧
          (0 < perPage → (s.rows db).length ≤ page.total →
            (s.rows db).drop (page.last * perPage) = []) := by
  intro q
  have hsetting : q.setting = (g, none) := setting_run _ steps
  have hg : q.grammar = g := congrArg Prod.fst hsetting
  have ha : q.aggregate = none := congrArg Prod.snd hsetting
  have hselect : (q.withWindows {}).sql = (q.grammar.selection q).map (·.sql q.grammar) :=
    Grammar.select_eq_map (q := q.withWindows {}) ha rfl
  obtain ⟨s, hs, hsql⟩ := map_eq_ok.1 (hselect.symm.trans h)
  obtain ⟨columns, ht, hc⟩ := tallies_tally hs ha ho
  rw [hg] at hs hsql ht
  refine ⟨s, columns, hs, hsql.symm, ht, fun db ↦ ⟨Selection.counts_tally hc, ?_⟩⟩
  intro σ H d session t perPage number page hn hp hpage
  obtain ⟨items, rfl⟩ := paginate_counted hn hp hpage
  exact ⟨rfl, fun hsize hle ↦ CountedPage.drop_last hle hsize items _⟩

def namesakes : Database where
  Row := Nat × String
  Key := String
  Result := String
  decidableKey := inferInstance
  decidableResult := inferInstance
  rows _ joins := if joins.isSome then [(1, "ann"), (1, "ann"), (2, "ann"), (2, "ann")]
    else [(1, "ann"), (2, "ann")]
  holds _ _ := true
  key groups row := if groups.text = "group by `users`.`id`" then toString row.1 else row.2
  aggregates _ := false
  passes _ _ := true
  result columns rows := if columns.text = "`name`" then rows.head?.elim "" (·.2) else "row"
  before _ _ _ := true
  beforeCombined _ _ _ := true
  member _ := []

def authors : List Step := [
  .source (.name "users"), .join .inner (.name "posts") "users.id" (.named "=") "posts.user_id",
  .groupBy [.name "users.id"]]

theorem total_counts_authors :
    let g : Grammar := { dialect := .mysql }
    let q := (Query.run { grammar := g } authors).1
    (∃ sql, (q.withWindows {}).sql = .ok sql ∧ sql.text = "select * from `users` inner join " ++
      "`posts` on `users`.`id` = `posts`.`user_id` group by `users`.`id`") ∧ q.CountsOwn ∧
    ∃ (s : Selection) (columns : Sql), q.Tallies (s.tally g columns) ∧
      (s.rows namesakes).length = 2 ∧ (s.tally g columns).answer namesakes = 2 := by
  intro g q
  obtain ⟨sql, hsql, htext⟩ : ∃ sql, (q.withWindows {}).sql = .ok sql ∧ sql.text =
      "select * from `users` inner join `posts` on `users`.`id` = `posts`.`user_id` " ++
        "group by `users`.`id`" := exists_ok_of_map_toOption (by decide +kernel)
  have hown : q.CountsOwn := fun _ _ _ ↦ ⟨rfl, rfl, "users", rfl, by decide, by decide⟩
  refine ⟨⟨sql, hsql, htext⟩, hown, ?_⟩
  obtain ⟨s, columns, hs, -, ht, hdb⟩ := total_counts g {} authors hsql hown
  obtain ⟨s', hs', hrows⟩ : ∃ s, g.selection q = .ok s ∧
      (s.first.groups.isSome, (s.rows namesakes).length) = (true, 2) :=
    exists_ok_of_map_toOption (by decide +kernel)
  obtain rfl : s = s' := Except.ok.inj (hs.symm.trans hs')
  obtain ⟨hgroups, hrows⟩ := Prod.mk.inj hrows
  have hanswer := (hdb namesakes).1.derived (.inl (.inl hgroups)) fun _ _ _ ↦ rfl
  exact ⟨s, columns, ht, hrows, hanswer.trans hrows⟩

def distinctNames : List Step := [
  .source (.name "users"), .select [.name "name"], .distinct]

/-- Duplicates that are dropped are counted. -/
theorem total_counts_duplicates :
    let g : Grammar := { dialect := .mysql }
    let q := (Query.run { grammar := g } distinctNames).1
    ∃ s sql counting count, g.selection q = .ok s ∧ (q.withWindows {}).sql = .ok sql ∧
      sql = s.sql g ∧ sql.text = "select distinct `name` from `users`" ∧
      q.counting = .ok counting ∧ counting.sql = .ok count ∧
      count.text = "select count(*) as aggregate from `users`" ∧
      count.Alike ((Tally.direct s.first).sql g) ∧
      (s.rows namesakes).length = 1 ∧ (Tally.direct s.first).answer namesakes = 2 := by
  intro g q
  obtain ⟨s, hs, hlengths⟩ : ∃ s, g.selection q = .ok s ∧
      ((s.rows namesakes).length, (Tally.direct s.first).answer namesakes) = (1, 2) :=
    exists_ok_of_map_toOption (by decide +kernel)
  obtain ⟨hrows, hanswer⟩ := Prod.mk.inj hlengths
  obtain ⟨sql, hsql, htext⟩ : ∃ sql, (q.withWindows {}).sql = .ok sql ∧
      sql.text = "select distinct `name` from `users`" :=
    exists_ok_of_map_toOption (by decide +kernel)
  have hselect : (q.withWindows {}).sql = (g.selection q).map (·.sql g) :=
    Grammar.select_eq_map (q := q.withWindows {}) rfl rfl
  have he : s.sql g = sql := by
    rw [hsql, hs] at hselect
    exact (Except.ok.inj hselect).symm
  obtain ⟨counting, count, hcounting, hcount, halike⟩ := tallies_direct (q := q) hs rfl rfl rfl
  have hwritten : (q.counting.bind Query.sql).toOption.map Sql.text =
      some "select count(*) as aggregate from `users`" := by decide +kernel
  have hcounted : q.counting.bind Query.sql = .ok count := by
    rw [hcounting]
    exact hcount
  rw [hcounted] at hwritten
  exact ⟨s, sql, counting, count, hs, hsql, he.symm, htext, hcounting, hcount,
    Option.some.inj hwritten, halike, hrows, hanswer⟩

end Query

end FluentSql
