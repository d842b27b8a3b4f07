import FluentSql.Proofs.Windows.Recovered
import FluentSql.Proofs.Windows.Setting

namespace FluentSql

namespace Query

/-- Whether one of the windows would be lost for this query. Without unions there are no combined
rows, and no window over them. -/
def LosesWindow (q : Query) (w : Windows) : Prop :=
  q.grammar.Loses w.own ∨ (q.unions ≠ [] ∧ q.grammar.LosesUnion w.union)

instance (q : Query) (w : Windows) : Decidable (q.LosesWindow w) :=
  inferInstanceAs
    (Decidable (q.grammar.Loses w.own ∨ (q.unions ≠ [] ∧ q.grammar.LosesUnion w.union)))

variable {q : Query} {w w' : Windows} {s s' : Sql}

theorem text_withWindows (ha : q.aggregate = none) (h : (q.withWindows w).sql = .ok s) :
    ∃ l, q.grammar.layout q = .ok l ∧ (l.combination = none ↔ q.unions = []) ∧
      s.text = l.write (q.grammar.bound w.own) (q.grammar.unionBound w.union) := by
  obtain ⟨l, hl, hu, ht⟩ := Grammar.select_eq_ok (q := q.withWindows w) ha h
  exact ⟨l, (Grammar.layout_withWindows _ q w).symm.trans hl, hu, ht⟩

theorem positions_eq (ha : q.aggregate = none) (h : (q.withWindows w).sql = .ok s)
    (h' : (q.withWindows w').sql = .ok s') (hw : ¬ q.LosesWindow w) (hw' : ¬ q.LosesWindow w')
    (ht : s.text = s'.text) :
    w.own.positions = w'.own.positions ∧
      (q.unions ≠ [] → w.union.positions = w'.union.positions) := by
  obtain ⟨l, hl, hu, hs⟩ := text_withWindows ha h
  obtain ⟨l', hl', -, hs'⟩ := text_withWindows ha h'
  obtain rfl : l = l' := Except.ok.inj (hl.symm.trans hl')
  obtain ⟨hown, hunion⟩ := Layout.bounds_inj (hs.symm.trans (ht.trans hs'))
  obtain ⟨hlo, hlu⟩ := not_or.1 hw
  obtain ⟨hlo', hlu'⟩ := not_or.1 hw'
  constructor
  · refine Window.positions_eq_of_rows fun rows ↦ ?_
    rw [← Grammar.rows_bound hlo, ← Grammar.rows_bound hlo', hown]
  · intro hne
    refine Window.positions_eq_of_rows fun rows ↦ ?_
    rw [← Grammar.rows_unionBound fun hl ↦ hlu ⟨hne, hl⟩,
      ← Grammar.rows_unionBound fun hl ↦ hlu' ⟨hne, hl⟩, hunion fun hc ↦ hne (hu.1 hc)]

/-- Whatever steps build a query, and whatever windows it is given: what is written is one text for
the query with a bound for each window, which returns the rows that the window asks for, of rows
without duplicates where those are not to be returned and SQL Server does not count them. Texts for
two pairs of windows are the same only if the same rows are asked for. -/
theorem windows_kept (g : Grammar) (macros : Macros) (steps : List Step) :
    let q := (Query.run { grammar := g, macros } steps).1
    (∀ w s, (q.withWindows w).sql = .ok s → ¬ q.LosesWindow w →
      ∃ l, g.layout q = .ok l ∧ (l.combination = none ↔ q.unions = []) ∧
        s.text = l.write (g.bound w.own) (g.unionBound w.union) ∧
        (∀ (α : Type) [DecidableEq α] (rows : List α),
          (g.bound w.own).selected q.distinct rows =
            w.own.rows (if g.CountsDuplicates q.distinct w.own then rows
              else distinctRows q.distinct rows)) ∧
        (q.unions ≠ [] → ∀ (α : Type) (rows : List α),
          (g.unionBound w.union).rows rows = w.union.rows rows)) ∧
    ∀ w w' s s', (q.withWindows w).sql = .ok s → (q.withWindows w').sql = .ok s' →
      ¬ q.LosesWindow w → ¬ q.LosesWindow w' → s.text = s'.text →
      w.own.positions = w'.own.positions ∧
        (q.unions ≠ [] → w.union.positions = w'.union.positions) := by
  intro q
  have hsetting : q.setting = (g, none) := setting_run _ steps
  have hg : q.grammar = g := congrArg Prod.fst hsetting
  have ha : q.aggregate = none := congrArg Prod.snd hsetting
  constructor
  · intro w s h hw
    obtain ⟨l, hl, hu, ht⟩ := text_withWindows ha h
    obtain ⟨hown, hunion⟩ := not_or.1 hw
    rw [hg] at hl ht hown hunion
    exact ⟨l, hl, hu, ht, fun α _ ↦ Grammar.selected_bound hown,
      fun hne α ↦ Grammar.rows_unionBound fun hl ↦ hunion ⟨hne, hl⟩⟩
  · intro w w' s s' h h' hw hw' ht
    exact positions_eq ha h h' hw hw' ht

def thirdPage : List Step := [
  .source (.name "users"), .orderBy (.name "id") .descending, .page 3 10]

theorem windows_kept_thirdPage :
    let g : Grammar := { dialect := .sqlServer }
    let q := (Query.run { grammar := g } thirdPage).1
    let first : Windows := ⟨⟨some 10, none⟩, {}⟩
    let first' : Windows := ⟨⟨some 10, some 0⟩, {}⟩
    (∃ s, (q.withWindows q.windows).sql = .ok s ∧ ¬ q.LosesWindow q.windows ∧
      s.text = "select * from (select *, row_number() over (order by [id] desc) as row_num " ++
        "from [users]) as temp_table where row_num between 21 and 30 order by row_num" ∧
      ∀ rows : List Nat,
        (g.bound q.windows.own).selected q.distinct rows = (rows.drop 20).take 10) ∧
    ∃ s s', (q.withWindows first).sql = .ok s ∧ (q.withWindows first').sql = .ok s' ∧
      ¬ q.LosesWindow first ∧ ¬ q.LosesWindow first' ∧ s.text = s'.text ∧
      first.own.positions = first'.own.positions := by
  intro g q first first'
  obtain ⟨hkept, hsame⟩ := windows_kept g {} thirdPage
  have hq : ¬ q.LosesWindow q.windows := by decide +kernel
  have hfirst : ¬ q.LosesWindow first := by decide +kernel
  have hfirst' : ¬ q.LosesWindow first' := by decide +kernel
  obtain ⟨s, hs, ht⟩ : ∃ s, (q.withWindows q.windows).sql = .ok s ∧
      s.text = "select * from (select *, row_number() over (order by [id] desc) as row_num " ++
        "from [users]) as temp_table where row_num between 21 and 30 order by row_num" :=
    exists_ok_of_map_toOption (by decide +kernel)
  obtain ⟨t, ht₁, ht₂⟩ : ∃ t, (q.withWindows first).sql = .ok t ∧
      t.text = "select top 10 * from [users] order by [id] desc" :=
    exists_ok_of_map_toOption (by decide +kernel)
  obtain ⟨t', ht₁', ht₂'⟩ : ∃ t, (q.withWindows first').sql = .ok t ∧
      t.text = "select top 10 * from [users] order by [id] desc" :=
    exists_ok_of_map_toOption (by decide +kernel)
  obtain ⟨-, -, -, -, hrows, -⟩ := hkept q.windows s hs hq
  have hp := (hsame first first' t t' ht₁ ht₁' hfirst hfirst' (ht₂.trans ht₂'.symm)).1
  have hd : ¬ g.CountsDuplicates q.distinct q.windows.own := by decide +kernel
  have hthird (rows : List Nat) :
      (g.bound q.windows.own).selected q.distinct rows = (rows.drop 20).take 10 := by
    rw [hrows, if_neg hd]
    rfl
  exact ⟨⟨s, hs, hq, ht, hthird⟩, t, t', ht₁, ht₁', hfirst, hfirst', ht₂.trans ht₂'.symm, hp⟩

/-- SQL Server writes a limit of zero, and a limit of combined rows, as if there were none. It skips
no row if the number of the first one is too large, and counts duplicates. -/
theorem windows_kept_lost :
    let g : Grammar := { dialect := .sqlServer }
    let users := (Query.run { grammar := g } [.source (.name "users")]).1
    let nothing := (Query.run { grammar := g } [.source (.name "users"), .limit 0]).1
    let both := (Query.run { grammar := g }
      [.source (.name "users"), .unite true [.source (.name "posts")]]).1
    let five := (Query.run { grammar := g }
      [.source (.name "users"), .unite true [.source (.name "posts")], .limit 5]).1
    let last := (Query.run { grammar := g }
      [.source (.name "users"), .offset (UInt64.size - 1)]).1
    let second := (Query.run { grammar := g }
      [.source (.name "users"), .select [.name "name"], .distinct, .offset 1]).1
    (nothing = users.withWindows nothing.windows ∧
      users.windows.own.positions ≠ nothing.windows.own.positions ∧
      ∃ s s', users.sql = .ok s ∧ nothing.sql = .ok s' ∧ s.text = s'.text) ∧
    (five = both.withWindows five.windows ∧
      both.windows.union.positions ≠ five.windows.union.positions ∧
      ∃ s s', both.sql = .ok s ∧ five.sql = .ok s' ∧ s.text = s'.text) ∧
    (∃ s, last.sql = .ok s ∧
      s.text = "select * from (select *, row_number() over (order by (select 0)) as row_num " ++
        "from [users]) as temp_table where row_num >= 0 order by row_num" ∧
      (g.bound last.windows.own).rows [5] = [5] ∧ last.windows.own.rows [5] = []) ∧
    ∃ s, second.sql = .ok s ∧
      s.text = "select * from (select distinct [name], row_number() over " ++
        "(order by (select 0)) as row_num from [users]) as temp_table " ++
        "where row_num >= 2 order by row_num" ∧
      (g.bound second.windows.own).selected second.distinct [5, 5] = [5] ∧
      second.windows.own.rows (distinctRows second.distinct [5, 5]) = [] := by
  intro g users nothing both five last second
  obtain ⟨s, hs, ht⟩ : ∃ s, users.sql = .ok s ∧ s.text = "select * from [users]" :=
    exists_ok_of_map_toOption (by decide +kernel)
  obtain ⟨s', hs', ht'⟩ : ∃ s, nothing.sql = .ok s ∧ s.text = "select * from [users]" :=
    exists_ok_of_map_toOption (by decide +kernel)
  obtain ⟨u, hu, hut⟩ : ∃ s, both.sql = .ok s ∧
      s.text = "select * from (select * from [users]) as [temp_table] " ++
        "union all select * from (select * from [posts]) as [temp_table]" :=
    exists_ok_of_map_toOption (by decide +kernel)
  obtain ⟨u', hu', hut'⟩ : ∃ s, five.sql = .ok s ∧
      s.text = "select * from (select * from [users]) as [temp_table] " ++
        "union all select * from (select * from [posts]) as [temp_table]" :=
    exists_ok_of_map_toOption (by decide +kernel)
  have hall (i : Nat) : i ∈ Window.positions {} := by
    simp [Window.mem_positions, Window.skip]
  have hnothing : (0 : Nat) ∉ nothing.windows.own.positions := by
    rw [Window.mem_positions]
    decide
  have hfive : (5 : Nat) ∉ five.windows.union.positions := by
    rw [Window.mem_positions]
    decide
  obtain ⟨v, hv, hvt⟩ : ∃ s, last.sql = .ok s ∧
      s.text = "select * from (select *, row_number() over (order by (select 0)) as row_num " ++
        "from [users]) as temp_table where row_num >= 0 order by row_num" :=
    exists_ok_of_map_toOption (by decide +kernel)
  obtain ⟨v', hv', hvt'⟩ : ∃ s, second.sql = .ok s ∧
      s.text = "select * from (select distinct [name], row_number() over " ++
        "(order by (select 0)) as row_num from [users]) as temp_table " ++
        "where row_num >= 2 order by row_num" :=
    exists_ok_of_map_toOption (by decide +kernel)
  exact ⟨⟨rfl, fun h ↦ hnothing (h ▸ hall 0), s, s', hs, hs', ht.trans ht'.symm⟩,
    ⟨rfl, fun h ↦ hfive (h ▸ hall 5), u, u', hu, hu', hut.trans hut'.symm⟩,
    ⟨v, hv, hvt, by decide +kernel, by decide +kernel⟩,
    v', hv', hvt', by decide +kernel, by decide +kernel⟩

end Query

end FluentSql
