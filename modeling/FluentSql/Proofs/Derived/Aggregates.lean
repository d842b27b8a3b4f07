import FluentSql.Proofs.Derived.Steps
import FluentSql.Proofs.Windows.Framed
import FluentSql.Session.Paging

namespace FluentSql

open Grammar Lexing

theorem eq_of_flatMap_eq {α β : Type} {as : List α} {f f' : α → List β}
    (h : ∀ a ∈ as, (f a).Sublist (f' a)) (he : as.flatMap f = as.flatMap f') :
    ∀ a ∈ as, f a = f' a := by
  induction as with
  | nil => exact nofun
  | cons a as ih =>
    have ha := h a List.mem_cons_self
    have has := fun b hb ↦ h b (List.mem_cons_of_mem _ hb)
    have hrest := (List.Sublist.flatMap_right as has).length_le
    have hlength := congrArg List.length he
    simp only [List.flatMap_cons, List.length_append] at hlength
    have hfa : f a = f' a := ha.eq_of_length_le (by omega)
    simp only [List.flatMap_cons, hfa, List.append_cancel_left_eq] at he
    intro b hb
    rcases List.mem_cons.1 hb with rfl | hb
    · exact hfa
    · exact ih has he b hb

namespace Query

variable {g : Grammar} {q : Query} {s : Sql}

theorem mem_bindingOrder (q : Query) (kind : ClauseKind) : kind ∈ q.bindingOrder := by
  unfold bindingOrder
  split <;> cases kind <;> decide

/-- If all values of a query have a placeholder, those of each clause have theirs there. -/
theorem Kept.aligned (h : q.Kept g) (hj : q.isJoin = false) (hs : q.sql = .ok s)
    (ha : s.slots = q.allBindings) : q.Aligned g .select := by
  obtain ⟨c, joins, conditions, unions⟩ := q
  have hg : c.grammar = g := h.grammar
  simp only [Query.sql, hg, Grammar.select, bind_eq_ok] at hs
  obtain ⟨_, -, js, hjs, cs, hcs, us, hus, hs⟩ := hs
  have hunions : us = [] → c.unionOrders = [] := fun hu ↦
    h.unionOrders ((memberList_eq_nil hus).1 hu)
  have hslots := Clauses.slots_assemble hunions h.aggregate hs
  rw [ha] at hslots
  simp only [allBindings, Bindings.flattenIn, bindingOrder, hg] at hslots
  have heq : ∀ kind, c.shown ⟨js, cs, us⟩ kind = c.bindings.get kind := by
    intro kind
    have hmem := mem_bindingOrder ⟨c, joins, conditions, unions⟩ kind
    simp only [bindingOrder, hg] at hmem
    exact eq_of_flatMap_eq (fun kind _ ↦ h.shown (e := ⟨js, cs, us⟩) hjs hcs hus kind)
      hslots.symm kind hmem
  refine ⟨hg, hj, h.aggregate, fun kind _ ↦ ?_, h.unionOrders, by rintro ⟨⟩⟩
  have hk := heq kind
  cases kind with
  | joins =>
    intro ss hss
    rw [hjs] at hss
    cases hss
    exact hk
  | conditions =>
    intro ts hts
    rw [hcs] at hts
    cases hts
    exact hk
  | unions =>
    intro ss hss
    rw [hus] at hss
    cases hss
    exact hk
  | _ => exact hk

end Query

namespace Clauses

variable {g : Grammar} {c : Clauses} {e : Embedded} {a : Aggregate} {s : Sql}

theorem slots_aggregateColumns (hv : a.columns.flatMap Reference.values = [])
    (h : g.aggregateColumns c a = .ok s) : s.slots = [] := by
  simp only [aggregateColumns, bind_eq_ok, pure_eq_ok] at h
  obtain ⟨columns, hcolumns, rfl⟩ := h
  have hslots := (slots_references hcolumns).trans hv
  split <;> simp [hslots]

theorem numbered_aggregateColumns (hf : isFixed [] a.function.toList)
    (hc : AllNumbered borders g.reference a.columns) (h : g.aggregateColumns c a = .ok s) :
    s.RowsNumbered := by
  simp only [aggregateColumns, bind_eq_ok, pure_eq_ok] at h
  obtain ⟨columns, hcolumns, rfl⟩ := h
  have hcolumns := (numbered_references hc hcolumns).rowsNumbered
  have harguments : Sql.RowsNumbered
      (if c.distinct ∧ columns.text ≠ "*" then ("distinct " : Sql) ++ columns else columns) := by
    split
    · exact .prefixed (by decide) hcolumns
    · exact hcolumns
  have hfunction : ("select " ++ a.function : Sql).RowsNumbered := .prefixed (by decide) (.fixed hf)
  have hlabel : isClosing [] " as aggregate".toList := by decide
  simpa [Sql.RowsNumbered, Sql.NumberedIn] using
    (hfunction.called harguments).suffixed hlabel

/-- An aggregate of its own shows neither columns nor, over a range of rows, orderings. -/
theorem slots_plain_aggregate (ha : c.aggregate = some a)
    (hv : a.columns.flatMap Reference.values = []) (he : e.unions = [])
    (h : c.plain g e = .ok s) :
    s.slots = ([ClauseKind.source, .joins, .conditions, .groups, .havings].flatMap (c.shown e)) ++
      if g.dialect = .sqlServer ∧ Query.skipsRows c then [] else c.shown e .orders := by
  obtain ⟨head, middle, orders, hhead, hmiddle, horders, hs⟩ := plain_cases h
  simp only [Clauses.head, ha] at hhead
  have hhead := slots_aggregateColumns hv hhead
  have hmiddle := slots_middle hmiddle
  have horders : Sql.slots? orders = c.shown e .orders := slots_orderClause? horders
  have hwindows : (c.windowClauses g).flatMap Sql.slots? = [] := by
    simp [windowClauses]
  rcases hs with ⟨hn, -, rfl⟩ | ⟨hn, ⟨-, rfl⟩ | ⟨hne, -⟩⟩
  · rw [if_pos hn, List.append_nil, ← hmiddle]
    simp only [ranged, ha, Option.isSome_some, if_true, Sql.slots_append, Sql.slots_coe,
      Sql.slots_join_filterMap, List.cons_append, List.flatMap_cons, List.flatMap_append, hwindows,
      Sql.slots?_some, hhead, List.append_nil, List.nil_append]
  · rw [if_neg hn, ← hmiddle, ← horders]
    simp only [body, Sql.slots_join_filterMap, List.cons_append, List.flatMap_cons,
      List.flatMap_append, hwindows, Sql.slots?_some, hhead, List.append_nil, List.nil_append]
  · exact absurd he hne

end Clauses

namespace Query

variable {g : Grammar} {q : Query} {a : Aggregate} {s : Sql}

def counted (q : Query) (a : Aggregate) : Query := { q with aggregate := some a }

/-- Whether an aggregate over the query would be one over a range of rows, with no derived table
around them. -/
def CountsRange (q : Query) : Prop :=
  q.grammar.dialect = .sqlServer ∧ skipsRows q.toClauses ∧ q.unions = [] ∧ q.havings = []

/-- An aggregate is written into the query, or around it as a derived table. -/
theorem counted_cases (hs : g.select (q.counted a) = .ok s) : ∃ e : Embedded,
    (g.joinList q.joins = .ok e.joins ∧ g.conditionList q.conditions = .ok e.conditions ∧
      g.memberList q.unions = .ok e.unions) ∧
    ((q.unions = [] ∧ q.havings = []) ∧ e.unions = [] ∧
        Clauses.plain g { q.toClauses with aggregate := some a } e = .ok s ∨
      ¬ (q.unions = [] ∧ q.havings = []) ∧ ∃ outer inner,
        g.aggregateColumns q.toClauses a = .ok outer ∧
        Clauses.plain g { q.toClauses with aggregate := none } e = .ok inner ∧
        s = outer ++ " from (" ++ inner ++ ") as " ++ g.wrapTable "temp_table") := by
  obtain ⟨c, joins, conditions, unions⟩ := q
  simp only [counted, Grammar.select, bind_eq_ok] at hs
  obtain ⟨_, -, js, hj, cs, hc, us, hu, hs⟩ := hs
  refine ⟨⟨js, cs, us⟩, ⟨hj, hc, hu⟩, ?_⟩
  have hus := memberList_eq_nil hu
  simp only [Clauses.assemble] at hs
  split at hs
  · rename_i hplain
    have he : us = [] := List.isEmpty_iff.1 hplain.1
    exact .inl ⟨⟨hus.1 he, List.isEmpty_iff.1 hplain.2⟩, he, hs⟩
  · rename_i hderived
    simp only [bind_eq_ok, pure_eq_ok] at hs
    obtain ⟨outer, houter, inner, hinner, rfl⟩ := hs
    refine .inr ⟨fun hn ↦ hderived ?_, outer, inner, houter, hinner, rfl⟩
    exact ⟨List.isEmpty_iff.2 (hus.2 hn.1), List.isEmpty_iff.2 hn.2⟩

theorem Aligned.bindings_of_unionless (h : q.Aligned g .select) (hu : q.unions = []) :
    q.bindings.unions = [] ∧ q.bindings.unionOrders = [] := by
  have hs (kind : ClauseKind) : q.Shows g kind (q.bindings.get kind) :=
    h.shows kind fun hr ↦ absurd hr (by decide)
  have hunions := hs .unions [] (by rw [hu]; rfl)
  have hlast := hs .unionOrders
  simp only [Shows, Clauses.shown, h.unionOrders hu, List.flatMap_nil] at hunions hlast
  exact ⟨hunions.symm, hlast.symm⟩

/-- An aggregate has all its values, unless it loses orderings with values. -/
theorem Aligned.slots_counted (h : q.Aligned g .select)
    (hv : a.columns.flatMap Reference.values = [])
    (hc : q.unions = [] → q.havings = [] → q.bindings.columns = [])
    (hs : g.select (q.counted a) = .ok s) :
    s.slots = q.allBindings ↔ ¬ (q.CountsRange ∧ q.bindings.orders ≠ []) := by
  have hg : q.grammar = g := h.grammar
  obtain ⟨e, ⟨hj, hcs, hu⟩, hcases⟩ := counted_cases hs
  have hshown (o : Option Aggregate) :
      Clauses.shown { q.toClauses with aggregate := o } e = q.bindings.get := by
    obtain ⟨c, joins, conditions, unions⟩ := q
    exact funext fun kind ↦ Eq.trans (by cases kind <;> rfl) (h.shown_eq hj hcs hu kind)
  simp only [allBindings, Bindings.flattenIn, bindingOrder, hg]
  obtain ⟨⟨hunions, hhavings⟩, he, hplain⟩ | ⟨hn, outer, inner, houter, hinner, rfl⟩ := hcases
  · have hslots := Clauses.slots_plain_aggregate rfl hv he hplain
    have hskips : skipsRows { q.toClauses with aggregate := some a } = skipsRows q.toClauses := rfl
    have hcolumns : q.bindings.columns = [] := hc hunions hhavings
    obtain ⟨hmembers, hlast⟩ := h.bindings_of_unionless hunions
    rw [hshown, hskips] at hslots
    have hrange : q.CountsRange ↔ g.dialect = .sqlServer ∧ skipsRows q.toClauses := by
      simp [CountsRange, hg, hunions, hhavings]
    rw [hslots, hrange]
    split
    · rename_i hn
      simp [Bindings.get, hcolumns, hmembers, hlast, hn]
    · rename_i hn
      simp [Bindings.get, ClauseKind.all, hcolumns, hmembers, hlast, hn]
  · have hslots := Clauses.slots_plain (c := { q.toClauses with aggregate := none })
      (fun he ↦ h.unionOrders ((memberList_eq_nil hu).1 he)) rfl hinner
    rw [hshown] at hslots
    refine iff_of_true ?_ fun hr ↦ hn hr.1.2.2
    simp only [Sql.slots_append, Sql.slots_coe, Clauses.slots_aggregateColumns hv houter,
      List.nil_append, List.append_nil, hslots]
    rfl

/-- An aggregate over a range of rows has no column with their numbers. -/
theorem CountsRange.exists_parts (h : q.CountsRange) (hg : q.grammar = g)
    (hs : g.select (q.counted a) = .ok s) : ∃ columns parts, ∃ e : Embedded,
      (g.joinList q.joins = .ok e.joins ∧ g.conditionList q.conditions = .ok e.conditions ∧
        g.memberList q.unions = .ok e.unions) ∧
      g.aggregateColumns q.toClauses a = .ok columns ∧ q.toClauses.middle g e = .ok parts ∧
      s = "select * from (" ++ .join " " (columns :: parts.filterMap id) ++
        ") as temp_table where row_num " ++ rowRange q.toClauses ++ " order by row_num" := by
  obtain ⟨hd, hskip, hflat⟩ := h
  have hd : g.dialect = .sqlServer := hg ▸ hd
  obtain ⟨e, he, ⟨-, -, hplain⟩ | ⟨hn, -⟩⟩ := counted_cases hs
  · obtain ⟨columns, parts, orders, hcolumns, hparts, -, ⟨-, -, rfl⟩ | ⟨hn, -⟩⟩ :=
      Clauses.plain_cases hplain
    · refine ⟨columns, parts, e, he, hcolumns, hparts, ?_⟩
      simp only [Clauses.ranged, Option.isSome_some, if_true]
      rw [Clauses.filterMap_windowClauses hd]
      rfl
    · exact absurd ⟨hd, hskip⟩ hn
  · exact absurd hflat hn

theorem Kept.numbered_parts (h : q.Kept g) (hd : g.dialect = .sqlServer) {e : Embedded}
    (hj : g.joinList q.joins = .ok e.joins) (hc : g.conditionList q.conditions = .ok e.conditions)
    (hu : g.memberList q.unions = .ok e.unions) : Clauses.Numbered g q.toClauses e := by
  obtain ⟨c, joins, conditions, unions⟩ := q
  exact h.numbered hd hj hc hu

theorem Kept.not_rowsNumbered_counted (h : q.Kept g) (hf : isFixed [] a.function.toList)
    (hc : AllNumbered borders g.reference a.columns) (hr : q.CountsRange)
    (hs : g.select (q.counted a) = .ok s) : ¬ s.RowsNumbered := by
  obtain ⟨columns, parts, e, ⟨hj, hcs, hu⟩, hcolumns, hparts, rfl⟩ := hr.exists_parts h.grammar hs
  have hnumbered := h.numbered_parts (h.grammar ▸ hr.1) hj hcs hu
  have hbody : (Sql.join " " (columns :: parts.filterMap id)).RowsNumbered := by
    refine .join (by decide) (List.forall_mem_cons.2 ⟨?_, fun s hs ↦ ?_⟩)
    · exact Clauses.numbered_aggregateColumns hf hc hcolumns
    · exact (Sql.NumberedIn.of_parts (hnumbered.middle hparts) s hs).rowsNumbered
  obtain ⟨ts, hts, hbody⟩ := hbody
  obtain ⟨numbers, hnumbers, hrange⟩ := exists_isRange q.toClauses
  rintro ⟨us, hus, hn⟩
  have hread := lexemes_range hts hnumbers
  simp only [Sql.outline_append, Sql.outline_coe] at hus
  rw [hread] at hus
  exact hbody.not_derived hrange [] (Option.some.inj hus ▸ hn)

/-- An aggregate has the row numbers that it asks for, unless it would give them. -/
theorem Kept.rowsNumbered_counted (h : q.Kept g) (hd : g.dialect = .sqlServer)
    (hf : isFixed [] a.function.toList) (hc : AllNumbered borders g.reference a.columns)
    (hn : ¬ q.CountsRange) (hs : g.select (q.counted a) = .ok s) : s.RowsNumbered := by
  obtain ⟨e, ⟨hj, hcs, hu⟩, hcases⟩ := counted_cases hs
  have hnumbered := h.numbered_parts hd hj hcs hu
  have hcounted (o : Option Aggregate) :
      Clauses.Numbered g { q.toClauses with aggregate := o } e := { hnumbered with }
  obtain ⟨hflat, -, hplain⟩ | ⟨-, outer, inner, houter, hinner, rfl⟩ := hcases
  · refine (hcounted (some a)).plain hd ?_ (fun hskip ↦ ?_) hplain
    · rintro _ ⟨⟩ s hs
      exact Clauses.numbered_aggregateColumns hf hc hs
    · exact absurd ⟨by rw [h.grammar]; exact hd, hskip, hflat⟩ hn
  · have houter := Clauses.numbered_aggregateColumns hf hc houter
    have hinner := (hcounted none).plain hd nofun (fun _ ↦ rfl) hinner
    have hfrom : isClosing [] " from ".toList := by decide
    have htable : ReadsNumbered [] (g.wrapTable "temp_table").toList :=
      (numbered_wrapTable hd _).mono (List.nil_subset _)
    have hlabel : isJoint [] " as ".toList := by decide
    simpa [Sql.RowsNumbered, Sql.NumberedIn] using
      ((houter.suffixed hfrom).called hinner).joined hlabel (.text htable)

/-- A range of rows is asked for, by their numbers, of a select of nothing but an aggregate. -/
def AsksInVain (g : Grammar) (q : Query) (s : Sql) : Prop :=
  ∃ a columns e parts, g.aggregateColumns q.toClauses a = .ok columns ∧
    q.toClauses.middle g e = .ok parts ∧
    s = "select * from (" ++ .join " " (columns :: parts.filterMap id) ++
      ") as temp_table where row_num " ++ rowRange q.toClauses ++ " order by row_num"

theorem CountsRange.asksInVain (h : q.CountsRange) (hg : q.grammar = g)
    (hs : g.select (q.counted a) = .ok s) : q.AsksInVain g s :=
  let ⟨columns, parts, e, _, h⟩ := h.exists_parts hg hs
  ⟨a, columns, e, parts, h⟩

end Query

end FluentSql
