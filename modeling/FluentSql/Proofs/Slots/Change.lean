import FluentSql.Proofs.Slots.Fluent
import FluentSql.Statement.Change

namespace FluentSql

namespace Grammar

variable {g : Grammar} {q : Query} {s : Sql}

theorem slots_target (h : g.target q = .ok s) : s.slots = q.source.elim [] Reference.values := by
  simp only [target, bind_eq_ok] at h
  obtain ⟨_, -, h⟩ := h
  cases hq : q.source with
  | some source =>
    rw [hq] at h
    cases h
    exact slots_tableReference source
  | none =>
    rw [hq] at h
    cases h

theorem slots_assignedValues {record : Record Value} (h : g.assignedValues record = .ok s) :
    s.slots = record.values := by
  simp only [assignedValues, bind_eq_ok, pure_eq_ok] at h
  obtain ⟨sets, hsets, rfl⟩ := h
  rw [Sql.slots_join]
  refine flatMap_mapM (fun entry set hset ↦ ?_) hsets
  simp only [bind_eq_ok, pure_eq_ok] at hset
  obtain ⟨column, -, rfl⟩ := hset
  simp

/-- Only MySQL writes orderings here. -/
theorem slots_orderAndLimit {t : Sql} (h : g.orderAndLimit q s = .ok t) :
    t.slots = s.slots ++ if g.dialect = .mysql then q.orders.flatMap Order.values else [] := by
  unfold orderAndLimit at h
  split at h
  · rename_i hd
    simp only [bind_eq_ok, pure_eq_ok] at h
    obtain ⟨orders, horders, rfl⟩ := h
    have htail : ([orders, g.limitClause? q.limit].filterMap id).flatMap Sql.slots =
        q.orders.flatMap Order.values := by
      rw [← Sql.slots_join " ", Sql.slots_join_filterMap]
      simp [slots_orderClause? horders]
    rw [Sql.slots_join, List.flatMap_cons, htail, if_pos hd]
  · rename_i hd
    cases h
    rw [if_neg hd, List.append_nil]

@[simp] theorem slots_conditions (e : Embedded) :
    (conditions q e).slots = e.conditions.flatMap fun t ↦ t.2.slots := by
  rw [← Clauses.slots_conditionClause? (c := q.toClauses)]
  unfold conditions
  cases q.conditionClause? e.conditions <;> rfl

@[simp] theorem slots_aliasOf (table : Sql) : (aliasOf table).slots = [] := by
  unfold aliasOf
  split <;> rfl

/-- Which values a query has bound makes no difference to its text. -/
theorem select_withBindings (c : Clauses) (bindings : Bindings) (joins : List (Join Query))
    (conditions : List (Condition Query)) (unions : List (Member Query)) :
    g.select ⟨{ c with bindings }, joins, conditions, unions⟩ =
      g.select ⟨c, joins, conditions, unions⟩ := by
  simp only [select]
  rfl

theorem rowIdentifier?_eq_some {identifier : String} (h : g.rowIdentifier? q = some identifier) :
    g.dialect = .postgres ∨ g.dialect = .sqlite := by
  unfold rowIdentifier? at h
  split at h
  · cases h
  · split at h
    · rename_i hd
      exact .inl hd
    · rename_i hd
      exact .inr hd
    · cases h

theorem rowIdentifier?_eq_none (h : g.rowIdentifier? q = none) :
    (g.dialect = .postgres ∨ g.dialect = .sqlite) → q.joins = [] ∧ q.limit = none := by
  unfold rowIdentifier? at h
  split at h
  · rename_i hq
    intro _
    exact ⟨List.isEmpty_iff.1 hq.1, Option.isNone_iff_eq_none.1 hq.2⟩
  · rintro (hd | hd) <;> simp [hd] at h

end Grammar

namespace Query

open Grammar

/-- What a statement that changes rows writes of a query. Orderings are written for the rows of one
table by MySQL, and by Postgres and SQLite in the select of the rows. -/
structure Changes (g : Grammar) (q : Query) : Prop where
  source : ∃ name, q.source = some (.name name)
  groups : q.groups = []
  havings : q.havings = []
  unions : q.unions = []
  orders : q.orders ≠ [] → (g.dialect = .mysql ∧ q.joins = []) ∨
    ((g.dialect = .postgres ∨ g.dialect = .sqlite) ∧ (q.joins ≠ [] ∨ q.limit ≠ none))

/-- A named table, and values only for clauses that a statement that changes its rows writes. Where
rows are not named physically, these are joins and conditions, and for MySQL the orderings of one
table. -/
structure Sends (g : Grammar) (q : Query) : Prop where
  source : ∃ name, q.source = some (.name name)
  unwritten : g.rowIdentifier? q = none → q.bindings.groups = [] ∧ q.bindings.havings = [] ∧
    q.bindings.unions = [] ∧ q.bindings.unionOrders = []
  orders : g.rowIdentifier? q = none → q.bindings.orders ≠ [] →
    g.dialect = .mysql ∧ q.joins = []

section

variable {g : Grammar} {q : Query} {s : Sql}

theorem Changes.sends (hc : Changes g q) (h : q.Aligned g .select) : Sends g q := by
  have hs (kind : ClauseKind) : q.Shows g kind (q.bindings.get kind) :=
    h.shows kind fun hr ↦ absurd hr (by decide)
  have hgroups := hs .groups
  have hhavings := hs .havings
  have hunions := hs .unions [] (by rw [hc.unions]; rfl)
  have hunionOrders := hs .unionOrders
  have horders : q.orders.flatMap Order.values = q.bindings.orders := hs .orders
  simp only [Shows, Clauses.shown, Bindings.get, hc.groups, hc.havings, List.flatMap_nil,
    h.unionOrders hc.unions] at hgroups hhavings hunions hunionOrders
  refine ⟨hc.source, fun _ ↦ ⟨hgroups.symm, hhavings.symm, hunions.symm, hunionOrders.symm⟩,
    fun hr hne ↦ ?_⟩
  have ho : q.orders ≠ [] := by
    intro ho
    rw [ho] at horders
    exact hne horders.symm
  obtain hm | ⟨hd, hjl⟩ := hc.orders ho
  · exact hm
  · obtain ⟨hj, hl⟩ := rowIdentifier?_eq_none hr hd
    exact absurd hjl (by simp [hj, hl])

theorem Sends.source_values (hc : Sends g q) : q.source.elim [] Reference.values = [] := by
  obtain ⟨name, hname⟩ := hc.source
  rw [hname]
  rfl

namespace Aligned

/-- Of the values, a statement that changes rows has those of joins, conditions and orderings. -/
theorem flattenExcept_of_sends (h : q.Aligned g .select) (hc : Sends g q)
    (hr : g.rowIdentifier? q = none) :
    q.bindings.flattenExcept [.columns] =
        q.bindings.joins ++ q.bindings.conditions ++ q.bindings.orders ∧
      q.bindings.flattenExcept [.columns, .joins] =
        q.bindings.conditions ++ q.bindings.orders := by
  have hsource : q.source.elim [] Reference.values = q.bindings.source :=
    h.shows .source fun hr ↦ absurd hr (by decide)
  rw [hc.source_values] at hsource
  obtain ⟨hgroups, hhavings, hunions, hunionOrders⟩ := hc.unwritten hr
  constructor <;>
    simp [Bindings.flattenExcept, Bindings.flattenIn, ClauseKind.all, Bindings.get, ← hsource,
      hgroups, hhavings, hunions, hunionOrders]

/-- Where rows are not named physically, the orderings of a query are written by MySQL alone. -/
theorem bindings_orders (h : q.Aligned g .select) (hc : Sends g q)
    (hr : g.rowIdentifier? q = none) :
    q.bindings.orders = if g.dialect = .mysql then q.orders.flatMap Order.values else [] := by
  have horders : q.orders.flatMap Order.values = q.bindings.orders :=
    h.shows .orders fun hr ↦ absurd hr (by decide)
  split
  · exact horders.symm
  · rename_i hd
    by_contra hne
    exact hd (hc.orders hr hne).1

theorem bindings_orders_of_joins (hc : Sends g q) (hr : g.rowIdentifier? q = none)
    (hj : q.joins ≠ []) : q.bindings.orders = [] := by
  by_contra hne
  exact hj (hc.orders hr hne).2

theorem bindings_joins (h : q.Aligned g .select) (hj : q.joins = []) : q.bindings.joins = [] :=
  (h.shows .joins (fun hr ↦ absurd hr (by decide)) [] (by rw [hj]; rfl)).symm

theorem slots_embedded (h : q.Aligned g .select) {e : Embedded} (he : g.embedded q = .ok e) :
    e.joins.flatMap Sql.slots = q.bindings.joins ∧
      e.conditions.flatMap (fun t ↦ t.2.slots) = q.bindings.conditions := by
  simp only [Grammar.embedded, bind_eq_ok, pure_eq_ok] at he
  obtain ⟨joins, hjoins, conditions, hconditions, rfl⟩ := he
  exact ⟨h.shows .joins (fun hr ↦ absurd hr (by decide)) joins hjoins,
    h.shows .conditions (fun hr ↦ absurd hr (by decide)) conditions hconditions⟩

theorem slots_selectRows (h : q.Aligned g .select) (hd : g.dialect ≠ .sqlServer)
    {identifier : String} (hs : g.selectRows q identifier = .ok s) :
    s.slots = q.bindings.flattenExcept [.columns] := by
  simp only [Grammar.selectRows] at hs
  split at hs
  · cases hs
  · have hselect := (select_withBindings _ (q.bindings.clear .columns) _ _ _).trans hs
    rw [(h.select [.name _] rfl).slots_select hselect]
    have hg : q.grammar.dialect ≠ .sqlServer := by rwa [h.grammar]
    simp only [allBindings, bindingOrder, Query.select, clearBindings, hg, false_and, if_false]
    rfl

theorem slots_ordered (h : q.Aligned g .select) (hc : Sends g q)
    (hr : g.rowIdentifier? q = none) {e : Embedded} (he : g.embedded q = .ok e) {head : Sql}
    (hs : g.orderAndLimit q (head ++ Grammar.conditions q e).trimEnd = .ok s) :
    s.slots = head.slots ++ (q.bindings.conditions ++ q.bindings.orders) := by
  rw [slots_orderAndLimit hs, Sql.slots_trimEnd, Sql.slots_append, slots_conditions,
    (h.slots_embedded he).2, h.bindings_orders hc hr, List.append_assoc]

/-- The values of an update are those of its placeholders, whatever shape it takes. -/
theorem slots_update_of_sends (h : q.Aligned g .select) (hc : Sends g q) {record : Record Value}
    (hs : g.update q record = .ok s) : s.slots = g.updateBindings q.bindings record := by
  simp only [Grammar.update, bind_eq_ok] at hs
  obtain ⟨table, htable, hs⟩ := hs
  have htable := (slots_target htable).trans hc.source_values
  split at hs
  · rename_i identifier hr
    have hd := rowIdentifier?_eq_some hr
    simp only [bind_eq_ok, pure_eq_ok] at hs
    obtain ⟨sets, hsets, rows, hrows, _, -, rfl⟩ := hs
    have hsets := slots_assignedValues hsets
    have hrows := h.slots_selectRows (by rcases hd with hd | hd <;> simp [hd]) hrows
    rcases hd with hd | hd <;> simp [updateBindings, hd, htable, hsets, hrows]
  · rename_i hr
    simp only [bind_eq_ok] at hs
    obtain ⟨sets, hsets, e, he, hs⟩ := hs
    have hsets := slots_assignedValues hsets
    obtain ⟨hall, hbehind⟩ := h.flattenExcept_of_sends hc hr
    obtain ⟨hjoins, hconditions⟩ := h.slots_embedded he
    split at hs
    · rename_i hj
      have hj := h.bindings_joins (List.isEmpty_iff.1 hj)
      simp only [bind_eq_ok, pure_eq_ok] at hs
      obtain ⟨t, ht, rfl⟩ := hs
      rw [Sql.slots_trimEnd, h.slots_ordered hc hr he ht]
      cases hd : g.dialect <;> simp [updateBindings, hd, hall, hbehind, hj, htable, hsets]
    · rename_i hj
      have hne : q.joins ≠ [] := fun hq ↦ hj (List.isEmpty_iff.2 hq)
      have ho := bindings_orders_of_joins hc hr hne
      split at hs
      · rename_i hd
        cases pure_eq_ok.1 hs
        simp [updateBindings, hd, hall, ho, htable, hsets, Sql.slots_join, hjoins, hconditions]
      · rename_i hd
        cases pure_eq_ok.1 hs
        have hd' : g.dialect = .generic ∨ g.dialect = .mysql := by
          have hrows := rowIdentifier?_eq_none hr
          cases hg : g.dialect <;> simp_all
        rcases hd' with hd | hd <;>
          simp [updateBindings, hd, hbehind, ho, htable, hsets, Sql.slots_join, hjoins, hconditions]

theorem slots_delete_of_sends (h : q.Aligned g .select) (hc : Sends g q)
    (hs : g.delete q = .ok s) : s.slots = deleteBindings q.bindings := by
  simp only [Grammar.delete, bind_eq_ok] at hs
  obtain ⟨table, htable, hs⟩ := hs
  have htable := (slots_target htable).trans hc.source_values
  split at hs
  · rename_i identifier hr
    have hd := rowIdentifier?_eq_some hr
    simp only [bind_eq_ok, pure_eq_ok] at hs
    obtain ⟨rows, hrows, _, -, rfl⟩ := hs
    have hrows := h.slots_selectRows (by rcases hd with hd | hd <;> simp [hd]) hrows
    simp [deleteBindings, htable, hrows]
  · rename_i hr
    simp only [bind_eq_ok] at hs
    obtain ⟨e, he, hs⟩ := hs
    obtain ⟨hall, -⟩ := h.flattenExcept_of_sends hc hr
    obtain ⟨hjoins, hconditions⟩ := h.slots_embedded he
    rw [deleteBindings, hall]
    split at hs
    · rename_i hj
      have hj := h.bindings_joins (List.isEmpty_iff.1 hj)
      simp only [bind_eq_ok, pure_eq_ok] at hs
      obtain ⟨t, ht, rfl⟩ := hs
      rw [Sql.slots_trimEnd, h.slots_ordered hc hr he ht]
      simp [hj, htable]
    · rename_i hj
      have hne : q.joins ≠ [] := fun hq ↦ hj (List.isEmpty_iff.2 hq)
      have ho := bindings_orders_of_joins hc hr hne
      cases pure_eq_ok.1 hs
      simp [ho, htable, Sql.slots_join, hjoins, hconditions]

theorem slots_update (h : q.Aligned g .select) (hc : Changes g q) {record : Record Value}
    (hs : g.update q record = .ok s) : s.slots = g.updateBindings q.bindings record :=
  h.slots_update_of_sends (hc.sends h) hs

theorem slots_delete (h : q.Aligned g .select) (hc : Changes g q) (hs : g.delete q = .ok s) :
    s.slots = deleteBindings q.bindings :=
  h.slots_delete_of_sends (hc.sends h) hs

end Aligned

end

/-- Whatever steps build a query with a named table, the placeholders of an update and of a delete
stand for the values that are sent along, each in its place. -/
theorem slots_change (g : Grammar) (macros : Macros) (steps : List Step) (record : Record Value)
    (hp : properSteps { grammar := g, macros } steps)
    (hc : Changes g (Query.run { grammar := g, macros } steps).1) :
    (∀ s, g.update (Query.run { grammar := g, macros } steps).1 record = .ok s →
      s.slots = g.updateBindings (Query.run { grammar := g, macros } steps).1.bindings record) ∧
    ∀ s, g.delete (Query.run { grammar := g, macros } steps).1 = .ok s →
      s.slots = deleteBindings (Query.run { grammar := g, macros } steps).1.bindings := by
  have hstart : Aligned g .select { grammar := g, macros } :=
    Aligned.start g macros rfl fun _ ↦ rfl
  have h : (Query.run { grammar := g, macros } steps).1.Aligned g .select :=
    Step.aligned_runAllWith hstart (aligned_callWithin _) steps hp
  exact ⟨fun s ↦ h.slots_update hc, fun s ↦ h.slots_delete hc⟩

def joinedRows : List Step := [
  .source (.name "users as u"),
  .selectRaw "rank(?)" [.value (.int32 0)],
  .joinQuery .left [.sourceRaw "log(?)" [.value (.int32 1)], .limit 3] "l" "l.user" .equal "u.id",
  .joinWith .inner (.name "posts") [.compareColumns .and "posts.user" .equal "u.id",
    .rawCondition .or "posts.hot > ?" [.value (.int32 2)]],
  .exist .and true [.source (.name "bans"),
    .isIn .and false "level" [.bound (.value (.int32 4)), .raw "max()",
      .bound (.value (.int32 5))]],
  .limit 7]

theorem slots_change_joinedRows :
    let g : Grammar := { dialect := .mysql, tablePrefix := "app_" }
    let q := (Query.run { grammar := g } joinedRows).1
    let record : Record Value := [("age", .raw "age + 1"), ("name", .bound (.int32 3))]
    properSteps { grammar := g } joinedRows ∧ Changes g q ∧
      (∃ s, g.update q record = .ok s ∧ s.slots = g.updateBindings q.bindings record ∧
        s.slots.map Value.text = ["1", "2", "3", "4", "5"]) ∧
      ∃ s, g.delete q = .ok s ∧ s.slots = deleteBindings q.bindings ∧
        s.slots.map Value.text = ["1", "2", "4", "5"] := by
  intro g q record
  have hp : properSteps { grammar := g } joinedRows := by decide +kernel
  have hc : Changes g q := ⟨⟨"users as u", rfl⟩, rfl, rfl, rfl, fun ho ↦ absurd rfl ho⟩
  obtain ⟨hupdate, hdelete⟩ := slots_change g {} joinedRows record hp hc
  obtain ⟨s, hs, htext⟩ : ∃ s, g.update q record = .ok s ∧
      s.slots.map Value.text = ["1", "2", "3", "4", "5"] :=
    exists_ok_of_map_toOption (by decide +kernel)
  obtain ⟨s', hs', htext'⟩ : ∃ s, g.delete q = .ok s ∧
      s.slots.map Value.text = ["1", "2", "4", "5"] :=
    exists_ok_of_map_toOption (by decide +kernel)
  exact ⟨hp, hc, ⟨s, hs, hupdate s hs, htext⟩, s', hs', hdelete s' hs', htext'⟩

def replacedSource : List Step := [
  .source (.name "users"),
  .exist .and false [.sourceRaw "f(?)" [.value (.int32 1)], .source (.name "posts")]]

/-- The value of a source stays bound when another table takes its place, and no placeholder is left
for it. -/
theorem slots_change_replacedSource :
    let g : Grammar := { dialect := .generic }
    let q := (Query.run { grammar := g } replacedSource).1
    let record : Record Value := [("name", .bound (.int32 2))]
    Changes g q ∧
      (∃ s, g.update q record = .ok s ∧ s.slots.map Value.text = ["2"] ∧
        (g.updateBindings q.bindings record).map Value.text = ["2", "1"]) ∧
      ∃ s, g.delete q = .ok s ∧ s.slots.map Value.text = [] ∧
        (deleteBindings q.bindings).map Value.text = ["1"] := by
  intro g q record
  have hc : Changes g q := ⟨⟨"users", rfl⟩, rfl, rfl, rfl, fun ho ↦ absurd rfl ho⟩
  obtain ⟨s, hs, htext⟩ : ∃ s, g.update q record = .ok s ∧ s.slots.map Value.text = ["2"] :=
    exists_ok_of_map_toOption (by decide +kernel)
  obtain ⟨s', hs', htext'⟩ : ∃ s, g.delete q = .ok s ∧ s.slots.map Value.text = [] :=
    exists_ok_of_map_toOption (by decide +kernel)
  exact ⟨hc, ⟨s, hs, htext, by decide +kernel⟩, s', hs', htext', by decide +kernel⟩

end Query

end FluentSql
