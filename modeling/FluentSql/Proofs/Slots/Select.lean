import FluentSql.Proofs.Slots.Written
import Mathlib.Tactic.Common

namespace FluentSql

namespace Clauses

open Grammar

variable {g : Grammar} {c : Clauses} {e : Embedded}

def shown (c : Clauses) (e : Embedded) : ClauseKind → List Value
  | .columns => (c.columns.getD []).flatMap Reference.values
  | .source => c.source.elim [] Reference.values
  | .joins => e.joins.flatMap Sql.slots
  | .conditions => e.conditions.flatMap fun t ↦ t.2.slots
  | .groups => c.groups.flatMap Reference.values
  | .havings => c.havings.flatMap fun h ↦ h.test.values
  | .orders => c.orders.flatMap Order.values
  | .unions => e.unions.flatMap Sql.slots
  | .unionOrders => c.unionOrders.flatMap Order.values

@[simp] theorem slots_conditionClause? (tests : List (Connective × Sql)) :
    Sql.slots? (c.conditionClause? tests) = tests.flatMap fun t ↦ t.2.slots := by
  unfold conditionClause?
  split
  · rename_i ht
    simp [List.isEmpty_iff.1 ht]
  · simp [slots_connect]

theorem slots_groupClause? {s : Option Sql} (h : c.groupClause? g = .ok s) :
    Sql.slots? s = c.shown e .groups := by
  simp only [groupClause?] at h
  split at h
  · rename_i hg
    cases h
    simp [shown, List.isEmpty_iff.1 hg]
  · obtain ⟨t, ht, rfl⟩ := map_eq_ok.1 h
    simp [shown, slots_references ht]

theorem slots_havingClause? {s : Option Sql} (h : c.havingClause? g = .ok s) :
    Sql.slots? s = c.shown e .havings := by
  simp only [havingClause?] at h
  split at h
  · rename_i hh
    cases h
    simp [shown, List.isEmpty_iff.1 hh]
  · obtain ⟨t, ht, rfl⟩ := map_eq_ok.1 h
    simp [shown, slots_havingClause ht]

theorem slots_columnClause {s : Sql} (h : g.columnClause c = .ok s) :
    s.slots = c.shown e .columns := by
  simp only [columnClause] at h
  split at h
  · rename_i r rs hc
    obtain ⟨columns, hcolumns, h⟩ := bind_eq_ok.1 h
    cases h
    simp [shown, hc, slots_references hcolumns]
  · rename_i hc
    cases h
    rcases hcs : c.columns with _ | _ | ⟨r, rs⟩
    · simp [shown, hcs]
    · simp [shown, hcs]
    · exact absurd hcs (hc r rs)

theorem slots_middle {parts : List (Option Sql)} (h : c.middle g e = .ok parts) :
    parts.flatMap Sql.slots? =
      [ClauseKind.source, .joins, .conditions, .groups, .havings].flatMap (c.shown e) := by
  simp only [middle, bind_eq_ok, pure_eq_ok] at h
  obtain ⟨groups, hgroups, havings, hhavings, rfl⟩ := h
  have hsource : Sql.slots? (c.source.map (g.sourceClause c)) = c.shown e .source := by
    cases hs : c.source <;> simp [shown, hs]
  have hjoins : Sql.slots? (if e.joins.isEmpty then none else some (.join " " e.joins)) =
      c.shown e .joins := by
    split
    · rename_i hj
      simp [shown, List.isEmpty_iff.1 hj]
    · simp [shown, Sql.slots_join]
  simp only [List.flatMap_cons, List.flatMap_nil, hsource, hjoins, slots_conditionClause?,
    slots_groupClause? (e := e) hgroups, slots_havingClause? (e := e) hhavings]
  rfl

theorem slots_unionTail {s : Sql} (h : c.unionTail g e = .ok s) :
    s.slots = c.shown e .unions ++ c.shown e .unionOrders := by
  simp only [unionTail, bind_eq_ok, pure_eq_ok] at h
  obtain ⟨orders, horders, rfl⟩ := h
  have htail := Sql.slots_join_filterMap " "
    [orders, g.limitClause? c.unionLimit, g.offsetClause? c.unionOffset]
  simp only [Sql.slots_join] at htail
  rw [Sql.slots_join, List.flatMap_append, htail]
  simp [shown, slots_orderClause? horders]

theorem slots_plain {s : Sql} (hu : e.unions = [] → c.unionOrders = [])
    (ha : c.aggregate = none) (h : c.plain g e = .ok s) :
    s.slots = (if g.dialect = .sqlServer ∧ Query.skipsRows c then
      [.columns, .orders, .source, .joins, .conditions, .groups, .havings, .unions, .unionOrders]
      else ClauseKind.all).flatMap (c.shown e) := by
  have hnone (he : e.unions = []) : c.shown e .unions = [] ∧ c.shown e .unionOrders = [] := by
    simp [shown, he, hu he]
  have hwindows : [g.limitClause? c.limit, g.offsetClause? c.offset,
      c.lock.bind g.lockClause?].flatMap Sql.slots? = [] := by
    simp
  simp only [plain, ha] at h
  split at h
  · cases h
  · rename_i hrows
    simp only [bind_eq_ok] at h
    obtain ⟨columns, hcolumns, middle, hmiddle, orders, horders, h⟩ := h
    have hc := slots_columnClause (e := e) hcolumns
    have hm := slots_middle hmiddle
    have ho : Sql.slots? orders = c.shown e .orders := slots_orderClause? horders
    split at h
    · rename_i hnumbered
      have he : e.unions = [] := by
        by_contra hne
        exact hrows ⟨hnumbered, by simpa [List.isEmpty_iff] using hne⟩
      cases pure_eq_ok.1 h
      rw [if_pos hnumbered]
      simp only [Sql.slots_append, Sql.slots_join_filterMap, List.cons_append, List.flatMap_cons,
        List.flatMap_append, hm, hwindows]
      simp [hc, ho, hnone he]
    · rename_i hnumbered
      have hbody : (Sql.join " " ((some columns :: middle ++ orders ::
          [g.limitClause? c.limit, g.offsetClause? c.offset,
            c.lock.bind g.lockClause?]).filterMap id)).slots =
          [ClauseKind.columns, .source, .joins, .conditions, .groups, .havings, .orders].flatMap
            (c.shown e) := by
        rw [Sql.slots_join_filterMap]
        simp [hm, hc, ho]
      rw [if_neg hnumbered]
      split at h
      · rename_i he
        cases pure_eq_ok.1 h
        rw [hbody]
        simp [ClauseKind.all, hnone (List.isEmpty_iff.1 he)]
      · simp only [bind_eq_ok, pure_eq_ok] at h
        obtain ⟨tail, htail, rfl⟩ := h
        rw [Sql.slots_append, Sql.slots_append, slots_unionMember, hbody, slots_unionTail htail]
        simp [ClauseKind.all]

theorem slots_assemble {s : Sql} (hu : e.unions = [] → c.unionOrders = [])
    (ha : c.aggregate = none) (h : c.assemble g e = .ok s) :
    s.slots = (if g.dialect = .sqlServer ∧ Query.skipsRows c then
      [.columns, .orders, .source, .joins, .conditions, .groups, .havings, .unions, .unionOrders]
      else ClauseKind.all).flatMap (c.shown e) := by
  simp only [assemble, ha] at h
  exact slots_plain hu ha h

end Clauses

namespace Grammar

variable {g : Grammar}

theorem slots_joinText (kind : JoinKind) (table : Reference) (c : Clauses) (e : Embedded) :
    (g.joinText kind table c e).slots =
      table.values ++ e.joins.flatMap Sql.slots ++ e.conditions.flatMap fun t ↦ t.2.slots := by
  have hconditions : ((c.conditionClause? e.conditions).getD .empty).slots =
      e.conditions.flatMap fun t ↦ t.2.slots := by
    rw [← Clauses.slots_conditionClause? (c := c)]
    cases c.conditionClause? e.conditions <;> rfl
  simp only [joinText, Sql.slots_trimEnd, Sql.slots_append, hconditions]
  split
  · rename_i hj
    simp [List.isEmpty_iff.1 hj]
  · simp [Sql.slots_join]

def joinOf (g : Grammar) (j : Join Query) : Except Error Sql := do
  let joins ← g.joinList j.clause.joins
  let conditions ← g.conditionList j.clause.conditions
  return g.joinText j.kind j.table j.clause.toClauses ⟨joins, conditions, []⟩

def conditionOf (g : Grammar) (c : Condition Query) : Except Error (Connective × Sql) := do
  return (c.connective, ← g.test c.test)

def memberOf (g : Grammar) (m : Member Query) : Except Error Sql := do
  return ((if m.all then "union all " else "union " : String) ++
    g.unionMember (← g.select m.query))

theorem joinList_eq_mapM (joins : List (Join Query)) : g.joinList joins = joins.mapM g.joinOf := by
  induction joins with
  | nil => rfl
  | cons j joins ih =>
    obtain ⟨kind, table, clause⟩ := j
    cases clause
    rw [List.mapM_cons, ← ih]
    simp only [joinList, joinOf, bind_assoc, pure_bind]

theorem conditionList_eq_mapM (conditions : List (Condition Query)) :
    g.conditionList conditions = conditions.mapM g.conditionOf := by
  induction conditions with
  | nil => rfl
  | cons c conditions ih =>
    rw [List.mapM_cons, ← ih]
    simp only [conditionList, conditionOf, bind_assoc, pure_bind]

theorem memberList_eq_mapM (members : List (Member Query)) :
    g.memberList members = members.mapM g.memberOf := by
  induction members with
  | nil => rfl
  | cons m members ih =>
    rw [List.mapM_cons, ← ih]
    simp only [memberList, memberOf, bind_assoc, pure_bind]

end Grammar

end FluentSql
