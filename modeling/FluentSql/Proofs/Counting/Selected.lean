import FluentSql.Proofs.Counting.Meaning
import FluentSql.Proofs.Lexing.Qualified
import FluentSql.Proofs.Windows.Framed
import FluentSql.Session.Paging

namespace FluentSql

open Grammar

def Core.parts (c : Core) : List (Option Sql) :=
  [c.source, c.joins, c.condition, c.groups, c.havings, c.orders, c.lock]

def Core.head (distinct : Bool) (columns : Sql) : Sql :=
  let verb := if distinct then "select distinct " else "select "
  verb ++ ("" : String) ++ columns

def Core.sql (c : Core) : Sql :=
  .join " " ((some (head c.distinct c.columns) :: c.parts).filterMap id)

def Selection.memberSql (member : Bool × Sql) : Sql :=
  (if member.1 then "union all " else "union " : String) ++ member.2

def Selection.sql (g : Grammar) (s : Selection) : Sql :=
  if s.members.isEmpty then s.first.sql
  else
    g.unionMember s.first.sql ++ " " ++
      .join " " (s.members.map memberSql ++ s.orders.toList)

namespace Clauses

def core (g : Grammar) (c : Clauses) (joins : List Sql) (conditions : List (Connective × Sql)) :
    Except Error Core := do
  let columns ← g.chosenColumns c
  let groups ← c.groupClause? g
  let havings ← c.havingClause? g
  let orders ← g.orderClause? c.orders
  return { distinct := c.distinct
           columns
           source := c.source.map (g.sourceClause c)
           joins := if joins.isEmpty then none else some (.join " " joins)
           condition := c.conditionClause? conditions
           groups, havings, orders
           lock := c.lock.bind g.lockClause? }

def combinedOrders (g : Grammar) (c : Clauses) (members : List (Bool × Sql)) :
    Except Error (Option Sql) :=
  if members.isEmpty then .ok none else g.orderClause? c.unionOrders

def selection (g : Grammar) (c : Clauses) (joins : List Sql)
    (conditions : List (Connective × Sql)) (members : List (Bool × Sql)) :
    Except Error Selection := do
  let first ← c.core g joins conditions
  let orders ← c.combinedOrders g members
  return ⟨first, members, orders⟩

variable {g : Grammar} {c : Clauses}

theorem columnClause_eq_map (hl : c.limit = none) :
    g.columnClause c = (g.chosenColumns c).map (Core.head c.distinct) := by
  have htop : g.top c = "" := by
    unfold top
    rw [hl]
    split <;> simp_all
  unfold columnClause chosenColumns
  rw [htop]
  rcases c.columns with _ | _ | ⟨r, rs⟩
  · rfl
  · rfl
  · cases g.references (r :: rs) <;> rfl

theorem limitClause?_none (g : Grammar) : g.limitClause? none = none := by
  unfold limitClause?
  split <;> rfl

theorem offsetClause?_none (g : Grammar) : g.offsetClause? none = none := by
  unfold offsetClause?
  split <;> rfl

theorem plain_eq_map (ha : c.aggregate = none) (hw : c.windows = {}) (joins : List Sql)
    (conditions : List (Connective × Sql)) (members : List (Bool × Sql)) :
    c.plain g ⟨joins, conditions, members.map Selection.memberSql⟩ =
      (c.selection g joins conditions members).map (·.sql g) := by
  obtain ⟨⟨hl, ho⟩, hul, huo⟩ : (c.limit = none ∧ c.offset = none) ∧ c.unionLimit = none ∧
      c.unionOffset = none := by
    simpa [windows] using hw
  have hskips : ¬ (g.dialect = .sqlServer ∧ Query.skipsRows c = true) := by
    rw [Query.skipsRows, ho]
    simp
  unfold plain Clauses.selection core combinedOrders unionTail middle
  simp only [ha, hskips, hl, ho, hul, huo, limitClause?_none, offsetClause?_none,
    columnClause_eq_map hl, false_and, if_false]
  cases g.chosenColumns c with
  | error e => rfl
  | ok columns =>
    cases c.groupClause? g with
    | error e => rfl
    | ok groups =>
      cases c.havingClause? g with
      | error e => rfl
      | ok havings =>
        cases g.orderClause? c.orders with
        | error e => rfl
        | ok orders =>
          cases members with
          | nil => rfl
          | cons m members =>
            cases g.orderClause? c.unionOrders with
            | error e => rfl
            | ok unionOrders => rfl

theorem core_eq_ok {joins : List Sql} {conditions : List (Connective × Sql)} {first : Core} :
    c.core g joins conditions = .ok first ↔ g.chosenColumns c = .ok first.columns ∧
      c.groupClause? g = .ok first.groups ∧ c.havingClause? g = .ok first.havings ∧
      g.orderClause? c.orders = .ok first.orders ∧ first.distinct = c.distinct ∧
      first.source = c.source.map (g.sourceClause c) ∧
      first.joins = (if joins.isEmpty then none else some (.join " " joins)) ∧
      first.condition = c.conditionClause? conditions ∧
      first.lock = c.lock.bind g.lockClause? := by
  simp only [core, bind_eq_ok, pure_eq_ok]
  constructor
  · rintro ⟨columns, hcolumns, groups, hgroups, havings, hhavings, orders, horders, rfl⟩
    exact ⟨hcolumns, hgroups, hhavings, horders, rfl, rfl, rfl, rfl, rfl⟩
  · obtain ⟨distinct, columns, source, joins, condition, groups, havings, orders, lock⟩ := first
    rintro ⟨hcolumns, hgroups, hhavings, horders, rfl, rfl, rfl, rfl, rfl⟩
    exact ⟨_, hcolumns, _, hgroups, _, hhavings, _, horders, rfl⟩

theorem selection_eq_ok {joins : List Sql} {conditions : List (Connective × Sql)}
    {members : List (Bool × Sql)} {s : Selection} :
    c.selection g joins conditions members = .ok s ↔
      c.core g joins conditions = .ok s.first ∧ c.combinedOrders g members = .ok s.orders ∧
      s.members = members := by
  simp only [selection, bind_eq_ok, pure_eq_ok]
  constructor
  · rintro ⟨first, hfirst, orders, horders, rfl⟩
    exact ⟨hfirst, horders, rfl⟩
  · obtain ⟨first, members, orders⟩ := s
    rintro ⟨hfirst, horders, rfl⟩
    exact ⟨first, hfirst, orders, horders, rfl⟩

end Clauses

namespace Grammar

def readMember (g : Grammar) (m : Member Query) : Except Error (Bool × Sql) := do
  return (m.all, g.unionMember (← g.select m.query))

def selection (g : Grammar) (q : Query) : Except Error Selection := do
  q.toClauses.checked
  let joins ← g.joinList q.joins
  let conditions ← g.conditionList q.conditions
  let members ← q.unions.mapM g.readMember
  q.toClauses.selection g joins conditions members

variable {g : Grammar} {q : Query}

theorem memberList_eq_map (g : Grammar) (ms : List (Member Query)) :
    g.memberList ms = (ms.mapM g.readMember).map (·.map Selection.memberSql) := by
  induction ms with
  | nil => rfl
  | cons m ms ih =>
    rw [memberList, ih, List.mapM_cons, readMember]
    cases g.select m.query with
    | error e => rfl
    | ok s => cases ms.mapM g.readMember <;> rfl

/-- Without a window, a query that is no aggregate is written as its selection. -/
theorem select_eq_map (ha : q.aggregate = none) (hw : q.windows = {}) :
    g.select q = (g.selection q).map (·.sql g) := by
  obtain ⟨c, joins, conditions, unions⟩ := q
  rw [select, selection]
  dsimp only
  rw [memberList_eq_map]
  cases c.checked with
  | error e => rfl
  | ok _ =>
    cases g.joinList joins with
    | error e => rfl
    | ok joins =>
      cases g.conditionList conditions with
      | error e => rfl
      | ok conditions =>
        cases unions.mapM g.readMember with
        | error e => rfl
        | ok members =>
          have hassemble : c.assemble g ⟨joins, conditions, members.map Selection.memberSql⟩ =
              c.plain g ⟨joins, conditions, members.map Selection.memberSql⟩ := by
            rw [Clauses.assemble, show c.aggregate = none from ha]
          exact hassemble.trans (Clauses.plain_eq_map ha hw joins conditions members)

theorem selection_eq_ok {s : Selection} : g.selection q = .ok s ↔ q.toClauses.checked = .ok () ∧
    ∃ joins conditions, g.joinList q.joins = .ok joins ∧
      g.conditionList q.conditions = .ok conditions ∧
      q.unions.mapM g.readMember = .ok s.members ∧
      q.toClauses.selection g joins conditions s.members = .ok s := by
  simp only [selection, bind_eq_ok]
  constructor
  · rintro ⟨_, hchecked, joins, hj, conditions, hc, members, hm, hs⟩
    obtain ⟨-, -, rfl⟩ := Clauses.selection_eq_ok.1 hs
    exact ⟨hchecked, joins, conditions, hj, hc, hm, hs⟩
  · rintro ⟨hchecked, joins, conditions, hj, hc, hm, hs⟩
    exact ⟨_, hchecked, joins, hj, conditions, hc, _, hm, hs⟩

theorem isEmpty_members {members : List (Bool × Sql)}
    (h : q.unions.mapM g.readMember = .ok members) : members.isEmpty = q.unions.isEmpty := by
  cases hu : q.unions with
  | nil =>
    rw [hu] at h
    cases pure_eq_ok.1 h
    rfl
  | cons m ms =>
    rw [hu, List.mapM_cons] at h
    obtain ⟨x, -, h⟩ := bind_eq_ok.1 h
    obtain ⟨xs, -, h⟩ := bind_eq_ok.1 h
    cases pure_eq_ok.1 h
    rfl

end Grammar

end FluentSql
