import FluentSql.Statement.Condition

namespace FluentSql

namespace Grammar

def aggregateColumns (g : Grammar) (c : Clauses) (a : Aggregate) : Except Error Sql := do
  let columns ← g.references a.columns
  let columns : Sql :=
    if c.distinct ∧ columns.text ≠ "*" then ("distinct " : Sql) ++ columns else columns
  return "select " ++ a.function ++ "(" ++ columns ++ ") as aggregate"

/-- SQL Server writes a limit as `top`, unless rows are skipped. -/
def top (g : Grammar) (c : Clauses) : String :=
  match g.dialect, c.limit with
  | .sqlServer, some limit =>
    if 0 < limit ∧ ¬ Query.skipsRows c then "top " ++ toString limit ++ " " else ""
  | _, _ => ""

def columnClause (g : Grammar) (c : Clauses) : Except Error Sql := do
  let verb := if c.distinct then "select distinct " else "select "
  let columns ← match c.columns with
    | some (r :: rs) => g.references (r :: rs)
    | _ => pure ("*" : Sql)
  return verb ++ g.top c ++ columns

def lockHint (g : Grammar) (lock : Option Lock) : Sql :=
  match g.dialect, lock with
  | .sqlServer, some (.raw sql) => " " ++ .raw sql []
  | .sqlServer, some .update => " with(rowlock,updlock,holdlock)"
  | .sqlServer, some .shared => " with(rowlock,holdlock)"
  | _, _ => .empty

def sourceClause (g : Grammar) (c : Clauses) (source : Reference) : Sql :=
  "from " ++ g.tableReference source ++ g.lockHint c.lock

def havingTest (g : Grammar) : HavingTest → Except Error Sql
  | .basic column operator value => do
    return (← g.wrap column) ++ " " ++ operator.sql ++ " " ++ value.sql
  | .raw sql => .ok sql
  | .null column negated => do
    return ((← g.wrap column) ++ " is " ++ negation negated ++ "null" : String)
  | .between column low high => g.betweenTest column low high false

def havingClause (g : Grammar) (havings : List Having) : Except Error Sql := do
  let tests ← havings.mapM fun h ↦ do return (h.connective, ← g.havingTest h.test)
  return ("having " : Sql) ++ connect tests

def orderText (g : Grammar) : Order → Except Error Sql
  | .column column direction => do return (← g.reference column) ++ " " ++ direction.word
  | .raw sql => .ok sql

def orderClause (g : Grammar) (orders : List Order) : Except Error Sql := do
  return ("order by " : Sql) ++ .join ", " (← orders.mapM g.orderText)

def orderClause? (g : Grammar) (orders : List Order) : Except Error (Option Sql) :=
  if orders.isEmpty then .ok none else (g.orderClause orders).map some

def limitClause? (g : Grammar) (limit : Option Nat) : Option Sql :=
  match g.dialect, limit with
  | .sqlServer, _ => none
  | _, limit => limit.map fun n ↦ ("limit " ++ toString n : String)

def offsetClause? (g : Grammar) (offset : Option Nat) : Option Sql :=
  match g.dialect, offset with
  | .sqlServer, _ => none
  | _, offset => offset.map fun n ↦ ("offset " ++ toString n : String)

def lockClause? (g : Grammar) : Lock → Option Sql
  | .raw sql =>
    if g.dialect = .sqlite ∨ g.dialect = .sqlServer ∨ sql = "" then none else some (.raw sql [])
  | .update =>
    if g.dialect = .mysql ∨ g.dialect = .postgres then some "for update" else none
  | .shared =>
    if g.dialect = .mysql then some "lock in share mode"
    else if g.dialect = .postgres then some "for share"
    else none

/-- A member of a union stands in parentheses, or in a select of its own. -/
def unionMember (g : Grammar) (s : Sql) : Sql :=
  match g.dialect with
  | .sqlite => "select * from (" ++ s ++ ")"
  | .sqlServer =>
    "select * from (" ++ s ++ ") as " ++ g.wrapSegment (g.tablePrefix ++ "temp_table")
  | _ => s.enclosed

/-- Rows numbered by the orderings, of which a range is kept. -/
def rowNumberColumn (orders : Option Sql) : Sql :=
  ", row_number() over (" ++ orders.getD "order by (select 0)" ++ ") as row_num"

/-- Row numbers are counted with 64 bits. -/
def wrapped (n : Nat) : Nat := n % UInt64.size

def rowRange (c : Clauses) : String :=
  let offset := c.offset.getD 0
  let first := toString (wrapped (offset + 1))
  match c.limit with
  | some (limit + 1) =>
    "between " ++ first ++ " and " ++ toString (wrapped (offset + (limit + 1)))
  | _ => ">= " ++ first

end Grammar

/-- The text of everything in a query that holds other queries, each with its own words. -/
structure Embedded where
  joins : List Sql
  conditions : List (Connective × Sql)
  unions : List Sql

def Clauses.conditionClause? (c : Clauses) (conditions : List (Connective × Sql)) : Option Sql :=
  if conditions.isEmpty then none
  else some ((if c.isJoin then "on " else "where " : String) ++ Grammar.connect conditions)

namespace Clauses

open Grammar

def groupClause? (g : Grammar) (c : Clauses) : Except Error (Option Sql) :=
  if c.groups.isEmpty then .ok none
  else (g.references c.groups).map fun s ↦ some ("group by " ++ s)

def havingClause? (g : Grammar) (c : Clauses) : Except Error (Option Sql) :=
  if c.havings.isEmpty then .ok none else (g.havingClause c.havings).map some

def middle (g : Grammar) (c : Clauses) (e : Embedded) : Except Error (List (Option Sql)) := do
  let groups ← c.groupClause? g
  let havings ← c.havingClause? g
  let joins := if e.joins.isEmpty then none else some (.join " " e.joins)
  return [c.source.map (g.sourceClause c), joins, c.conditionClause? e.conditions, groups, havings]

def unionTail (g : Grammar) (c : Clauses) (e : Embedded) : Except Error Sql := do
  let orders ← g.orderClause? c.unionOrders
  let tail := [orders, g.limitClause? c.unionLimit, g.offsetClause? c.unionOffset]
  return .join " " (e.unions ++ tail.filterMap id)

def plain (g : Grammar) (c : Clauses) (e : Embedded) : Except Error Sql := do
  let numbered := g.dialect = .sqlServer ∧ Query.skipsRows c
  if numbered ∧ ¬ e.unions.isEmpty then .error (.generation .offsetOfUnion)
  else
    let columns ← match c.aggregate with
      | some a => g.aggregateColumns c a
      | none => g.columnClause c
    let middle ← c.middle g e
    let orders ← g.orderClause? c.orders
    let windows := [g.limitClause? c.limit, g.offsetClause? c.offset, c.lock.bind g.lockClause?]
    if numbered then
      let columns := if c.aggregate.isSome then columns else columns ++ rowNumberColumn orders
      return "select * from (" ++ .join " " ((some columns :: middle ++ windows).filterMap id) ++
        ") as temp_table where row_num " ++ rowRange c ++ " order by row_num"
    else
      let body := Sql.join " " ((some columns :: middle ++ orders :: windows).filterMap id)
      if e.unions.isEmpty then return body
      else return g.unionMember body ++ " " ++ (← c.unionTail g e)

/-- Aggregates over unions and groups with conditions select from the query as a derived table. -/
def assemble (g : Grammar) (c : Clauses) (e : Embedded) : Except Error Sql :=
  match c.aggregate with
  | some a =>
    if e.unions.isEmpty ∧ c.havings.isEmpty then c.plain g e
    else do
      let outer ← g.aggregateColumns c a
      let inner ← plain g { c with aggregate := none } e
      return outer ++ " from (" ++ inner ++ ") as " ++ g.wrapTable "temp_table"
  | none => c.plain g e

/-- A query with a mistake is never written. -/
def checked (c : Clauses) : Except Error Unit :=
  match c.mistake with
  | some m => .error (.invalid (.mistake m))
  | none => .ok ()

end Clauses

namespace Grammar

def joinText (g : Grammar) (kind : JoinKind) (table : Reference) (clause : Clauses)
    (e : Embedded) : Sql :=
  let table := g.tableReference table
  let table := if e.joins.isEmpty then table else (table ++ " " ++ .join " " e.joins).enclosed
  let conditions := (clause.conditionClause? e.conditions).getD .empty
  (kind.word ++ " join " ++ table ++ " " ++ conditions).trimEnd

mutual

def select (g : Grammar) : Query → Except Error Sql
  | ⟨c, joins, conditions, unions⟩ => do
    c.checked
    let joins ← joinList g joins
    let conditions ← conditionList g conditions
    let unions ← memberList g unions
    c.assemble g ⟨joins, conditions, unions⟩

def joinList (g : Grammar) : List (Join Query) → Except Error (List Sql)
  | [] => .ok []
  | ⟨kind, table, ⟨c, joins, conditions, _⟩⟩ :: rest => do
    let joins ← joinList g joins
    let conditions ← conditionList g conditions
    return g.joinText kind table c ⟨joins, conditions, []⟩ :: (← joinList g rest)

def conditionList (g : Grammar) : List (Condition Query) → Except Error (List (Connective × Sql))
  | [] => .ok []
  | ⟨connective, t⟩ :: rest => do
    let s ← test g t
    return (connective, s) :: (← conditionList g rest)

def memberList (g : Grammar) : List (Member Query) → Except Error (List Sql)
  | [] => .ok []
  | ⟨query, all⟩ :: rest => do
    let s ← select g query
    return ((if all then "union all " else "union " : String) ++ g.unionMember s) ::
      (← memberList g rest)

def test (g : Grammar) : Test Query → Except Error Sql
  | .basic column operator value => g.basicTest column operator value
  | .jsonBoolean column operator value => g.jsonBooleanTest column operator value
  | .columns first operator second => g.columnTest first operator second
  | .raw sql => .ok sql
  | .isIn column values negated => g.inTest column values negated
  | .isInQuery column query negated => do
    return (← g.wrap column) ++ membership negated ++ (← select g query).enclosed
  | .isInIntegers column values negated => g.inIntegersTest column values negated
  | .null column negated => g.nullTest column negated
  | .between column low high negated => g.betweenTest column low high negated
  | .betweenColumns column low high negated => g.betweenColumnsTest column low high negated
  | .datePart part column operator value => g.datePartTest part column operator value
  | .nested ⟨_, _, conditions, _⟩ => do return (connect (← conditionList g conditions)).enclosed
  | .query column operator query => do
    return (← g.wrap column) ++ " " ++ operator.sql ++ " " ++ (← select g query).enclosed
  | .existence query negated => do
    return negation negated ++ "exists " ++ (← select g query).enclosed
  | .rowValues columns operator values => g.rowValuesTest columns operator values
  | .jsonContains column value negated => do
    return negation negated ++ (← g.jsonContainsTest column value)
  | .jsonLength column operator value => g.jsonLengthTest column operator value

end

def embedded (g : Grammar) (q : Query) : Except Error Embedded := do
  let joins ← g.joinList q.joins
  let conditions ← g.conditionList q.conditions
  return ⟨joins, conditions, []⟩

def existence (g : Grammar) (q : Query) : Except Error Sql :=
  match g.dialect with
  | .sqlServer =>
    g.select { q with columns := some [.fragment "1 [exists]"], limit := some 1 }
  | _ => do return "select exists(" ++ (← g.select q) ++ ") as " ++ (← g.wrap "exists")

end Grammar

namespace Query

def sql (q : Query) : Except Error Sql :=
  q.grammar.select q

def compiled (q : Query) : Except Error (String × List Value) := do
  return ((← q.sql).text, q.allBindings)

end Query

end FluentSql
