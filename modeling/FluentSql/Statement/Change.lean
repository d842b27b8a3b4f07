import FluentSql.Statement.Insert

namespace FluentSql.Grammar

open Text

def aliasOf (table : Sql) : Sql :=
  match afterLast? Quoting.aliasMark table.text.toList with
  | some label => (String.ofList label : String)
  | none => table.text

/-- Postgres and SQLite take no table in front of an assigned column. -/
def assignedColumn (g : Grammar) (column : String) : Except Error String :=
  match g.dialect with
  | .postgres | .sqlite =>
    g.wrap (String.ofList ((afterLast? ['.'] column.toList).getD column.toList))
  | _ => g.wrap column

def assignedValues (g : Grammar) (record : Record Value) : Except Error Sql := do
  let sets ← record.mapM fun (column, operand) ↦ do
    return (← g.assignedColumn column) ++ " = " ++ operand.sql
  return .join ", " sets

/-- The physical name of a row, where joins and limits are only possible in a select. -/
def rowIdentifier? (g : Grammar) (q : Query) : Option String :=
  if q.joins.isEmpty ∧ q.limit.isNone then none
  else match g.dialect with
    | .postgres => some "ctid"
    | .sqlite => some "rowid"
    | _ => none

def selectRows (g : Grammar) (q : Query) (identifier : String) : Except Error Sql :=
  match q.source.bind Reference.name? with
  | none => .error (.invalid .rowsOfUnnamedTable)
  | some source =>
    let label := match Quoting.splitAlias? source.toList with
      | some (_, label) => String.ofList label
      | none => source
    g.select { q with columns := some [.name (label ++ "." ++ identifier)] }

/-- MySQL orders and limits the rows of one table. -/
def orderAndLimit (g : Grammar) (q : Query) (sql : Sql) : Except Error Sql :=
  match g.dialect with
  | .mysql => do
    let orders ← g.orderClause? q.orders
    return .join " " (sql :: [orders, g.limitClause? q.limit].filterMap id)
  | _ => .ok sql

def conditions (q : Query) (e : Embedded) : Sql :=
  (q.conditionClause? e.conditions).getD .empty

def update (g : Grammar) (q : Query) (record : Record Value) : Except Error Sql := do
  let table ← g.target q
  match g.rowIdentifier? q with
  | some identifier =>
    let sets ← g.assignedValues record
    let rows ← g.selectRows q identifier
    return "update " ++ table ++ " set " ++ sets ++ " where " ++ (← g.wrap identifier) ++ " in (" ++
      rows ++ ")"
  | none =>
    let sets ← g.assignedValues record
    let e ← g.embedded q
    if q.joins.isEmpty then
      let sql : Sql := "update " ++ table ++ " set " ++ sets ++ " " ++ conditions q e
      return (← g.orderAndLimit q sql.trimEnd).trimEnd
    else
      let joins := Sql.join " " e.joins
      match g.dialect with
      | .sqlServer =>
        return ("update " ++ aliasOf table ++ " set " ++ sets ++ " from " ++ table ++ " " ++
          joins ++ " " ++ conditions q e : Sql).trimEnd
      | _ =>
        return ("update " ++ table ++ " " ++ joins ++ " set " ++ sets ++ " " ++ conditions q e :
          Sql).trimEnd

/-- The values of an update in the order of its placeholders: joins stand in front of the
assignments, or behind them. -/
def updateBindings (g : Grammar) (b : Bindings) (record : Record Value) : List Value :=
  match g.dialect with
  | .generic | .mysql => b.joins ++ record.values ++ b.flattenExcept [.columns, .joins]
  | _ => record.values ++ b.flattenExcept [.columns]

/-- SQL Server bounds a delete by `top`, unless rows are skipped. -/
def deleteVerb (g : Grammar) (q : Query) : String :=
  match g.dialect, q.limit with
  | .sqlServer, some limit =>
    if 0 < limit ∧ ¬ Query.skipsRows q.toClauses then "delete top (" ++ toString limit ++ ")"
    else "delete"
  | _, _ => "delete"

def delete (g : Grammar) (q : Query) : Except Error Sql := do
  let table ← g.target q
  match g.rowIdentifier? q with
  | some identifier =>
    let rows ← g.selectRows q identifier
    return "delete from " ++ table ++ " where " ++ (← g.wrap identifier) ++ " in (" ++ rows ++ ")"
  | none =>
    let e ← g.embedded q
    if q.joins.isEmpty then
      let sql : Sql := g.deleteVerb q ++ " from " ++ table ++ " " ++ conditions q e
      return (← g.orderAndLimit q sql.trimEnd).trimEnd
    else
      return ("delete " ++ aliasOf table ++ " from " ++ table ++ " " ++ .join " " e.joins ++ " " ++
        conditions q e : Sql).trimEnd

def deleteBindings (b : Bindings) : List Value :=
  b.flattenExcept [.columns]

/-- The statements that empty a table, each with its bindings. SQLite keeps the counter of a table
in a table of its own. -/
def truncate (g : Grammar) (q : Query) : Except Error (List (Sql × List Value)) := do
  let table ← g.target q
  match g.dialect with
  | .postgres => return [("truncate " ++ table ++ " restart identity cascade", [])]
  | .sqlite =>
    let name : Value := .string (g.tablePrefix ++ (q.source.bind Reference.name?).getD "")
    return [("delete from sqlite_sequence where name = " ++ .slot name, [name]),
      ("delete from " ++ table, [])]
  | _ => return [("truncate table " ++ table, [])]

end FluentSql.Grammar
