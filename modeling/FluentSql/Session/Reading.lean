import FluentSql.Session.Execution

namespace FluentSql

open FluentSql.Action

/-- The count that a result stands for: numbers are cut off below zero, text has to be a count. -/
def Json.count? : Json → Option Nat
  | .integer i => some i.toNat
  | .number x => some (x.clampTo 0 (UInt64.size - 1)).toNat
  | .string s =>
    match Text.trim s.toList with
    | '-' :: _ => none
    | s => (Text.integer? 0 (UInt64.size - 1) s).map Int.toNat
  | _ => none

def Json.isTruthy : Json → Bool
  | .bool b => b
  | .integer i => i != 0
  | .number x => !x.isZero
  | .string s => s == "1" || s == "t" || s == "true"
  | _ => false

def resultKey (column : String) : String :=
  match Quoting.splitAlias? column.toList with
  | some (_, label) => String.ofList label
  | none => String.ofList ((Text.afterLast? ['.'] column.toList).getD column.toList)

def Row.integers (row : Row) : Except Error (List (String × Int64)) :=
  row.mapM fun (name, j) ↦
    match j with
    | .integer i =>
      if i ≤ Value.int64High then .ok (name, Int64.ofInt i)
      else .error (.serialization (.notInteger j))
    | j => .error (.serialization (.notInteger j))

namespace Query

/-- Orderings mean nothing to an aggregate, unless rows are grouped. -/
def setAggregate (q : Query) (function : String) (columns : List Reference) : Query :=
  let q := { q with aggregate := some ⟨function, columns⟩ }
  if q.groups.isEmpty then { q.clearBindings .orders with orders := [] } else q

/-- Drops the selected columns, unless a union or a group condition may refer to them. -/
def forAggregate (q : Query) : Query :=
  if q.unions.isEmpty ∧ q.havings.isEmpty then { q.clearBindings .columns with columns := none }
  else q

variable {σ H : Type} (d : Driver σ H)

def get (q : Query) : Action σ H (List Row) := do
  let (sql, bindings) ← orFail q.compiled
  Session.selectUsing d (!q.usesWriteHandle) sql bindings

def getIntegers (q : Query) : Action σ H (List (List (String × Int64))) := do
  orFail ((← q.get d).mapM Row.integers)

def first (q : Query) : Action σ H (Option Row) := do
  return (← (q.setLimit 1).get d).head?

def firstIntegers (q : Query) : Action σ H (Option (List (String × Int64))) := do
  match ← q.first d with
  | some row => return some (← orFail row.integers)
  | none => return none

def find (q : Query) (id : Operand Value) : Action σ H (Option Row) :=
  (q.addComparison .and "id" .equal id).first d

def value (q : Query) (column : String) : Action σ H (Option Json) := do
  let row ← (q.select [.name column]).first d
  return (row.bind fun row ↦ row.get? (resultKey column)).filter fun j ↦ !j.isNull

def pluck (q : Query) (column : String) : Action σ H (List Json) := do
  let q := if q.columns.isNone then q.select [.name column] else q
  return (← q.get d).map fun row ↦ (row.get? (resultKey column)).getD .null

def aggregateOf (q : Query) (function : String) (columns : List Reference) :
    Action σ H (Option Json) := do
  let rows ← (q.forAggregate.setAggregate function columns).get d
  return (rows.head?.bind fun row ↦ row.get? "aggregate").filter fun j ↦ !j.isNull

def count (q : Query) : Action σ H Nat := do
  return ((← q.aggregateOf d "count" [.name "*"]).bind Json.count?).getD 0

def sum (q : Query) (column : String) : Action σ H Json := do
  return (← q.aggregateOf d "sum" [.name column]).getD (.integer 0)

def exists? (q : Query) : Action σ H Bool := do
  let sql ← orFail (q.grammar.existence q)
  let rows ← Session.selectUsing d (!q.usesWriteHandle) sql.text q.allBindings
  return ((rows.head?.bind fun row ↦ row.get? "exists").map Json.isTruthy).getD false

end Query

end FluentSql
