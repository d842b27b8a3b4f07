import FluentSql.Session.Reading
import FluentSql.Statement.Change

namespace FluentSql

open FluentSql.Action

def Record.sorted (r : Record Value) : Record Value :=
  r.mergeSort fun a b ↦ a.1 ≤ b.1

def sortRecords (records : List (Record Value)) : Except Error (List (Record Value)) :=
  let records := records.map Record.sorted
  match records with
  | [] => .ok []
  | first :: _ =>
    if records.all fun r ↦ r.columns == first.columns then .ok records
    else .error (.invalid .unevenRecords)

def recordValues (records : List (Record Value)) : List Value :=
  records.flatMap Record.values

def Record.set (column : String) (operand : Operand Value) : Record Value → Record Value
  | [] => [(column, operand)]
  | (c, o) :: rest =>
    if c = column then (c, operand) :: rest else (c, o) :: Record.set column operand rest

def Record.merge (base overrides : Record Value) : Record Value :=
  overrides.foldl (fun r (column, operand) ↦ Record.set column operand r) base

/-- Ids come back as integers where they are written as integers. -/
def numericId : Value → Value
  | .string s =>
    match Text.integer? Value.int64Low Value.int64High s.toList with
    | some i => .int64 (Int64.ofInt i)
    | none => .string s
  | .float64 x => if x.isWhole then .int64 (Value.clampInt64 x) else .float64 x
  | v => v

def Value.isNumeric : Value → Bool
  | int32 _ => true
  | int64 _ => true
  | float32 x => x.isFinite
  | float64 x => x.isFinite
  | _ => false

namespace Query

variable {σ H : Type} (d : Driver σ H)

def insert (q : Query) (record : Record Value) : Action σ H Bool := do
  if record.isEmpty then return true
  let sql ← orFail (q.grammar.insert q [record])
  Session.statement d sql.text record.values

def insertMany (q : Query) (records : List (Record Value)) : Action σ H Bool := do
  if records.isEmpty then return true
  let records ← orFail (sortRecords records)
  let sql ← orFail (q.grammar.insert q records)
  Session.statement d sql.text (recordValues records)

/-- Postgres and SQL Server select the id of the new row; the other drivers are asked for it. -/
def insertGetId (q : Query) (record : Record Value) (sequence : Option String) :
    Action σ H Value := do
  let sql ← orFail (q.grammar.insertGetId q record sequence)
  match (← current).processor with
  | .postgres | .sqlServer =>
    let rows ← Session.selectUsing d false sql.text record.values
    let id := rows.head?.bind fun row ↦ row.get? (sequence.getD "id")
    return numericId ((id.map Value.ofJson).getD .null)
  | _ =>
    let _ ← Session.statement d sql.text record.values
    return ((← Session.lastInsertId? d).map Value.int64).getD .null

def insertOrIgnore (q : Query) (records : List (Record Value)) : Action σ H Nat := do
  if records.isEmpty then return 0
  let records ← orFail (sortRecords records)
  let sql ← orFail (q.grammar.insertOrIgnore q records)
  Session.affecting d sql.text (recordValues records)

def insertUsing (q : Query) (columns : List String) (rows : Query) : Action σ H Nat := do
  let select ← orFail rows.sql
  let sql ← orFail (q.grammar.insertUsing q columns select)
  Session.affecting d sql.text rows.allBindings

/-- Inserts or updates records. Without a list of columns to update, all are updated; with an empty
one, none. -/
def upsert (q : Query) (records : List (Record Value)) (uniqueBy : List String)
    (update : Option (List String)) : Action σ H Nat := do
  if records.isEmpty then return 0
  let records ← orFail (sortRecords records)
  match update with
  | some [] =>
    let sql ← orFail (q.grammar.insert q records)
    return if ← Session.statement d sql.text (recordValues records) then 1 else 0
  | _ =>
    let update := update.getD ((records.head?.map Record.columns).getD [])
    let sql ← orFail (q.grammar.upsert q records uniqueBy update)
    Session.affecting d sql.text (recordValues records)

def update (q : Query) (record : Record Value) : Action σ H Nat := do
  if record.isEmpty then return 0
  let sql ← orFail (q.grammar.update q record)
  Session.affecting d sql.text (q.grammar.updateBindings q.bindings record)

def changeBy (q : Query) (method sign column : String) (amount : Value) (extra : Record Value) :
    Action σ H Nat := do
  if !amount.isNumeric then throw (.invalid (.notNumeric method))
  let wrapped ← orFail (q.grammar.wrap column)
  let changed := Operand.raw (wrapped ++ " " ++ sign ++ " " ++ amount.text)
  q.update d (Record.merge [(column, changed)] extra)

def increment (q : Query) (column : String) (amount : Value) (extra : Record Value) :
    Action σ H Nat :=
  q.changeBy d "increment" "+" column amount extra

def decrement (q : Query) (column : String) (amount : Value) (extra : Record Value) :
    Action σ H Nat :=
  q.changeBy d "decrement" "-" column amount extra

def updateOrInsert (q : Query) (attributes values : Record Value) : Action σ H Bool := do
  let q' := q.addRecord .and attributes
  if !(← q'.exists? d) then q.insert d (attributes.merge values)
  else if values.isEmpty then return true
  else return 0 < (← (q'.setLimit 1).update d values)

def delete (q : Query) : Action σ H Nat := do
  let sql ← orFail (q.grammar.delete q)
  Session.affecting d sql.text (Grammar.deleteBindings q.bindings)

def deleteById (q : Query) (id : Value) : Action σ H Nat :=
  let column := match q.source.bind Reference.name? with
    | some source => source ++ ".id"
    | none => "id"
  (q.addComparison .and column .equal (.bound id)).delete d

def truncate (q : Query) : Action σ H Unit := do
  for (sql, bindings) in ← orFail (q.grammar.truncate q) do
    let _ ← Session.statement d sql.text bindings

end Query

end FluentSql
