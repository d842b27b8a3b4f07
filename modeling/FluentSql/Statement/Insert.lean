import FluentSql.Statement.Select

namespace FluentSql.Grammar

def target (g : Grammar) (q : Query) : Except Error Sql := do
  q.checked
  match q.source with
  | some source => return g.tableReference source
  | none => .error (.invalid .noTable)

def rows (records : List (Record Value)) : Sql :=
  .join ", " (records.map fun r ↦ (operands (r.map Prod.snd)).enclosed)

/-- An insert behind its verb. The first record decides the columns; without any, the row takes the
defaults of the table. -/
def insertWith (g : Grammar) (verb : String) (q : Query) (records : List (Record Value)) :
    Except Error Sql := do
  let table ← g.target q
  match records with
  | (c :: cs) :: rest =>
    return verb ++ " into " ++ table ++ " (" ++ (← g.names (Record.columns (c :: cs))) ++
      ") values " ++ rows ((c :: cs) :: rest)
  | _ =>
    match g.dialect with
    | .mysql => return verb ++ " into " ++ table ++ " () values ()"
    | _ => return verb ++ " into " ++ table ++ " default values"

def insert (g : Grammar) (q : Query) (records : List (Record Value)) : Except Error Sql :=
  g.insertWith "insert" q records

def insertOrIgnore (g : Grammar) (q : Query) (records : List (Record Value)) : Except Error Sql :=
  match g.dialect with
  | .mysql => g.insertWith "insert ignore" q records
  | .sqlite => g.insertWith "insert or ignore" q records
  | .postgres => do return (← g.insert q records) ++ " on conflict do nothing"
  | _ => do
    let _ ← g.insert q records
    .error (.generation .insertOrIgnore)

def insertGetId (g : Grammar) (q : Query) (record : Record Value) (sequence : Option String) :
    Except Error Sql := do
  let sql ← g.insert q [record]
  let sequence := sequence.getD "id"
  match g.dialect with
  | .postgres => return sql ++ " returning " ++ (← g.wrap sequence)
  | .sqlServer =>
    return "set nocount on;" ++ sql ++ ";select scope_identity() as " ++ (← g.wrap sequence)
  | _ => return sql

def insertUsing (g : Grammar) (q : Query) (columns : List String) (rows : Sql) :
    Except Error Sql := do
  return "insert into " ++ (← g.target q) ++ " (" ++ (← g.names columns) ++ ") " ++ rows

def assignments (columns : List String) (assign : String → Except Error String) :
    Except Error String := do
  return ", ".intercalate (← columns.mapM assign)

def merge (g : Grammar) (q : Query) (records : List (Record Value))
    (uniqueBy update : List String) : Except Error Sql :=
  match q.source.bind Reference.name? with
  | none => .error (.invalid .upsertIntoUnnamedTable)
  | some table =>
    match records with
    | [] => .error (.invalid .upsertOfNothing)
    | first :: rest => do
      let columns ← g.names first.columns
      let matching ← uniqueBy.mapM fun column ↦ do
        return (← g.wrap ("upsert_source." ++ column)) ++ " = " ++
          (← g.wrap (table ++ "." ++ column))
      let sets ← assignments update fun column ↦ do
        return (← g.wrap column) ++ " = " ++ (← g.wrap ("upsert_source." ++ column))
      let matched :=
        if update.isEmpty then "" else "when matched then update set " ++ sets ++ " "
      return "merge " ++ g.wrapTable table ++ " using (values " ++ rows (first :: rest) ++ ") " ++
        g.wrapTable "upsert_source" ++ " (" ++ columns ++ ") on " ++ " and ".intercalate matching ++
        " " ++ matched ++ "when not matched then insert (" ++ columns ++ ") values (" ++ columns ++
        ");"

def upsert (g : Grammar) (q : Query) (records : List (Record Value))
    (uniqueBy update : List String) : Except Error Sql :=
  match g.dialect with
  | .mysql => do
    let sql ← g.insert q records
    let sets ← assignments update fun column ↦ do
      let column ← g.wrap column
      return column ++ " = values(" ++ column ++ ")"
    return sql ++ " on duplicate key update " ++ sets
  | .sqlServer => g.merge q records uniqueBy update
  | .generic => .error (.generation .upsert)
  | _ => do
    let sql ← g.insert q records
    let sets ← assignments update fun column ↦ do
      return (← g.wrap column) ++ " = " ++ g.wrapSegment "excluded" ++ "." ++ g.wrapSegment column
    return sql ++ " on conflict (" ++ (← g.names uniqueBy) ++ ") do update set " ++ sets

end FluentSql.Grammar
