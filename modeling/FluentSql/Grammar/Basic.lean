import FluentSql.Dialect

namespace FluentSql

structure Grammar where
  dialect : Dialect := .generic
  tablePrefix : String := ""
  savepoints : Option Bool := none
  deriving DecidableEq, Inhabited

namespace Grammar

def supportsSavepoints (g : Grammar) : Bool :=
  g.savepoints.getD true

def savepoint (g : Grammar) (name : String) : String :=
  match g.dialect with
  | .sqlServer => "SAVE TRANSACTION " ++ name
  | _ => "SAVEPOINT " ++ name

def savepointRollback (g : Grammar) (name : String) : String :=
  match g.dialect with
  | .sqlServer => "ROLLBACK TRANSACTION " ++ name
  | _ => "ROLLBACK TO SAVEPOINT " ++ name

def randomOrder (g : Grammar) (seed : String) : String :=
  match g.dialect with
  | .mysql => "RAND(" ++ seed ++ ")"
  | .sqlServer => "NEWID()"
  | _ => "RANDOM()"

/-- Containment checks bind the JSON text of a value. SQL Server compares with the value itself,
truth values apart. -/
def jsonContainsBinding (g : Grammar) (v : Value) : Value :=
  match g.dialect, v with
  | .sqlServer, .bool b => .string (Value.bool b).toJson.render
  | .sqlServer, v => v
  | _, v => .string v.toJson.render

end Grammar

end FluentSql
