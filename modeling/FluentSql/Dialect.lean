import FluentSql.Error.Basic

namespace FluentSql

inductive Dialect where
  | generic
  | mysql
  | postgres
  | sqlite
  | sqlServer
  deriving DecidableEq, Inhabited

namespace Dialect

def name : Dialect → String
  | generic => "generic"
  | mysql => "mysql"
  | postgres => "pgsql"
  | sqlite => "sqlite"
  | sqlServer => "sqlsrv"

def ofName? : String → Option Dialect
  | "generic" => some generic
  | "mysql" | "mariadb" => some mysql
  | "pgsql" | "postgres" | "postgresql" => some postgres
  | "sqlite" => some sqlite
  | "sqlsrv" | "sqlserver" | "mssql" => some sqlServer
  | _ => none

def parse (name : String) : Except Error Dialect :=
  let lowered := String.ofList (name.toList.map Char.toLower)
  match ofName? lowered with
  | some d => .ok d
  | none => .error (.config (.unsupportedDriver lowered))

end Dialect

end FluentSql
