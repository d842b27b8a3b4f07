import FluentSql.Value

namespace FluentSql

inductive Unsupported where
  | json
  | offsetOfUnion
  | insertOrIgnore
  | upsert
  | stated (text : String)

def Unsupported.text : Unsupported → String
  | json => "This database engine does not support JSON operations"
  | offsetOfUnion =>
    "SQL Server cannot offset a query with unions; " ++
      "call offset after union to page the combined rows"
  | insertOrIgnore => "This database engine does not support inserting while ignoring errors"
  | upsert => "This database engine does not support upserts"
  | stated text => text

inductive Mistake where
  | unknownOperator (name : String)
  | nullComparison
  | rowArity
  | subquery (reason : Unsupported)

def unknownOperatorText (name : String) : String :=
  "Unknown operator '" ++ name ++ "'. Use Operator::custom for database-specific operators"

def generationText (reason : Unsupported) : String :=
  "SQL generation error: " ++ reason.text

def invalidText (text : String) : String :=
  "Invalid query: " ++ text

def Mistake.text : Mistake → String
  | unknownOperator name => invalidText (unknownOperatorText name)
  | nullComparison => "Illegal operator and value combination."
  | rowArity => "The number of columns must match the number of values"
  | subquery reason => generationText reason

inductive Invalid where
  | mistake (m : Mistake)
  | unknownOperator (name : String)
  | noTable
  | rowsOfUnnamedTable
  | upsertIntoUnnamedTable
  | upsertOfNothing
  | unevenRecords
  | notNumeric (method : String)
  | tooFewArguments (method : String) (expected given : Nat)
  | unordered
  | missingKey (column : String)
  | manyColumns
  | stated (text : String)

def Invalid.text : Invalid → String
  | mistake m => m.text
  | unknownOperator name => unknownOperatorText name
  | noTable => "A table must be set with from() before writing"
  | rowsOfUnnamedTable => "Updates and deletes with joins or limits require a table name"
  | upsertIntoUnnamedTable => "Upserts require a table name"
  | upsertOfNothing => "Upserts require at least one record"
  | unevenRecords => "Every inserted record must have the same columns"
  | notNumeric method => "Non-numeric value passed to " ++ method ++ " method"
  | tooFewArguments method expected given =>
    method ++ " expects " ++ toString expected ++ " arguments, " ++ toString given ++ " given"
  | unordered => "You must specify an order_by clause when using this function"
  | missingKey column =>
    "The chunk_by_id operation was aborted because the [" ++ column ++
      "] column is not present in the query result"
  | manyColumns => "The query returned more than one column"
  | stated text => text

inductive DatabaseFailure where
  | reported (code : Option String) (text : String)
  | poolClosed
  | poolTimedOut
  | workerCrashed
  | rowNotFound
  | io (text : String)
  | protocol (text : String)
  | stated (text : String)

def DatabaseFailure.text : DatabaseFailure → String
  | reported _ text => "error returned from database: " ++ text
  | poolClosed => "attempted to acquire a connection on a closed pool"
  | poolTimedOut => "pool timed out while waiting for an open connection"
  | workerCrashed => "attempted to communicate with a crashed background worker"
  | rowNotFound =>
    "no rows returned by a query that expected to return at least one row"
  | io text => "error communicating with database: " ++ text
  | protocol text => "encountered unexpected or invalid data: " ++ text
  | stated text => text

inductive Misconfigured where
  | unsupportedDriver (name : String)
  | stated (text : String)

def Misconfigured.text : Misconfigured → String
  | unsupportedDriver name => "Unsupported driver [" ++ name ++ "]"
  | stated text => text

inductive Undecodable where
  | malformed
  | notInteger (found : Json)
  | stated (text : String)

def inspected (s : String) : String :=
  let escape (c : Char) : List Char :=
    if c = '"' ∨ c = '\\' then ['\\', c]
    else if c = '\n' then ['\\', 'n']
    else if c = '\r' then ['\\', 'r']
    else if c = '\t' then ['\\', 't']
    else if c = '\x00' then ['\\', '0']
    else [c]
  String.ofList ('"' :: s.toList.flatMap escape ++ ['"'])

def Undecodable.text : Undecodable → String
  | malformed => "malformed document"
  | notInteger found =>
    let (fault, kind) := match found with
      | .null => ("type", "null")
      | .bool _ => ("type", "boolean \x60" ++ found.render ++ "\x60")
      | .integer i => ("value", "integer \x60" ++ toString i ++ "\x60")
      | .number _ => ("type", "floating point \x60" ++ found.render ++ "\x60")
      | .string s => ("type", "string " ++ inspected s)
      | .array _ => ("type", "sequence")
      | .object _ => ("type", "map")
    "invalid " ++ fault ++ ": " ++ kind ++ ", expected i64"
  | stated text => text

inductive Error where
  | database (failure : DatabaseFailure)
  | driver (text : String)
  | generation (reason : Unsupported)
  | invalid (reason : Invalid)
  | connectionLost (sql : String) (bindings : List Value) (source : Error)
  | deadlock (sql : String) (bindings : List Value) (source : Error)
  | execution (sql : String) (bindings : List Value) (source : Error)
  | missingReconnector
  | undefinedMethod (method : String)
  | config (reason : Misconfigured)
  | serialization (reason : Undecodable)

namespace Error

def message : Error → String
  | database failure => "Database error: " ++ failure.text
  | driver text => "Driver error: " ++ text
  | generation reason => generationText reason
  | invalid reason => invalidText reason.text
  | connectionLost sql _ source =>
    "Connection lost: " ++ source.message ++ " (SQL: " ++ sql ++ ")"
  | deadlock sql _ source => "Deadlock: " ++ source.message ++ " (SQL: " ++ sql ++ ")"
  | execution sql _ source =>
    "Query execution error: " ++ source.message ++ " (SQL: " ++ sql ++ ")"
  | missingReconnector => "Lost connection and no reconnector available"
  | undefinedMethod method => "Call to undefined method " ++ method
  | config reason => "Configuration error: " ++ reason.text
  | serialization reason => "Serialization error: " ++ reason.text

/-- The error under all statements it was attached to. -/
def root : Error → Error
  | connectionLost _ _ source => source.root
  | deadlock _ _ source => source.root
  | execution _ _ source => source.root
  | e => e

def sql? : Error → Option String
  | connectionLost sql _ _ => some sql
  | deadlock sql _ _ => some sql
  | execution sql _ _ => some sql
  | _ => none

def bindings? : Error → Option (List Value)
  | connectionLost _ bindings _ => some bindings
  | deadlock _ bindings _ => some bindings
  | execution _ bindings _ => some bindings
  | _ => none

def isCompile : Error → Bool
  | generation _ => true
  | invalid _ => true
  | _ => false

def isConnectionLost : Error → Bool
  | connectionLost .. => true
  | _ => false

def isDeadlock : Error → Bool
  | deadlock .. => true
  | _ => false

/-- Deadlocks are failed executions too. -/
def isExecution : Error → Bool
  | execution .. => true
  | deadlock .. => true
  | _ => false

end Error

end FluentSql
