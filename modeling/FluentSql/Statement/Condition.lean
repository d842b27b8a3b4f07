import FluentSql.Grammar.Selector
import FluentSql.Query.Basic

namespace FluentSql

open Text

namespace Operator

/-- A custom operator is text from outside. -/
def spelled (o : Operator) (symbol : String) : Sql :=
  if o.isKnown then symbol else .raw symbol []

def sql (o : Operator) : Sql := o.spelled o.symbol

@[simp] theorem text_spelled (o : Operator) (symbol : String) :
    (o.spelled symbol).text = symbol := by
  unfold spelled
  split <;> simp [Sql.raw, Sql.text, Piece.written]

@[simp] theorem slots_spelled (o : Operator) (symbol : String) : (o.spelled symbol).slots = [] := by
  unfold spelled
  split <;> rfl

@[simp] theorem text_sql (o : Operator) : o.sql.text = o.symbol := o.text_spelled o.symbol

@[simp] theorem slots_sql (o : Operator) : o.sql.slots = [] := o.slots_spelled o.symbol

theorem sql_of_isKnown {o : Operator} (h : o.isKnown) : o.sql = o.symbol := if_pos h

end Operator

namespace Grammar

def negation (negated : Bool) : String := if negated then "not " else ""

/-- Postgres reads `??` as a question mark that is no placeholder. -/
def comparisonSymbol (g : Grammar) (o : Operator) : Sql :=
  match g.dialect with
  | .postgres => o.spelled (String.ofList (double '?' o.symbol.toList))
  | _ => o.sql

@[simp] theorem text_comparisonSymbol (g : Grammar) (o : Operator) :
    (g.comparisonSymbol o).text =
      if g.dialect = .postgres then String.ofList (double '?' o.symbol.toList) else o.symbol := by
  unfold comparisonSymbol
  cases g.dialect <;> simp

@[simp] theorem slots_comparisonSymbol (g : Grammar) (o : Operator) :
    (g.comparisonSymbol o).slots = [] := by
  unfold comparisonSymbol
  split <;> simp

/-- All accessors of a Postgres selector yield documents. -/
def asDocument (s : String) : String :=
  String.ofList (replace ['-', '>', '>'] Quoting.arrow s.toList)

def basicTest (g : Grammar) (column : String) (operator : Operator) (value : Operand Value) :
    Except Error Sql := do
  let column ← g.wrap column
  if g.dialect = .postgres ∧ operator.isLike then
    return column ++ "::text " ++ operator.sql ++ " " ++ value.sql
  else return column ++ " " ++ g.comparisonSymbol operator ++ " " ++ value.sql

def jsonBooleanTest (g : Grammar) (column : String) (operator : Operator) (value : Bool) :
    Except Error Sql := do
  let literal := if value then "true" else "false"
  let chars := column.toList
  let (selector, literal) ← match g.dialect with
    | .mysql => pure (String.ofList (callOf "json_extract" (g.pathArguments chars)), literal)
    | .postgres =>
      pure ("(" ++ asDocument (String.ofList (g.postgresChain chars)) ++ ")::jsonb",
        "'" ++ literal ++ "'::jsonb")
    | .sqlServer => pure (← g.wrap column, "'" ++ literal ++ "'")
    | .sqlite => pure (← g.wrap column, literal)
    | .generic => .error (.generation .json)
  return selector ++ " " ++ operator.sql ++ " " ++ literal

/-- MySQL counts the JSON null as null, beside a missing key. -/
def nullTest (g : Grammar) (column : String) (negated : Bool) : Except Error Sql :=
  if g.dialect = .mysql ∧ Quoting.isJsonSelector column.toList then
    let field := String.ofList (callOf "json_extract" (g.pathArguments column.toList))
    if negated then
      .ok ("(" ++ field ++ " is not null AND json_type(" ++ field ++ ") != 'NULL')" : String)
    else .ok ("(" ++ field ++ " is null OR json_type(" ++ field ++ ") = 'NULL')" : String)
  else do
    return ((← g.wrap column) ++ " is " ++ negation negated ++ "null" : String)

def membership (negated : Bool) : String := if negated then " not in " else " in "

def emptyMembership (negated : Bool) : Sql := if negated then "1 = 1" else "0 = 1"

def betweenTest (g : Grammar) (column : String) (low high : Operand Value) (negated : Bool) :
    Except Error Sql := do
  return (← g.wrap column) ++ " " ++ negation negated ++ "between " ++ low.sql ++ " and " ++
    high.sql

def sqliteFormat : DatePart → String
  | .date => "%Y-%m-%d"
  | .day => "%d"
  | .month => "%m"
  | .year => "%Y"
  | .time => "%H:%M:%S"

def datePartTest (g : Grammar) (part : DatePart) (column : String) (operator : Operator)
    (value : Operand Value) : Except Error Sql := do
  let column ← g.wrap column
  let compared (left : String) : Sql := left ++ " " ++ operator.sql ++ " " ++ value.sql
  return match g.dialect, part with
    | .postgres, .date => compared (column ++ "::date")
    | .postgres, .time => compared (column ++ "::time")
    | .postgres, part => compared ("extract(" ++ part.word ++ " from " ++ column ++ ")")
    | .sqlite, part =>
      "strftime('" ++ sqliteFormat part ++ "', " ++ column ++ ") " ++ operator.sql ++ " cast(" ++
        value.sql ++ " as text)"
    | .sqlServer, .date => compared ("cast(" ++ column ++ " as date)")
    | .sqlServer, .time => compared ("cast(" ++ column ++ " as time)")
    | _, part => compared (part.word ++ "(" ++ column ++ ")")

def rowValuesTest (g : Grammar) (columns : List String) (operator : Operator)
    (values : List (Operand Value)) : Except Error Sql := do
  return "(" ++ (← g.names columns) ++ ") " ++ operator.sql ++ " (" ++ operands values ++ ")"

def jsonContainsTest (g : Grammar) (column : String) (value : Value) : Except Error Sql := do
  let (field, path) := g.fieldAndPath column.toList
  let (field, path) := (String.ofList field, String.ofList path)
  match g.dialect with
  | .mysql => return "json_contains(" ++ field ++ ", " ++ .slot value ++ path ++ ")"
  | .postgres => return "(" ++ asDocument (← g.wrap column) ++ ")::jsonb @> " ++ .slot value
  | .sqlite =>
    return "exists (select 1 from json_each(" ++ field ++ path ++ ") where " ++
      (← g.wrap "json_each.value") ++ " is " ++ .slot value ++ ")"
  | .sqlServer =>
    return .slot value ++ " in (select [value] from openjson(" ++ field ++ path ++ "))"
  | .generic => .error (.generation .json)

def jsonLengthTest (g : Grammar) (column : String) (operator : Operator) (value : Operand Value) :
    Except Error Sql := do
  let path := String.ofList (g.pathArguments column.toList)
  let length ← match g.dialect with
    | .mysql => pure ("json_length(" ++ path ++ ")")
    | .postgres => pure ("jsonb_array_length((" ++ asDocument (← g.wrap column) ++ ")::jsonb)")
    | .sqlite => pure ("json_array_length(" ++ path ++ ")")
    | .sqlServer => pure ("(select count(*) from openjson(" ++ path ++ "))")
    | .generic => .error (.generation .json)
  return length ++ " " ++ operator.sql ++ " " ++ value.sql

def columnTest (g : Grammar) (first : String) (operator : Operator) (second : String) :
    Except Error Sql := do
  return (← g.wrap first) ++ " " ++ operator.sql ++ " " ++ (← g.wrap second)

def betweenColumnsTest (g : Grammar) (column low high : String) (negated : Bool) :
    Except Error Sql := do
  return ((← g.wrap column) ++ " " ++ negation negated ++ "between " ++ (← g.wrap low) ++ " and " ++
    (← g.wrap high) : String)

def inTest (g : Grammar) (column : String) (values : List (Operand Value)) (negated : Bool) :
    Except Error Sql :=
  if values.isEmpty then .ok (emptyMembership negated)
  else do return (← g.wrap column) ++ membership negated ++ "(" ++ operands values ++ ")"

def inIntegersTest (g : Grammar) (column : String) (values : List Int64) (negated : Bool) :
    Except Error Sql :=
  if values.isEmpty then .ok (emptyMembership negated)
  else do
    let list := ", ".intercalate (values.map fun i ↦ toString i.toInt)
    return ((← g.wrap column) ++ membership negated ++ "(" ++ list ++ ")" : String)

def connect : List (Connective × Sql) → Sql
  | [] => .empty
  | (_, first) :: rest =>
    first ++ ⟨rest.flatMap fun (c, s) ↦ .text (" " ++ c.word ++ " ") :: s.pieces⟩

end Grammar

end FluentSql
