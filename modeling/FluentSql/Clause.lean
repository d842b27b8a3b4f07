import FluentSql.Operator
import FluentSql.Sql

namespace FluentSql

inductive Connective where
  | and
  | or
  deriving DecidableEq

def Connective.word : Connective → String
  | and => "and"
  | or => "or"

/-- The right side of a comparison: something bound, or a fragment written as it is. -/
inductive Operand (α : Type) where
  | bound (a : α)
  | raw (sql : String)

namespace Operand

def map {α β : Type} (f : α → β) : Operand α → Operand β
  | bound a => bound (f a)
  | raw sql => raw sql

def values : Operand Value → List Value
  | bound v => [v]
  | raw _ => []

def isNull : Operand Value → Bool
  | bound v => v.isNull
  | raw _ => false

def sql : Operand Value → Sql
  | bound v => .slot v
  | raw sql => .raw sql []

end Operand

inductive Identifier where
  | name (s : String)
  | raw (sql : String)

/-- A column or table of a query. Fragments keep the values they came with. -/
inductive Reference where
  | name (s : String)
  | fragment (sql : Sql)

def Identifier.reference : Identifier → Reference
  | name s => .name s
  | raw sql => .fragment (.raw sql [])

def Reference.name? : Reference → Option String
  | name s => some s
  | fragment _ => none

abbrev Record (α : Type) := List (String × Operand α)

def Record.insertSorted {α : Type} (column : String) (operand : Operand α) : Record α → Record α
  | [] => [(column, operand)]
  | (c, o) :: rest =>
    if column = c then (column, operand) :: rest
    else if column < c then (column, operand) :: (c, o) :: rest
    else (c, o) :: Record.insertSorted column operand rest

/-- The record of a map: columns in order, and of several with one name the last. -/
def Record.ofMap {α : Type} (entries : List (String × α)) : Record α :=
  entries.foldl (fun r (column, a) ↦ Record.insertSorted column (.bound a) r) []

def Record.ofMembers (members : List (String × Json)) : Record Value :=
  members.map fun (column, j) ↦ (column, .bound (Value.ofJson j))

def Record.columns {α : Type} (r : Record α) : List String := r.map Prod.fst

def Record.values (r : Record Value) : List Value := r.flatMap fun (_, operand) ↦ operand.values

inductive DatePart where
  | date
  | time
  | day
  | month
  | year

def DatePart.word : DatePart → String
  | date => "date"
  | time => "time"
  | day => "day"
  | month => "month"
  | year => "year"

inductive JoinKind where
  | inner
  | left
  | right
  | cross

def JoinKind.word : JoinKind → String
  | inner => "inner"
  | left => "left"
  | right => "right"
  | cross => "cross"

inductive Direction where
  | ascending
  | descending

def Direction.word : Direction → String
  | ascending => "asc"
  | descending => "desc"

inductive Lock where
  | update
  | shared
  | raw (sql : String)

inductive Order where
  | column (column : Reference) (direction : Direction)
  | raw (sql : Sql)

def Order.isOn (name : String) : Order → Bool
  | column (.name c) _ => c == name
  | _ => false

structure Aggregate where
  function : String
  columns : List Reference

inductive HavingTest where
  | basic (column : String) (operator : Operator) (value : Operand Value)
  | raw (sql : Sql)
  | null (column : String) (negated : Bool)
  | between (column : String) (low high : Operand Value)

structure Having where
  connective : Connective
  test : HavingTest

inductive Test (Q : Type) where
  | basic (column : String) (operator : Operator) (value : Operand Value)
  | jsonBoolean (column : String) (operator : Operator) (value : Bool)
  | columns (first : String) (operator : Operator) (second : String)
  | raw (sql : Sql)
  | isIn (column : String) (values : List (Operand Value)) (negated : Bool)
  | isInQuery (column : String) (query : Q) (negated : Bool)
  | isInIntegers (column : String) (values : List Int64) (negated : Bool)
  | null (column : String) (negated : Bool)
  | between (column : String) (low high : Operand Value) (negated : Bool)
  | betweenColumns (column low high : String) (negated : Bool)
  | datePart (part : DatePart) (column : String) (operator : Operator) (value : Operand Value)
  | nested (query : Q)
  | query (column : String) (operator : Operator) (query : Q)
  | existence (query : Q) (negated : Bool)
  | rowValues (columns : List String) (operator : Operator) (values : List (Operand Value))
  | jsonContains (column : String) (value : Value) (negated : Bool)
  | jsonLength (column : String) (operator : Operator) (value : Operand Value)

structure Condition (Q : Type) where
  connective : Connective
  test : Test Q

/-- The conditions of a join are those of a query of its own, which may have joins in turn. -/
structure Join (Q : Type) where
  kind : JoinKind
  table : Reference
  clause : Q

structure Member (Q : Type) where
  query : Q
  all : Bool

end FluentSql
