import FluentSql.Bindings
import FluentSql.Clause

namespace FluentSql

/-- A value, or the argument of the macro that the step belongs to. -/
inductive Term where
  | value (v : Value)
  | argument (index : Nat)

/-- Outside a macro, and past the last argument, an argument is null. -/
def Term.resolve (arguments : List Value) : Term → Value
  | value v => v
  | argument index => arguments[index]?.getD .null

inductive OperatorName where
  | named (name : String)
  | custom (symbol : String)

def OperatorName.equal : OperatorName := named "="

structure Comparison where
  column : String
  operator : OperatorName
  operand : Operand Term

inductive Step where
  | compare (connective : Connective) (comparison : Comparison)
  | compareDate (part : DatePart) (connective : Connective) (comparison : Comparison)
  | compareJsonLength (connective : Connective) (comparison : Comparison)
  | compareColumns (connective : Connective) (first : String) (operator : OperatorName)
      (second : String)
  | compareQuery (connective : Connective) (column : String) (operator : OperatorName)
      (steps : List Step)
  | compareRow (connective : Connective) (columns : List String) (operator : OperatorName)
      (operands : List (Operand Term))
  | nest (connective : Connective) (steps : List Step)
  | exist (connective : Connective) (negated : Bool) (steps : List Step)
  | isIn (connective : Connective) (negated : Bool) (column : String)
      (operands : List (Operand Term))
  | isInQuery (connective : Connective) (negated : Bool) (column : String) (steps : List Step)
  | isInIntegers (connective : Connective) (negated : Bool) (column : String) (terms : List Term)
  | isNull (connective : Connective) (negated : Bool) (column : String)
  | between (connective : Connective) (negated : Bool) (column : String) (low high : Operand Term)
  | betweenColumns (connective : Connective) (negated : Bool) (column low high : String)
  | rawCondition (connective : Connective) (sql : String) (terms : List Term)
  | jsonContains (connective : Connective) (negated : Bool) (column : String) (term : Term)
  | matchRecord (connective : Connective) (record : Record Term)
  | having (connective : Connective) (comparison : Comparison)
  | havingNull (negated : Bool) (column : String)
  | havingBetween (column : String) (low high : Operand Term)
  | rawHaving (connective : Connective) (sql : String) (terms : List Term)
  | select (columns : List Identifier)
  | addSelect (columns : List Identifier)
  | selectRaw (sql : String) (terms : List Term)
  | selectQuery (steps : List Step) (label : String)
  | distinct
  | source (table : Identifier)
  | sourceRaw (sql : String) (terms : List Term)
  | sourceQuery (steps : List Step) (label : String)
  | groupBy (columns : List Identifier)
  | groupByRaw (sql : String) (terms : List Term)
  | orderBy (column : Identifier) (direction : Direction)
  | orderByRaw (sql : String) (terms : List Term)
  | orderByQuery (steps : List Step) (direction : Direction)
  | randomOrder (seed : String)
  | reorder
  | reorderBy (column : Identifier) (direction : Direction)
  | limit (n : Nat)
  | offset (n : Nat)
  | page (number size : Nat)
  | pageAfter (size : Nat) (last : Option Term) (column : String)
  | unite (all : Bool) (steps : List Step)
  | lock (lock : Lock)
  | useWriteHandle
  | join (kind : JoinKind) (table : Identifier) (first : String) (operator : OperatorName)
      (second : String)
  | crossJoin (table : Identifier)
  | joinWith (kind : JoinKind) (table : Identifier) (steps : List Step)
  | joinQuery (kind : JoinKind) (steps : List Step) (label first : String)
      (operator : OperatorName) (second : String)
  | addBinding (kind : ClauseKind) (term : Term)
  | call (method : String) (terms : List Term)
  | fail (text : String)

def createdAt : String := "created_at"

def Step.latest (column : Option String) : Step :=
  .orderBy (.name (column.getD createdAt)) .descending

def Step.oldest (column : Option String) : Step :=
  .orderBy (.name (column.getD createdAt)) .ascending

structure Macros where
  entries : List (String × List Step) := []

namespace Macros

def get? (m : Macros) (name : String) : Option (List Step) :=
  m.entries.lookup name

def has (m : Macros) (name : String) : Bool :=
  (m.get? name).isSome

def remove (m : Macros) (name : String) : Macros :=
  ⟨m.entries.filter fun (n, _) ↦ n != name⟩

def register (m : Macros) (name : String) (steps : List Step) : Macros :=
  ⟨(name, steps) :: (m.remove name).entries⟩

def isEmpty (m : Macros) : Bool :=
  m.entries.isEmpty

end Macros

end FluentSql
