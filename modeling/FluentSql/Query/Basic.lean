import FluentSql.Grammar.Basic
import FluentSql.Step

namespace FluentSql

structure Clauses where
  grammar : Grammar := {}
  macros : Macros := {}
  aggregate : Option Aggregate := none
  columns : Option (List Reference) := none
  distinct : Bool := false
  source : Option Reference := none
  groups : List Reference := []
  havings : List Having := []
  orders : List Order := []
  limit : Option Nat := none
  offset : Option Nat := none
  unionOrders : List Order := []
  unionLimit : Option Nat := none
  unionOffset : Option Nat := none
  lock : Option Lock := none
  bindings : Bindings := {}
  usesWriteHandle : Bool := false
  isJoin : Bool := false
  mistake : Option Mistake := none
  deriving Inhabited

structure Query extends Clauses where
  joins : List (Join Query) := []
  conditions : List (Condition Query) := []
  unions : List (Member Query) := []
  deriving Inhabited

namespace Query

def ofGrammar (g : Grammar) : Query := { grammar := g }

def fresh (q : Query) : Query := { grammar := q.grammar, macros := q.macros }

def fail (q : Query) (m : Mistake) : Query :=
  match q.mistake with
  | some _ => q
  | none => { q with mistake := some m }

def absorb (q other : Query) : Query :=
  match other.mistake with
  | some m => q.fail m
  | none => q

def bind (q : Query) (kind : ClauseKind) (values : List Value) : Query :=
  { q with bindings := q.bindings.extend kind values }

def clearBindings (q : Query) (kind : ClauseKind) : Query :=
  { q with bindings := q.bindings.clear kind }

/-- An offset of zero is none. -/
def skipsRows (c : Clauses) : Bool := 0 < c.offset.getD 0

/-- SQL Server pages with a row number, whose orderings stand in front of the source. -/
def bindingOrder (q : Query) : List ClauseKind :=
  if q.grammar.dialect = .sqlServer ∧ skipsRows q.toClauses then
    [.columns, .orders, .source, .joins, .conditions, .groups, .havings, .unions, .unionOrders]
  else ClauseKind.all

def allBindings (q : Query) : List Value :=
  q.bindings.flattenIn q.bindingOrder

end Query

end FluentSql
