import FluentSql.Value

namespace FluentSql

/-- The kinds of clauses, in the order in which a statement shows them. -/
inductive ClauseKind where
  | columns
  | source
  | joins
  | conditions
  | groups
  | havings
  | orders
  | unions
  | unionOrders
  deriving DecidableEq

def ClauseKind.all : List ClauseKind :=
  [columns, source, joins, conditions, groups, havings, orders, unions, unionOrders]

structure Bindings where
  columns : List Value := []
  source : List Value := []
  joins : List Value := []
  conditions : List Value := []
  groups : List Value := []
  havings : List Value := []
  orders : List Value := []
  unions : List Value := []
  unionOrders : List Value := []
  deriving Inhabited

namespace Bindings

def get (b : Bindings) : ClauseKind → List Value
  | .columns => b.columns
  | .source => b.source
  | .joins => b.joins
  | .conditions => b.conditions
  | .groups => b.groups
  | .havings => b.havings
  | .orders => b.orders
  | .unions => b.unions
  | .unionOrders => b.unionOrders

def set (b : Bindings) (kind : ClauseKind) (values : List Value) : Bindings :=
  match kind with
  | .columns => { b with columns := values }
  | .source => { b with source := values }
  | .joins => { b with joins := values }
  | .conditions => { b with conditions := values }
  | .groups => { b with groups := values }
  | .havings => { b with havings := values }
  | .orders => { b with orders := values }
  | .unions => { b with unions := values }
  | .unionOrders => { b with unionOrders := values }

def extend (b : Bindings) (kind : ClauseKind) (values : List Value) : Bindings :=
  b.set kind (b.get kind ++ values)

def push (b : Bindings) (kind : ClauseKind) (value : Value) : Bindings :=
  b.extend kind [value]

def clear (b : Bindings) (kind : ClauseKind) : Bindings :=
  b.set kind []

def flattenIn (b : Bindings) (kinds : List ClauseKind) : List Value :=
  kinds.flatMap b.get

def flattenExcept (b : Bindings) (excluded : List ClauseKind) : List Value :=
  b.flattenIn (ClauseKind.all.filter fun kind ↦ !excluded.contains kind)

def flatten (b : Bindings) : List Value :=
  b.flattenIn ClauseKind.all

@[simp] theorem get_set_same (b : Bindings) (kind : ClauseKind) (values : List Value) :
    (b.set kind values).get kind = values := by
  cases kind <;> rfl

theorem get_set_of_ne (b : Bindings) {kind other : ClauseKind} (values : List Value)
    (h : other ≠ kind) : (b.set kind values).get other = b.get other := by
  cases kind <;> cases other <;> first | rfl | exact absurd rfl h

@[simp] theorem get_extend_same (b : Bindings) (kind : ClauseKind) (values : List Value) :
    (b.extend kind values).get kind = b.get kind ++ values :=
  get_set_same ..

end Bindings

end FluentSql
