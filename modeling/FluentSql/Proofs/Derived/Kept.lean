import FluentSql.Proofs.Derived.Worded
import FluentSql.Proofs.Numbering.Written
import FluentSql.Proofs.Slots.Aligned

namespace FluentSql

open Grammar

/-- Text that can stand for some values: its placeholders are among them, in their order, and row
numbers are there where it asks for them. -/
structure Sql.Fits (g : Grammar) (banned : List String) (s : Sql) (values : List Value) : Prop where
  slots : s.slots.Sublist values
  numbered : g.dialect = .sqlServer → s.NumberedIn banned

theorem Sql.Fits.of_eq {g : Grammar} {banned : List String} {s : Sql} {values : List Value}
    (hs : s.slots = values) (hn : g.dialect = .sqlServer → s.NumberedIn banned) :
    s.Fits g banned values :=
  ⟨hs ▸ List.Sublist.refl _, hn⟩

def Test.values : Test Query → List Value
  | .basic _ _ value => value.values
  | .raw sql => sql.slots
  | .isIn _ values _ => values.flatMap Operand.values
  | .isInQuery _ inner _ => inner.allBindings
  | .between _ low high _ => low.values ++ high.values
  | .datePart _ _ _ value => value.values
  | .nested inner => inner.bindings.conditions
  | .query _ _ inner => inner.allBindings
  | .existence inner _ => inner.allBindings
  | .rowValues _ _ values => values.flatMap Operand.values
  | .jsonContains _ value _ => [value]
  | .jsonLength _ _ value => value.values
  | .jsonBoolean .. => []
  | .columns .. => []
  | .isInIntegers .. => []
  | .null .. => []
  | .betweenColumns .. => []

namespace ClauseKind

abbrev Item : ClauseKind → Type
  | .columns => Reference
  | .source => Reference
  | .joins => Join Query
  | .conditions => Condition Query
  | .groups => Reference
  | .havings => Having
  | .orders => Order
  | .unions => Member Query
  | .unionOrders => Order

def itemValues : (kind : ClauseKind) → kind.Item → List Value
  | .columns, r => r.values
  | .source, r => r.values
  | .joins, j => j.table.values ++ j.clause.allBindings
  | .conditions, c => c.test.values
  | .groups, r => r.values
  | .havings, h => h.test.values
  | .orders, o => o.values
  | .unions, m => m.query.allBindings
  | .unionOrders, o => o.values

def itemText (g : Grammar) : (kind : ClauseKind) → kind.Item → Except Error Sql
  | .columns, r => g.reference r
  | .source, r => .ok (g.tableReference r)
  | .joins, j => g.joinOf j
  | .conditions, c => g.test c.test
  | .groups, r => g.reference r
  | .havings, h => g.havingTest h.test
  | .orders, o => g.orderText o
  | .unions, m => g.memberOf m
  | .unionOrders, o => g.orderText o

/-- The words that are banned from it. A test may have `from` in its operator. -/
def banned : ClauseKind → List String
  | .joins | .conditions | .havings => ["union"]
  | .unions => []
  | _ => borders

def Fits (g : Grammar) (kind : ClauseKind) (x : kind.Item) : Prop :=
  ∀ s, kind.itemText g x = .ok s → s.Fits g kind.banned (kind.itemValues x)

def items : (kind : ClauseKind) → Query.Part kind → List kind.Item
  | .columns, part => part.getD []
  | .source, part => part.toList
  | .joins, part => part
  | .conditions, part => part
  | .groups, part => part
  | .havings, part => part
  | .orders, part => part
  | .unions, part => part
  | .unionOrders, part => part

structure Backed (g : Grammar) (kind : ClauseKind) (part : Query.Part kind) (values : List Value) :
    Prop where
  fits : ∀ x ∈ kind.items part, kind.Fits g x
  bound : ((kind.items part).flatMap kind.itemValues).Sublist values

theorem Backed.append {g : Grammar} {kind : ClauseKind} {part added part' : Query.Part kind}
    {values values' : List Value} (h : Backed g kind part values) (ha : Backed g kind added values')
    (he : kind.items part' = kind.items part ++ kind.items added) :
    Backed g kind part' (values ++ values') where
  fits x hx := by
    rw [he] at hx
    exact (List.mem_append.1 hx).elim (h.fits x) (ha.fits x)
  bound := by
    rw [he, List.flatMap_append]
    exact h.bound.append ha.bound

end ClauseKind

namespace Query

def part (q : Query) : (kind : ClauseKind) → Part kind
  | .columns => q.columns
  | .source => q.source
  | .joins => q.joins
  | .conditions => q.conditions
  | .groups => q.groups
  | .havings => q.havings
  | .orders => q.orders
  | .unions => q.unions
  | .unionOrders => q.unionOrders

/-- A query that counts nothing and has enough values bound for all its clauses. -/
structure Kept (g : Grammar) (q : Query) : Prop where
  grammar : q.grammar = g
  aggregate : q.aggregate = none
  unionOrders : q.unions = [] → q.unionOrders = []
  backed : ∀ kind : ClauseKind, kind.Backed g (q.part kind) (q.bindings.get kind)

namespace Kept

variable {g : Grammar} {q : Query}

theorem start (g : Grammar) (macros : Macros) (isJoin : Bool) :
    Kept g { grammar := g, macros, isJoin } where
  grammar := rfl
  aggregate := rfl
  unionOrders _ := rfl
  backed kind := by cases kind <;> exact ⟨fun _ hx ↦ absurd hx List.not_mem_nil, .refl _⟩

theorem fresh (h : q.Kept g) : q.fresh.Kept g := by
  rw [Query.fresh, h.grammar]
  exact start g q.macros false

theorem joinClause (h : q.Kept g) : q.joinClause.Kept g := by
  have hg := h.grammar
  subst hg
  exact start q.grammar q.macros true

/-- To give a query other clauses of one kind, only these have to be looked at. -/
theorem withPart (h : q.Kept g) (kind : ClauseKind) (part : Part kind) (values : List Value)
    (hb : kind.Backed g part values)
    (hu : (q.withPart kind part values).unions = [] →
      (q.withPart kind part values).unionOrders = []) :
    (q.withPart kind part values).Kept g where
  grammar := by
    rw [← h.grammar]
    cases kind <;> rfl
  aggregate := by
    rw [← h.aggregate]
    cases kind <;> rfl
  unionOrders := hu
  backed other := by
    rw [bindings_withPart]
    by_cases hne : other = kind
    · subst hne
      rw [Bindings.get_set_same]
      have hp : (q.withPart other part values).part other = part := by cases other <;> rfl
      rwa [hp]
    · rw [Bindings.get_set_of_ne _ _ hne]
      have hp : (q.withPart kind part values).part other = q.part other := by
        cases kind <;> cases other <;> first | rfl | exact absurd rfl hne
      rw [hp]
      exact h.backed other

end Kept

end Query

end FluentSql
