import FluentSql.Query.Conditions

namespace FluentSql.Query

/-- The text of a query that is embedded at once. A query that cannot be written is a mistake. -/
def embed (q inner : Query) : Sql ⊕ Query :=
  match q.grammar.select inner with
  | .ok sql => .inl sql
  | .error (.generation reason) => .inr ((q.absorb inner).fail (.subquery reason))
  | .error _ => .inr (q.absorb inner)

def withEmbedded (q inner : Query) (continue' : Query → Sql → Query) : Query :=
  match q.embed inner with
  | .inl sql => continue' (q.absorb inner) sql
  | .inr q => q

def aliased (sql : Sql) (label : String) : Reference :=
  .fragment (sql.enclosed ++ " as " ++ label)

def select (q : Query) (columns : List Reference) : Query :=
  { q.clearBindings .columns with columns := some columns }

def addSelect (q : Query) (columns : List Reference) : Query :=
  { q with columns := some (q.columns.getD [] ++ columns) }

def selectRaw (q : Query) (sql : String) (values : List Value) : Query :=
  (q.addSelect [.fragment (.raw sql values)]).bind .columns values

def selectQuery (q inner : Query) (label : String) : Query :=
  q.withEmbedded inner fun q sql ↦
    (q.addSelect [aliased sql (q.grammar.wrapSegment label)]).bind .columns inner.allBindings

def setSource (q : Query) (source : Reference) : Query :=
  { q with source := some source }

def sourceRaw (q : Query) (sql : String) (values : List Value) : Query :=
  (q.setSource (.fragment (.raw sql values))).bind .source values

def sourceQuery (q inner : Query) (label : String) : Query :=
  q.withEmbedded inner fun q sql ↦
    { q.setSource (aliased sql (q.grammar.wrapTable label)) with
      bindings := q.bindings.set .source inner.allBindings }

def addGroups (q : Query) (groups : List Reference) : Query :=
  { q with groups := q.groups ++ groups }

def groupByRaw (q : Query) (sql : String) (values : List Value) : Query :=
  (q.addGroups [.fragment (.raw sql values)]).bind .groups values

def addHaving (q : Query) (connective : Connective) (test : HavingTest) (values : List Value) :
    Query :=
  let q := q.bind .havings values
  { q with havings := q.havings ++ [⟨connective, test⟩] }

/-- Null is compared by `is null` for equality, and bound for any other operator. -/
def having (q : Query) (connective : Connective) (column : String) (operator : Operator)
    (operand : Operand Value) : Query :=
  if operand.isNull ∧ (operator.isEquality ∨ operator.isInequality) then
    q.addHaving connective (.null column operator.isInequality) []
  else q.addHaving connective (.basic column operator operand) operand.values

/-- After a union, orderings are of the combined rows. -/
def addOrder (q : Query) (order : Order) (values : List Value) : Query :=
  if q.unions.isEmpty then { q.bind .orders values with orders := q.orders ++ [order] }
  else { q.bind .unionOrders values with unionOrders := q.unionOrders ++ [order] }

def orderBy (q : Query) (column : Reference) (direction : Direction) : Query :=
  q.addOrder (.column column direction) []

def orderByRaw (q : Query) (sql : String) (values : List Value) : Query :=
  q.addOrder (.raw (.raw sql values)) values

def orderByQuery (q inner : Query) (direction : Direction) : Query :=
  q.withEmbedded inner fun q sql ↦
    q.addOrder (.raw (sql.enclosed ++ " " ++ direction.word)) inner.allBindings

def reorder (q : Query) : Query :=
  { (q.clearBindings .orders).clearBindings .unionOrders with orders := [], unionOrders := [] }

/-- After a union, the window is one of the combined rows. -/
def setLimit (q : Query) (n : Nat) : Query :=
  if q.unions.isEmpty then { q with limit := some n } else { q with unionLimit := some n }

def setOffset (q : Query) (n : Nat) : Query :=
  if q.unions.isEmpty then { q with offset := some n } else { q with unionOffset := some n }

/-- Counts stop at the largest unsigned 64-bit number. -/
def saturated (n : Nat) : Nat := min n (UInt64.size - 1)

def page (q : Query) (number size : Nat) : Query :=
  (q.setOffset (saturated ((number - 1) * size))).setLimit size

/-- The rows after a key, in its order. Other orderings by the key are dropped first. -/
def pageAfter (q : Query) (size : Nat) (last : Option Value) (column : String) : Query :=
  let q := { q with orders := q.orders.filter fun o ↦ !o.isOn column }
  let q := match last with
    | some v => q.addComparison .and column .greater (.bound v)
    | none => q
  (q.orderBy (.name column) .ascending).setLimit size

def unite (q inner : Query) (all : Bool) : Query :=
  let q := (q.absorb inner).bind .unions inner.allBindings
  { q with unions := q.unions ++ [⟨inner, all⟩] }

def setLock (q : Query) (lock : Lock) : Query :=
  { q with lock := some lock, usesWriteHandle := true }

def joinClause (q : Query) : Query := { q.fresh with isJoin := true }

def addJoin (q : Query) (kind : JoinKind) (table : Reference) (clause : Query) : Query :=
  let q := (q.absorb clause).bind .joins clause.allBindings
  { q with joins := q.joins ++ [⟨kind, table, clause⟩] }

def joinOn (q : Query) (kind : JoinKind) (table : Reference) (first : String)
    (operator : OperatorName) (second : String) : Query :=
  q.addJoin kind table (q.joinClause.withOperator operator fun o ↦
    q.joinClause.addColumns .and first o second)

def joinQuery (q : Query) (kind : JoinKind) (inner : Query) (label first : String)
    (operator : OperatorName) (second : String) : Query :=
  q.withEmbedded inner fun q sql ↦
    (q.bind .joins inner.allBindings).joinOn kind (aliased sql (q.grammar.wrapTable label)) first
      operator second

end FluentSql.Query
