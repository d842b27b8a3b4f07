import FluentSql.Session.Reading

namespace FluentSql

open FluentSql.Action

structure CountedPage (α : Type) where
  items : List α
  total : Nat
  perPage : Nat
  current : Nat
  last : Nat

namespace CountedPage

variable {α : Type}

/-- There is always a page; the last one holds what is left over. -/
def of (items : List α) (total perPage current : Nat) : CountedPage α :=
  let last := if perPage = 0 then 1 else max 1 ((total + perPage - 1) / perPage)
  { items, total, perPage, current, last }

def hasMorePages (p : CountedPage α) : Bool := p.current < p.last

def firstItem? (p : CountedPage α) : Option Nat :=
  if p.items.isEmpty then none else some ((p.current - 1) * p.perPage + 1)

def lastItem? (p : CountedPage α) : Option Nat :=
  p.firstItem?.map fun first ↦ first + p.items.length - 1

end CountedPage

/-- A page of a result of which only the next row is known. -/
structure OpenPage (α : Type) where
  items : List α
  perPage : Nat
  current : Nat
  hasMore : Bool

namespace Query

def unwindowed (q : Query) : Query :=
  { q.reorder with limit := none, offset := none, unionLimit := none, unionOffset := none }

/-- The query that counts the rows of another. Groups are counted as a derived table. -/
def counting (q : Query) : Except Error Query :=
  let all := q.unwindowed
  if q.groups.isEmpty ∧ q.havings.isEmpty then
    let all := if q.unions.isEmpty then { all.clearBindings .columns with columns := none } else all
    .ok (all.setAggregate "count" [.name "*"])
  else do
    let all := match all.columns, all.source.bind Reference.name? with
      | none, some table => if all.joins.isEmpty then all else all.select [.name (table ++ ".*")]
      | _, _ => all
    let sql ← all.sql
    let outer := q.fresh.setSource (aliased sql (q.grammar.wrapSegment "aggregate_table"))
    return (outer.bind .source all.allBindings).setAggregate "count" [.name "*"]

structure Chunk where
  number : Nat
  rows : List Row

variable {σ H : Type} (d : Driver σ H)

def countRows (q : Query) : Action σ H Nat := do
  let rows ← (← orFail q.counting).get d
  return ((rows.head?.bind fun row ↦ row.get? "aggregate").bind Json.count?).getD 0

def paginate (q : Query) (perPage number : Nat) : Action σ H (CountedPage Row) := do
  let number := max 1 number
  let total ← q.countRows d
  let items ← if 0 < total then (q.page number perPage).get d else pure []
  return .of items total perPage number

def simplePaginate (q : Query) (perPage number : Nat) : Action σ H (OpenPage Row) := do
  let number := max 1 number
  let q := (q.setOffset (saturated ((number - 1) * perPage))).setLimit (saturated (perPage + 1))
  let items ← q.get d
  return ⟨items.take perPage, perPage, number, perPage < items.length⟩

/-- Reads page after page while the callback wants more, at most `bound` of them. Yields the pages
that the callback got, and whether it wanted them all. -/
def chunkFrom (q : Query) (size : Nat) (goOn : Chunk → Bool) :
    (bound number : Nat) → StateM (Session σ H) (List Chunk × Except Error Bool)
  | 0, _ => return ([], .ok true)
  | bound + 1, number => do
    match ← ((q.page number size).get d).run with
    | .error e => return ([], .error e)
    | .ok [] => return ([], .ok true)
    | .ok rows =>
      let chunk : Chunk := ⟨number, rows⟩
      if !goOn chunk then return ([chunk], .ok false)
      else if rows.length ≠ size then return ([chunk], .ok true)
      else
        let (rest, result) ← chunkFrom q size goOn bound (number + 1)
        return (chunk :: rest, result)

def chunk (q : Query) (size : Nat) (goOn : Chunk → Bool) (bound : Nat) :
    StateM (Session σ H) (List Chunk × Except Error Bool) :=
  if q.orders.isEmpty ∧ q.unionOrders.isEmpty then return ([], .error (.invalid .unordered))
  else if size = 0 then return ([], .ok true)
  else q.chunkFrom d size goOn bound 1

def lastKey? (rows : List Row) (key : String) : Option Value :=
  ((rows.getLast?.bind fun row ↦ row.get? key).filter fun j ↦ !j.isNull).map Value.ofJson

def chunkAfter (q : Query) (size : Nat) (column key : String) (goOn : Chunk → Bool) :
    (bound number : Nat) → Option Value → StateM (Session σ H) (List Chunk × Except Error Bool)
  | 0, _, _ => return ([], .ok true)
  | bound + 1, number, last => do
    match ← ((q.pageAfter size last column).get d).run with
    | .error e => return ([], .error e)
    | .ok [] => return ([], .ok true)
    | .ok rows =>
      match lastKey? rows key with
      | none => return ([], .error (.invalid (.missingKey key)))
      | some last =>
        let chunk : Chunk := ⟨number, rows⟩
        if !goOn chunk then return ([chunk], .ok false)
        else if rows.length ≠ size then return ([chunk], .ok true)
        else
          let (rest, result) ← chunkAfter q size column key goOn bound (number + 1) (some last)
          return (chunk :: rest, result)

/-- Reads pages by a column; in the rows it may stand under another key. -/
def chunkById (q : Query) (size : Nat) (column : String) (key : Option String)
    (goOn : Chunk → Bool) (bound : Nat) : StateM (Session σ H) (List Chunk × Except Error Bool) :=
  if size = 0 then return ([], .ok true)
  else q.chunkAfter d size column (key.getD column) goOn bound 1 none

end Query

end FluentSql
